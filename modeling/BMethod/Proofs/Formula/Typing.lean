import Mathlib
import BMethod.Formula.Typing
import BMethod.Proofs.Element.Parts
import BMethod.Proofs.Formula.Writing
import BMethod.Proofs.Text.Spelling

/-!
# Types, tags and variables in a document

What an element says about its type, its tags and its variables, as a relation with what is read
from it. Names that a document can hold and the attributes of an expression are read back as they
were written.
-/

namespace BMethod

/-! ## What is read -/

theorem Table.at?_eq_some {t : Table} {ref : Int} {ty : Ty} (h : t.at? ref = some ty) :
    ty ∈ t.types := by
  unfold Table.at? at h
  split at h
  · cases h
  · exact List.mem_of_getElem? h

theorem Table.typeOf_eq_ok {t : Table} {e : Element} {ty : Ty} :
    t.typeOf e = .ok ty ↔ ∃ v ref, e.attr? "typref" = some v ∧
      Text.readInt? (Text.trim v) = some ref ∧ t.at? ref = some ty := by
  unfold Table.typeOf
  split
  · rename_i hnone
    simp [hnone, Element.complain_ne_ok]
  · rename_i v hv
    split
    · rename_i hnone
      simp [hv, hnone, Element.complain_ne_ok]
    · rename_i ref href
      split
      · rename_i hnone
        simp [hv, href, hnone, Element.complain_ne_ok]
      · rename_i u hu
        simp [hv, href, hu, pure_eq_ok]

theorem Table.mem_of_typeOf {t : Table} {e : Element} {ty : Ty} (h : t.typeOf e = .ok ty) :
    ty ∈ t.types := by
  obtain ⟨v, ref, -, -, href⟩ := Table.typeOf_eq_ok.1 h
  exact Table.at?_eq_some href

theorem Info.read_eq_ok {t : Table} {e : Element} {info : Info} :
    Info.read t e = .ok info ↔ t.typeOf e = .ok info.ty ∧ readTags e = info.tags := by
  unfold Info.read
  simp only [bind_eq_ok, pure_eq_ok]
  constructor
  · rintro ⟨ty, hty, rfl⟩
    exact ⟨hty, rfl⟩
  · rintro ⟨hty, htags⟩
    exact ⟨info.ty, hty, by rw [htags]⟩

theorem isTag_of_mem_readTags {e : Element} : ∀ tag ∈ readTags e, Write.isTag tag = true := by
  unfold readTags
  split
  · rename_i v hv
    intro tag htag
    obtain ⟨hsplit, hne⟩ := List.mem_filter.1 htag
    obtain ⟨part, hpart, rfl⟩ := List.mem_map.1 hsplit
    have hcomma := (Text.splitChars_spec ',' _ part hpart).1
    simp_all [Write.isTag]
  · simp

/-- What the element of a variable says about its name. -/
inductive VarName.Form (e : Element) : VarName → Prop
  | plain {stem : String} (tag : e.tag = "Id") (value : e.attr? "value" = some stem)
      (suffix : e.attr? "suffix" = none) : Form e (.plain stem)
  | suffixed {stem v : String} {n : Int} (tag : e.tag = "Id") (value : e.attr? "value" = some stem)
      (suffix : e.attr? "suffix" = some v) (int : Text.readInt? (Text.trim v) = some n)
      (nonneg : 0 ≤ n) : Form e (.suffixed stem n)
  | fresh {stem : String} (tag : e.tag = "Fresh_Id") (value : e.attr? "ref" = some stem) :
      Form e (.fresh stem)

theorem VarName.read_eq_ok {e : Element} {name : VarName} :
    VarName.read e = .ok name ↔ VarName.Form e name := by
  constructor
  · intro h
    unfold VarName.read at h
    split at h
    · rename_i htag
      obtain ⟨stem, hstem, h⟩ := bind_eq_ok.1 h
      have hvalue := Element.needAttr_eq_ok.1 hstem
      split at h
      · rename_i hnone
        rw [pure_eq_ok] at h
        subst h
        exact .plain htag hvalue (by simpa using hnone)
      · obtain ⟨n, hn, h⟩ := bind_eq_ok.1 h
        obtain ⟨v, hv, hint⟩ := Element.needInt_eq_ok.1 hn
        split at h
        · exact absurd h (Element.complain_ne_ok _ _ _)
        · rename_i hneg
          rw [pure_eq_ok] at h
          subst h
          exact .suffixed htag hvalue hv hint (by omega)
    · rename_i htag
      obtain ⟨stem, hstem, h⟩ := bind_eq_ok.1 h
      rw [pure_eq_ok] at h
      subst h
      exact .fresh htag (Element.needAttr_eq_ok.1 hstem)
    · exact absurd h (Element.complain_ne_ok _ _ _)
  · intro h
    unfold VarName.read
    cases h with
    | plain htag hvalue hsuffix =>
      simp [htag, Element.needAttr_eq_ok.2 hvalue, hsuffix]
    | suffixed htag hvalue hsuffix hint hn =>
      have hn' := Element.needInt_eq_ok.2 ⟨_, hsuffix, hint⟩
      simp [htag, Element.needAttr_eq_ok.2 hvalue, hsuffix, hn', Int.not_lt.2 hn]
    | fresh htag hvalue =>
      simp [htag, Element.needAttr_eq_ok.2 hvalue]

theorem TypedVar.read_eq_ok {t : Table} {e : Element} {v : TypedVar} :
    TypedVar.read t e = .ok v ↔ VarName.Form e v.name ∧ t.typeOf e = .ok v.ty := by
  unfold TypedVar.read
  simp only [bind_eq_ok, pure_eq_ok, VarName.read_eq_ok]
  constructor
  · rintro ⟨name, hname, ty, hty, rfl⟩
    exact ⟨hname, hty⟩
  · rintro ⟨hname, hty⟩
    exact ⟨_, hname, _, hty, rfl⟩

/-- What elements say about variables, one element for each of them. -/
def TypedVar.Listed (t : Table) (es : List Element) (vars : List TypedVar) : Prop :=
  List.Forall₂ (fun e (v : TypedVar) => VarName.Form e v.name ∧ t.typeOf e = .ok v.ty) es vars

theorem TypedVar.readAll_eq_ok {t : Table} {es : List Element} {vars : List TypedVar} :
    TypedVar.readAll t es = .ok vars ↔ TypedVar.Listed t es vars := by
  unfold TypedVar.readAll TypedVar.Listed
  simp only [mapM_eq_ok, TypedVar.read_eq_ok]

theorem TypedVar.readIn_eq_ok {t : Table} {e : Element} {tag : String} {vars : List TypedVar} :
    TypedVar.readIn t e tag = .ok vars ↔
      ∃ c, e.first? tag = some c ∧ TypedVar.Listed t c.children vars := by
  unfold TypedVar.readIn
  simp only [bind_eq_ok, Element.needChild_eq_ok, TypedVar.readAll_eq_ok]
  constructor
  · rintro ⟨c, hc, h⟩
    exact ⟨c.1, hc, h⟩
  · rintro ⟨c, hc, h⟩
    exact ⟨⟨c, Element.sizeOf_lt_of_first? hc⟩, hc, h⟩

/-! ## What can be written -/

/-- The names that a document can hold. -/
inductive VarName.WellFormed : VarName → Prop
  | plain (stem : String) : WellFormed (.plain stem)
  | suffixed (stem : String) {n : Nat} (pos : 0 < n) (le : n ≤ 9223372036854775807) :
      WellFormed ⟨.suffixed, stem, n⟩
  | fresh (stem : String) : WellFormed (.fresh stem)

/-- Tags that are not empty and have no comma can be written in a list. -/
def Info.WellFormed (info : Info) : Prop :=
  ∀ tag ∈ info.tags, Write.isTag tag = true

instance (info : Info) : Decidable info.WellFormed :=
  inferInstanceAs (Decidable (∀ tag ∈ info.tags, _))

def TypedVar.AllWellFormed (vars : List TypedVar) : Prop :=
  ∀ v ∈ vars, v.name.WellFormed

theorem VarName.Form.wellFormed {e : Element} {name : VarName} (h : VarName.Form e name) :
    name.WellFormed := by
  cases h with
  | plain => exact .plain _
  | @suffixed stem v n _ _ _ hint hn =>
    unfold VarName.suffixed
    split
    · exact .plain stem
    · obtain ⟨m, rfl⟩ := Int.eq_ofNat_of_zero_le hn
      have hle := Text.readInt?_le hint
      exact .suffixed stem (by omega) (by omega)
  | fresh => exact .fresh _

theorem TypedVar.Listed.wellFormed {t : Table} {es : List Element} {vars : List TypedVar}
    (h : TypedVar.Listed t es vars) : TypedVar.AllWellFormed vars := by
  unfold TypedVar.AllWellFormed
  induction h with
  | nil => simp
  | cons hv _ ih => simpa using ⟨hv.1.wellFormed, ih⟩

theorem TypedVar.Listed.types_subset {t : Table} {es : List Element} {vars : List TypedVar}
    (h : TypedVar.Listed t es vars) : vars.map (·.ty) ⊆ t.types := by
  induction h with
  | nil => simp
  | cons hv _ ih => simpa using ⟨Table.mem_of_typeOf hv.2, ih⟩

theorem Info.wellFormed_of_read {t : Table} {e : Element} {info : Info}
    (h : Info.read t e = .ok info) : info.WellFormed := by
  obtain ⟨-, htags⟩ := Info.read_eq_ok.1 h
  unfold Info.WellFormed
  rw [← htags]
  exact isTag_of_mem_readTags

/-! ## What is read back -/

namespace Write

theorem RefersTo.typeOf {t : Table} {ty : Ty} {a : Attr} (h : RefersTo t ty a) {tag : String}
    {own rest : List Attr} {cs : List Element} (hown : ∀ b ∈ own, b.name ≠ "typref") :
    t.typeOf (.node tag (own ++ a :: rest) cs) = .ok ty := by
  obtain ⟨n, rfl, hn, hat⟩ := h
  refine Table.typeOf_eq_ok.2 ⟨toString n, n, ?_, ?_, ?_⟩
  · rw [Element.attr?_append_right hown]
    rfl
  · rw [Text.trim_toString, Text.readInt?_toString hn]
  · simpa [Table.at?] using hat

/-- Attributes that say what an expression carries, after attributes of its own. -/
structure Carries (t : Table) (info : Info) (own attrs : List Attr) : Prop where
  read : ∀ tag cs, Info.read t (.node tag attrs cs) = .ok info
  attr? : ∀ {tag name : String} {cs : List Element}, name ≠ "typref" → name ≠ "tag" →
    (Element.node tag attrs cs).attr? name = (Element.node tag own cs).attr? name

theorem tagAttrs_eq {tags : List String} (h : ∀ tag ∈ tags, isTag tag = true) :
    tagAttrs tags = pure (if tags.isEmpty then [] else [⟨"tag", ",".intercalate tags⟩]) := by
  have hnone : tags.find? (!isTag ·) = none := by simpa [List.find?_eq_none] using h
  unfold tagAttrs
  rw [hnone]

theorem readTags_append_right {tag : String} {own rest : List Attr} {cs : List Element}
    (h : ∀ a ∈ own, a.name ≠ "tag") :
    readTags (.node tag (own ++ rest) cs) = readTags (.node tag rest cs) := by
  unfold readTags
  rw [Element.attr?_append_right h]

theorem readTags_joined {tags : List String} (h : ∀ tag ∈ tags, isTag tag = true) {tag : String}
    {cs : List Element} :
    readTags (.node tag (if tags.isEmpty then [] else [⟨"tag", ",".intercalate tags⟩]) cs) =
      tags := by
  unfold readTags
  cases tags with
  | nil => rfl
  | cons s ss =>
    have hcomma : ∀ u ∈ s :: ss, ',' ∉ u.toList := by
      intro u hu
      have := h u hu
      simp only [isTag, Bool.and_eq_true, Bool.not_eq_true'] at this
      simpa using this.2
    have hne : ∀ u ∈ s :: ss, u ≠ "" := by
      intro u hu
      have := h u hu
      simp only [isTag, Bool.and_eq_true] at this
      simpa using this.1
    have hattr : (Element.node tag [⟨"tag", ",".intercalate (s :: ss)⟩] cs).attr? "tag" =
        some (",".intercalate (s :: ss)) := rfl
    simp only [List.isEmpty_cons, Bool.false_eq_true, if_false, hattr]
    rw [Text.split_intercalate rfl (by simp) hcomma, List.filter_eq_self]
    simpa using hne

theorem infoAttrs_gives {info : Info} (h : info.WellFormed) {own : List Attr}
    (hown : ∀ a ∈ own, a.name ≠ "typref" ∧ a.name ≠ "tag") :
    (infoAttrs info own).Gives [info.ty] fun t attrs => Carries t info own attrs := by
  unfold infoAttrs
  rw [tagAttrs_eq h]
  refine (typeRef_gives info.ty).bind_pure ?_
  intro t a ha
  have hname : a.name = "typref" := by
    obtain ⟨n, rfl, -⟩ := ha
    rfl
  constructor
  · intro tag cs
    refine Info.read_eq_ok.2 ⟨ha.typeOf fun b hb => (hown b hb).1, ?_⟩
    rw [List.append_cons, readTags_append_right, readTags_joined h]
    intro b hb
    rcases List.mem_append.1 hb with hb | hb
    · exact (hown b hb).2
    · rw [List.mem_singleton.1 hb, hname]
      decide
  · intro tag name cs htypref htag
    refine Element.attr?_append_left ?_
    split <;> simp [hname, htypref.symm, htag.symm]

/-- Attributes that name a variable: under the given tag they are read as the name, also with
attributes for its type and tags after them. -/
structure Names (name : VarName) (tag : String) (attrs : List Attr) : Prop where
  read : ∀ e : Element, e.tag = tag →
    (∀ a, a ≠ "typref" → a ≠ "tag" → e.attr? a = (Element.node tag attrs e.children).attr? a) →
    VarName.Form e name
  own : ∀ a ∈ attrs, a.name ≠ "typref" ∧ a.name ≠ "tag"

theorem varAttrs_eq {name : VarName} (h : name.WellFormed) :
    ∃ tag attrs, varAttrs name = pure (tag, attrs) ∧ Names name tag attrs := by
  cases h with
  | plain stem =>
    refine ⟨_, _, rfl, ?_, by simp⟩
    intro e htag hattr
    exact .plain htag ((hattr "value" (by decide) (by decide)).trans rfl)
      ((hattr "suffix" (by decide) (by decide)).trans rfl)
  | suffixed stem hpos hle =>
    rename_i n
    refine ⟨_, _, rfl, ?_, by simp⟩
    intro e htag hattr
    have hread : Text.readInt? (Text.trim (toString n)) = some (n : Int) := by
      rw [Text.trim_toString, Text.readInt?_toString hle]
    have hname : (⟨.suffixed, stem, n⟩ : VarName) = .suffixed stem n := by
      unfold VarName.suffixed
      rw [if_neg (by omega)]
    rw [hname]
    exact .suffixed htag ((hattr "value" (by decide) (by decide)).trans rfl)
      ((hattr "suffix" (by decide) (by decide)).trans rfl) hread (Int.natCast_nonneg n)
  | fresh stem =>
    refine ⟨_, _, rfl, ?_, by simp⟩
    intro e htag hattr
    exact .fresh htag ((hattr "ref" (by decide) (by decide)).trans rfl)

theorem typedVar_gives {v : TypedVar} (h : v.name.WellFormed) :
    (typedVar v).Gives [v.ty] fun t e => VarName.Form e v.name ∧ t.typeOf e = .ok v.ty := by
  obtain ⟨tag, attrs, heq, hnames⟩ := varAttrs_eq h
  unfold typedVar
  simp only [heq, pure_bind]
  refine (typeRef_gives v.ty).bind_pure ?_
  intro t a ha
  refine ⟨hnames.read _ rfl ?_, ha.typeOf fun b hb => (hnames.own b hb).1⟩
  intro name htypref _
  obtain ⟨n, rfl, -⟩ := ha
  exact Element.attr?_append_left (by simpa using htypref.symm)

theorem typedVars_gives {tag : String} {vars : List TypedVar} (h : TypedVar.AllWellFormed vars) :
    (typedVars tag vars).Gives (vars.map (·.ty)) fun t e =>
      e.tag = tag ∧ TypedVar.Listed t e.children vars := by
  have hall := Gives.all (g := id) (P := fun t e (v : TypedVar) =>
    VarName.Form e v.name ∧ t.typeOf e = .ok v.ty) fun v hv => typedVar_gives (h v hv)
  rw [List.map_eq_flatMap]
  unfold typedVars
  refine hall.bind_pure ?_
  intro t es hes
  rw [List.map_id] at hes
  exact ⟨rfl, hes⟩

theorem leaf_gives {info : Info} (h : info.WellFormed) {tag : String} {own : List Attr}
    (hown : ∀ a ∈ own, a.name ≠ "typref" ∧ a.name ≠ "tag") :
    (leaf tag info own).Gives [info.ty] fun t e => ∃ attrs, e = .node tag attrs [] ∧
      Carries t info own attrs :=
  (infoAttrs_gives h hown).bind_pure fun _ attrs ha => ⟨attrs, rfl, ha⟩

end Write

end BMethod
