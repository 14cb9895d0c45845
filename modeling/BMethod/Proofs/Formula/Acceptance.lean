import Mathlib
import BMethod.Proofs.Formula.Connective
import BMethod.Proofs.Formula.Numbering
import BMethod.Proofs.Operator
import BMethod.Proofs.Ty.Label

/-!
# When readers accept what is written

A reader accepts an element when it does not complain. Whether it accepts what an action wrote
depends on the tree that was written and not on the pool, as long as the numbers of types fit a
word.
-/

namespace BMethod

/-! ## Acceptance in steps -/

def Accepted {α : Type} (r : Except Fault α) : Prop :=
  ∃ a, r = .ok a

section
variable {α β : Type} {r : Except Fault α} {P Q : Prop}

theorem accepted_pure (a : α) : Accepted (pure a : Except Fault α) :=
  ⟨a, rfl⟩

theorem not_accepted_complain (e : Element) (c : Complaint) :
    ¬ Accepted (e.complain c : Except Fault α) :=
  fun ⟨a, ha⟩ => Element.complain_ne_ok e c a ha

theorem not_accepted_lacks (e : Element) (child : String) :
    ¬ Accepted (e.lacks child : Except Fault α) :=
  fun ⟨a, ha⟩ => Element.lacks_ne_ok e child a ha

theorem accepted_bind {f : α → Except Fault β} (hr : Accepted r ↔ P)
    (hf : ∀ a, r = .ok a → (Accepted (f a) ↔ Q)) : Accepted (r >>= f) ↔ P ∧ Q := by
  rw [← hr]
  unfold Accepted at hf ⊢
  simp only [bind_eq_ok]
  constructor
  · rintro ⟨b, a, ha, hb⟩
    exact ⟨⟨a, ha⟩, (hf a ha).1 ⟨b, hb⟩⟩
  · rintro ⟨⟨a, ha⟩, hQ⟩
    obtain ⟨b, hb⟩ := (hf a ha).2 hQ
    exact ⟨b, a, ha, hb⟩

theorem accepted_bind_pure {f : α → β} (hr : Accepted r ↔ P) :
    Accepted (r >>= fun a => pure (f a)) ↔ P := by
  rw [accepted_bind hr fun a _ => iff_true_intro (accepted_pure (f a)), and_true]

theorem accepted_map {f : α → β} : Accepted (f <$> r) ↔ Accepted r := by
  unfold Accepted
  simp only [map_eq_ok]
  constructor
  · rintro ⟨b, a, ha, -⟩
    exact ⟨a, ha⟩
  · rintro ⟨a, ha⟩
    exact ⟨f a, a, ha, rfl⟩

theorem accepted_mapM {γ : Type} {as : List α} {cs : List γ} {f : α → Except Fault β}
    {L : γ → Prop} (h : List.Forall₂ (fun a c => Accepted (f a) ↔ L c) as cs) :
    Accepted (as.mapM f) ↔ ∀ c ∈ cs, L c := by
  induction h with
  | nil => simpa using accepted_pure []
  | cons hac _ ih =>
    rw [List.mapM_cons, List.forall_mem_cons]
    exact accepted_bind hac fun _ _ => accepted_bind_pure ih

theorem accepted_mapError {f : Fault → Fault} : Accepted (r.mapError f) ↔ Accepted r := by
  cases r with
  | error e => exact iff_of_false nofun nofun
  | ok a => exact iff_of_true ⟨a, rfl⟩ ⟨a, rfl⟩

theorem accepted_checkLabels {e : Element} {labels : List String} :
    Accepted (Ty.checkLabels e labels) ↔ labels.Nodup := by
  unfold Accepted
  simp only [Ty.checkLabels_eq_ok]
  exact ⟨fun ⟨_, h⟩ => h, fun h => ⟨(), h⟩⟩

end

namespace Element

variable {tag : String} {attrs : List Attr} {a b c : Element} {cs : List Element}

theorem needOne_node : (node tag attrs (a :: cs)).needOne =
    .ok ⟨a, sizeOf_lt_of_getElem? (i := 0) rfl⟩ :=
  needOne_of rfl

theorem needTwo_node : (node tag attrs (a :: b :: cs)).needTwo =
    .ok (⟨a, sizeOf_lt_of_getElem? (i := 0) rfl⟩, ⟨b, sizeOf_lt_of_getElem? (i := 1) rfl⟩) :=
  needTwo_of rfl rfl

theorem needThree_node : (node tag attrs (a :: b :: c :: cs)).needThree =
    .ok (⟨a, sizeOf_lt_of_getElem? (i := 0) rfl⟩, ⟨b, sizeOf_lt_of_getElem? (i := 1) rfl⟩,
      ⟨c, sizeOf_lt_of_getElem? (i := 2) rfl⟩) :=
  needThree_of rfl rfl rfl

theorem needFirst_node : (node tag attrs (a :: cs)).needChild "" =
    .ok ⟨a, sizeOf_lt_of_first? first?_any⟩ :=
  needChild_of first?_any

end Element

/-! ## Connectives -/

namespace Connective

variable {t : Table} {a b v : Element} {cs : List Element}

theorem read?_implies : read? t (.node "Binary_Pred" [⟨"op", "=>"⟩] [a, b]) =
    .ok (some (.implies ⟨a, Element.sizeOf_lt_of_getElem? (i := 0) rfl⟩
      ⟨b, Element.sizeOf_lt_of_getElem? (i := 1) rfl⟩)) :=
  rfl

theorem read?_equiv : read? t (.node "Binary_Pred" [⟨"op", "<=>"⟩] [a, b]) =
    .ok (some (.equiv ⟨a, Element.sizeOf_lt_of_getElem? (i := 0) rfl⟩
      ⟨b, Element.sizeOf_lt_of_getElem? (i := 1) rfl⟩)) :=
  rfl

theorem read?_not : read? t (.node "Unary_Pred" [⟨"op", "not"⟩] [a]) =
    .ok (some (.not ⟨a, Element.sizeOf_lt_of_getElem? (i := 0) rfl⟩)) :=
  rfl

theorem read?_and : read? t (.node "Nary_Pred" [⟨"op", "&"⟩] cs) = .ok (some .and) :=
  rfl

theorem read?_or : read? t (.node "Nary_Pred" [⟨"op", "or"⟩] cs) = .ok (some .or) :=
  rfl

theorem read?_compare {s : String} {op : Comparison} {negated : Bool}
    (h : Comparison.ofSymbol? s = some (op, negated)) :
    read? t (.node "Exp_Comparison" [⟨"op", s⟩] [a, b]) =
      .ok (some (.compare op negated ⟨a, Element.sizeOf_lt_of_getElem? (i := 0) rfl⟩
        ⟨b, Element.sizeOf_lt_of_getElem? (i := 1) rfl⟩)) := by
  have hattr : (Element.node "Exp_Comparison" [⟨"op", s⟩] [a, b]).needAttr "op" = .ok s := rfl
  unfold read? readComparison
  simp only [Element.tag_node, hattr, ok_bind, h, Element.needTwo_node]
  rfl

theorem not_accepted_compare {s : String} (h : Comparison.ofSymbol? s = none) :
    ¬ Accepted (read? t (.node "Exp_Comparison" [⟨"op", s⟩] [a, b])) := by
  have hattr : (Element.node "Exp_Comparison" [⟨"op", s⟩] [a, b]).needAttr "op" = .ok s := rfl
  unfold read? readComparison
  simp only [Element.tag_node, hattr, ok_bind, h, accepted_map]
  exact not_accepted_complain _ _

section
variable (hv : v.tag = "Variables")
include hv

theorem inner?_body {attrs : List Attr} :
    (Element.node "Quantified_Pred" attrs [v, .wrap "Body" [b]]).inner? "Body" = some b := by
  simp [Element.inner?_cons, Element.inner?_skip, hv]

theorem read?_forAll : read? t (.node "Quantified_Pred" [⟨"type", "!"⟩] [v, .wrap "Body" [b]]) =
    (fun vars => some (.forAll vars ⟨b, Element.sizeOf_lt_of_inner? (inner?_body hv)⟩)) <$>
      TypedVar.readAll t v.children := by
  have hkind : (Element.node "Quantified_Pred" [⟨"type", "!"⟩] [v, .wrap "Body" [b]]).needAttr
      "type" = .ok "!" := rfl
  unfold read? readQuantified TypedVar.readIn
  simp only [Element.tag_node, hkind, ok_bind, if_true,
    Element.needChild_of (Element.first?_cons hv), Element.needInner_of (inner?_body hv),
    map_eq_pure_bind, bind_assoc, pure_bind]

theorem read?_forSome : read? t (.node "Quantified_Pred" [⟨"type", "#"⟩] [v, .wrap "Body" [b]]) =
    (fun vars => some (.forSome vars ⟨b, Element.sizeOf_lt_of_inner? (inner?_body hv)⟩)) <$>
      TypedVar.readAll t v.children := by
  have hkind : (Element.node "Quantified_Pred" [⟨"type", "#"⟩] [v, .wrap "Body" [b]]).needAttr
      "type" = .ok "#" := rfl
  have hother : "#" ≠ "!" := by decide
  unfold read? readQuantified TypedVar.readIn
  simp only [Element.tag_node, hkind, ok_bind, if_neg hother, if_true,
    Element.needChild_of (Element.first?_cons hv), Element.needInner_of (inner?_body hv),
    map_eq_pure_bind, bind_assoc, pure_bind]

end

end Connective

/-! ## Names that are read -/

/-- A name whose suffix, if it has one, is not negative and fits a word. -/
def VarName.Legible (v : VarName) : Prop :=
  v.kind = .suffixed → 0 ≤ v.suffix ∧ v.suffix ≤ 9223372036854775807

def TypedVar.AllLegible (vars : List TypedVar) : Prop :=
  ∀ v ∈ vars, v.name.Legible

namespace Write

variable {α β γ : Type}

/-- What an action gives on every pool, it gives when it succeeds. -/
theorem Gives.numbers {w : Write α} {ts : List Ty} {P : Table → α → Prop} (h : w.Gives ts P) :
    w.Numbers ts fun types a => types.length ≤ 9223372036854775808 → P ⟨types⟩ a := by
  intro p q a hp hon
  obtain ⟨b, hb, -, hP⟩ := h p hp
  obtain ⟨⟨rfl⟩, rfl⟩ := Prod.mk.inj (hb.symm.trans hon)
  refine ⟨rfl, fun types hle hsize => hP ?_ ⟨types⟩ hle⟩
  exact Nat.le_trans hle.length_le hsize

theorem Numbers.all {l : List γ} {f : γ → Write β} {ts : γ → List Ty} {P : List Ty → β → γ → Prop}
    (h : ∀ c ∈ l, (f c).Numbers (ts c) fun types b => P types b c) :
    (Write.all (l.map f)).Numbers (l.flatMap ts) fun types bs => List.Forall₂ (P types) bs l := by
  induction l with
  | nil => exact .pure fun types => .nil
  | cons c l ih =>
    have hc := h c List.mem_cons_self
    have hl := ih fun d hd => h d (List.mem_cons_of_mem _ hd)
    refine hc.bind fun b => hl.bind_pure ?_
    intro types bs hbs hb
    exact .cons hb hbs

theorem throw_bind_numbers (r : Refusal) (f : α → Write β) {ts : List Ty}
    {P : List Ty → β → Prop} : ((throw r : Write α) >>= f).Numbers ts P := by
  intro p q b hp hon
  obtain ⟨a, _, hthrow, -⟩ := bind_on_eq_ok hon
  cases hthrow

theorem length_of_all {ws : List (Write α)} {p q : Pool} {as : List α}
    (h : (all ws).on p = (.ok as, q)) : as.length = ws.length := by
  induction ws generalizing p as with
  | nil =>
    cases h
    rfl
  | cons w ws ih =>
    obtain ⟨a, r, -, hrest⟩ := bind_on_eq_ok h
    obtain ⟨as, r', has, hpure⟩ := bind_on_eq_ok hrest
    cases hpure
    rw [List.length_cons, List.length_cons, ih has]

theorem Numbers.withLength {ws : List (Write α)} {ts : List Ty} {P : List Ty → List α → Prop}
    (h : (Write.all ws).Numbers ts P) :
    (Write.all ws).Numbers ts fun types as => as.length = ws.length ∧ P types as := by
  intro p q as hp hon
  obtain ⟨hq, hP⟩ := h hp hon
  exact ⟨hq, fun types hle => ⟨length_of_all hon, hP types hle⟩⟩

/-- When the action succeeds, a reader accepts the written element exactly if `L` holds, with every
table that begins with the types of the pool afterwards and whose numbers fit a word. -/
def Admitted (w : Write Element) (ts : List Ty) (read : Table → Element → Except Fault α)
    (L : Prop) : Prop :=
  w.Numbers ts fun types e => types.length ≤ 9223372036854775808 →
    (Accepted (read ⟨types⟩ e) ↔ L)

/-! ## Attributes -/

theorem infoAttrs_carries (info : Info) {own : List Attr}
    (hown : ∀ a ∈ own, a.name ≠ "typref" ∧ a.name ≠ "tag") :
    (infoAttrs info own).Numbers [info.ty] fun types attrs =>
      types.length ≤ 9223372036854775808 → Carries ⟨types⟩ info own attrs := by
  by_cases hinfo : info.WellFormed
  · exact (infoAttrs_gives hinfo hown).numbers
  · -- A tag is refused after the type was met.
    have hsome : ∃ tag, info.tags.find? (!isTag ·) = some tag := by
      rw [← Option.isSome_iff_exists, List.find?_isSome]
      unfold Info.WellFormed at hinfo
      simpa using hinfo
    obtain ⟨tag, htag⟩ := hsome
    unfold infoAttrs tagAttrs
    rw [htag]
    exact (typeRef_numbers info.ty).bind fun r => .throw _

/-- Attributes that were written for a name, under their tag, also with attributes for a type and
tags after them. -/
structure Spells (name : VarName) (tag : String) (attrs : List Attr) : Prop where
  own : ∀ a ∈ attrs, a.name ≠ "typref" ∧ a.name ≠ "tag"
  read : ∀ e : Element, e.tag = tag →
    (∀ a, a ≠ "typref" → a ≠ "tag" → e.attr? a = (Element.node tag attrs e.children).attr? a) →
    (Accepted (VarName.read e) ↔ name.Legible)
  kind : (tag = "Fresh_Id" ∧ name.Legible) ∨
    tag = "Id" ∧ attrs.find? (·.name = "value") = some ⟨"value", name.stem⟩

theorem varAttrs_spells (name : VarName) : (∃ r, varAttrs name = throw r) ∨
    ∃ tag attrs, varAttrs name = pure (tag, attrs) ∧ Spells name tag attrs := by
  unfold varAttrs
  split
  · rename_i hkind
    have hlegible : name.Legible := fun h => absurd (hkind.symm.trans h) (by decide)
    refine .inr ⟨_, _, rfl, by simp, fun e htag hattr => ?_, .inr ⟨rfl, rfl⟩⟩
    refine iff_of_true ⟨.plain name.stem, VarName.read_eq_ok.2 ?_⟩ hlegible
    exact .plain htag ((hattr "value" (by decide) (by decide)).trans rfl)
      ((hattr "suffix" (by decide) (by decide)).trans rfl)
  · rename_i hkind
    refine .inr ⟨_, _, rfl, by simp, fun e htag hattr => ?_, .inr ⟨rfl, rfl⟩⟩
    have hvalue : e.attr? "value" = some name.stem :=
      (hattr "value" (by decide) (by decide)).trans rfl
    have hsuffix : e.attr? "suffix" = some (toString name.suffix) :=
      (hattr "suffix" (by decide) (by decide)).trans rfl
    have hint : Text.readInt? (Text.trim (toString name.suffix)) =
        if Text.inWord name.suffix then some name.suffix else none := by
      rw [Text.trim_toString_int, Text.readInt?_toString_eq]
    constructor
    · rintro ⟨other, hread⟩ _
      cases VarName.read_eq_ok.1 hread with
      | plain _ _ hnone => exact absurd (hsuffix.symm.trans hnone) nofun
      | suffixed _ _ hv hn hnonneg =>
        obtain rfl := Option.some.inj (hsuffix.symm.trans hv)
        have hle := Text.readInt?_le hn
        rw [hint, Option.ite_none_right_eq_some, Option.some.injEq] at hn
        obtain ⟨-, rfl⟩ := hn
        exact ⟨hnonneg, hle⟩
      | fresh htag' => exact absurd (htag.symm.trans htag') (by simp)
    · intro hlegible
      obtain ⟨hnonneg, hle⟩ := hlegible hkind
      have hword : Text.inWord name.suffix = true := by
        unfold Text.inWord
        simp only [Bool.and_eq_true, decide_eq_true_eq]
        omega
      refine ⟨_, VarName.read_eq_ok.2 (.suffixed htag hvalue hsuffix ?_ hnonneg)⟩
      rw [hint, if_pos hword]
  · rename_i hkind
    have hlegible : name.Legible := fun h => absurd (hkind.symm.trans h) (by decide)
    refine .inr ⟨_, _, rfl, by simp, fun e htag hattr => ?_, .inl ⟨rfl, hlegible⟩⟩
    refine iff_of_true ⟨.fresh name.stem, VarName.read_eq_ok.2 ?_⟩ hlegible
    exact .fresh htag ((hattr "ref" (by decide) (by decide)).trans rfl)
  · exact .inl ⟨_, rfl⟩

/-! ## Variables -/

theorem typedVar_admitted (v : TypedVar) :
    (typedVar v).Admitted [v.ty] TypedVar.read v.name.Legible := by
  unfold typedVar
  rcases varAttrs_spells v.name with ⟨r, hthrow⟩ | ⟨tag, attrs, hpure, hname⟩
  · rw [hthrow]
    exact throw_bind_numbers r _
  simp only [hpure, pure_bind]
  refine (typeRef_gives v.ty).numbers.bind_pure ?_
  intro types a ha hsize
  obtain ⟨n, rfl, -⟩ := id (ha hsize)
  have hty : Table.typeOf ⟨types⟩ (.node tag (attrs ++ [⟨"typref", toString n⟩]) []) = .ok v.ty :=
    (ha hsize).typeOf fun b hb => (hname.own b hb).1
  unfold TypedVar.read
  rw [hty]
  refine accepted_bind_pure (hname.read _ rfl fun name htypref _ => ?_)
  exact Element.attr?_append_left (by simpa using htypref.symm)

theorem typedVars_admitted (tag : String) (vars : List TypedVar) :
    (typedVars tag vars).Numbers (vars.map (·.ty)) fun types e => e.tag = tag ∧
      e.children.length = vars.length ∧ (types.length ≤ 9223372036854775808 →
        (Accepted (TypedVar.readAll ⟨types⟩ e.children) ↔ TypedVar.AllLegible vars)) := by
  have hvars := Numbers.all (P := fun types e (v : TypedVar) =>
    types.length ≤ 9223372036854775808 →
      (Accepted (TypedVar.read ⟨types⟩ e) ↔ v.name.Legible)) fun v (_ : v ∈ vars) =>
        typedVar_admitted v
  rw [← List.map_eq_flatMap] at hvars
  refine hvars.bind_pure ?_
  intro types es hes
  exact ⟨rfl, hes.length_eq, fun hsize => accepted_mapM (hes.imp fun _ _ he => he hsize)⟩

end Write

end BMethod
