import Mathlib
import BMethod.Obligation.Read
import BMethod.Obligation.Write
import BMethod.Proofs.Formula.Typing

/-!
# References to types in set declarations

The declaration of a set is an element of any shape. It is determined by its references to types, in
document order, and by what it is without them. Reading puts places for the references and writing
puts numbers of the pool; neither changes anything else.
-/

namespace BMethod

/-! ## References among attributes -/

def typeRef? (attrs : List Attr) : Option String :=
  (attrs.find? (·.name = "typref")).map (·.value)

/-- Attributes with an empty reference in place of the one they have. -/
def dropRef (attrs : List Attr) : List Attr :=
  if (typeRef? attrs).isSome then setAttr "typref" "" attrs else attrs

section
variable {attrs attrs' : List Attr} {v w : String}

theorem typeRef?_setAttr (v : String) (attrs : List Attr) :
    typeRef? (setAttr "typref" v attrs) = some v := by
  unfold typeRef?
  induction attrs with
  | nil => simp [setAttr]
  | cons a as ih =>
    rw [setAttr]
    split
    · simp
    · rename_i ha
      rw [List.find?_cons_of_neg (by simpa using ha), ih]

theorem setAttr_setAttr (name v w : String) (attrs : List Attr) :
    setAttr name v (setAttr name w attrs) = setAttr name v attrs := by
  induction attrs with
  | nil => simp [setAttr]
  | cons a as ih =>
    by_cases ha : a.name = name
    · simp [setAttr, ha]
    · simp [setAttr, ha, ih]

theorem setAttr_of_typeRef? (h : typeRef? attrs = some v) : setAttr "typref" v attrs = attrs := by
  unfold typeRef? at h
  induction attrs with
  | nil => simp at h
  | cons a as ih =>
    rw [setAttr]
    split
    · rename_i ha
      rw [List.find?_cons_of_pos (by simpa using ha), Option.map_some, Option.some.injEq] at h
      rw [← h, ← ha]
    · rename_i ha
      rw [List.find?_cons_of_neg (by simpa using ha)] at h
      rw [ih h]

theorem dropRef_of_none (h : typeRef? attrs = none) : dropRef attrs = attrs := by
  simp [dropRef, h]

theorem dropRef_of_some (h : typeRef? attrs = some v) :
    dropRef attrs = setAttr "typref" "" attrs := by
  simp [dropRef, h]

theorem dropRef_setAttr (h : typeRef? attrs = some v) :
    dropRef (setAttr "typref" w attrs) = dropRef attrs := by
  rw [dropRef_of_some h, dropRef_of_some (typeRef?_setAttr w attrs), setAttr_setAttr]

theorem length_typeRef?_dropRef (attrs : List Attr) :
    (typeRef? (dropRef attrs)).toList.length = (typeRef? attrs).toList.length := by
  cases h : typeRef? attrs with
  | none => rw [dropRef_of_none h, h]
  | some v => rw [dropRef_of_some h, typeRef?_setAttr, Option.toList_some, Option.toList_some,
      List.length_singleton, List.length_singleton]

theorem attrs_ext (hdrop : dropRef attrs = dropRef attrs')
    (href : typeRef? attrs = typeRef? attrs') : attrs = attrs' := by
  cases h : typeRef? attrs with
  | none =>
    rwa [dropRef_of_none h, dropRef_of_none (href.symm.trans h)] at hdrop
  | some v =>
    have h' := href.symm.trans h
    rw [dropRef_of_some h, dropRef_of_some h'] at hdrop
    calc
      attrs = setAttr "typref" v attrs := (setAttr_of_typeRef? h).symm
      _ = setAttr "typref" v (setAttr "typref" "" attrs) := (setAttr_setAttr ..).symm
      _ = setAttr "typref" v (setAttr "typref" "" attrs') := by rw [hdrop]
      _ = setAttr "typref" v attrs' := setAttr_setAttr ..
      _ = attrs' := setAttr_of_typeRef? h'

end

/-! ## References in an element -/

namespace Element

mutual
/-- The references to types in an element and below it, in document order. -/
def refs : Element → List String
  | ⟨_, attrs, _, _, children⟩ => (typeRef? attrs).toList ++ refsAll children

/-- The references to types in elements and below them, in document order. -/
def refsAll : List Element → List String
  | [] => []
  | e :: es => e.refs ++ refsAll es
end

mutual
/-- The element without what its references say. -/
def untyped : Element → Element
  | ⟨tag, attrs, text, line, children⟩ => ⟨tag, dropRef attrs, text, line, untypedAll children⟩

def untypedAll : List Element → List Element
  | [] => []
  | e :: es => e.untyped :: untypedAll es
end

theorem tag_untyped (e : Element) : e.untyped.tag = e.tag := by
  cases e
  rw [untyped]

theorem refs_of_none {tag text : String} {attrs : List Attr} {line : Int} {cs : List Element}
    (h : typeRef? attrs = none) : refs ⟨tag, attrs, text, line, cs⟩ = refsAll cs := by
  rw [refs, h, Option.toList_none, List.nil_append]

theorem refs_of_some {tag text v : String} {attrs : List Attr} {line : Int} {cs : List Element}
    (h : typeRef? attrs = some v) : refs ⟨tag, attrs, text, line, cs⟩ = v :: refsAll cs := by
  rw [refs, h, Option.toList_some, List.singleton_append]

mutual
theorem length_refs_untyped (e : Element) : e.untyped.refs.length = e.refs.length := by
  cases e with
  | mk tag attrs text line children =>
    rw [untyped, refs, refs, List.length_append, List.length_append, length_typeRef?_dropRef,
      length_refsAll_untypedAll children]

theorem length_refsAll_untypedAll (es : List Element) :
    (refsAll (untypedAll es)).length = (refsAll es).length := by
  cases es with
  | nil => rfl
  | cons e es =>
    rw [untypedAll, refsAll, refsAll, List.length_append, List.length_append,
      length_refs_untyped e, length_refsAll_untypedAll es]
end

mutual
/-- An element is determined by its references and by what it is without them. -/
theorem ext_untyped {e e' : Element} (huntyped : e.untyped = e'.untyped)
    (hrefs : e.refs = e'.refs) : e = e' := by
  cases e with
  | mk tag attrs text line children =>
    cases e' with
    | mk tag' attrs' text' line' children' =>
      rw [untyped, untyped, mk.injEq] at huntyped
      obtain ⟨rfl, hattrs, rfl, rfl, hchildren⟩ := huntyped
      -- Without its value a reference still stands there, so both lists split at the same place.
      have hlength : (typeRef? attrs).toList.length = (typeRef? attrs').toList.length := by
        rw [← length_typeRef?_dropRef, hattrs, length_typeRef?_dropRef]
      rw [refs, refs] at hrefs
      obtain ⟨hown, hrest⟩ := List.append_inj hrefs hlength
      have href : typeRef? attrs = typeRef? attrs' := by simpa using congrArg List.head? hown
      rw [attrs_ext hattrs href, ext_untypedAll hchildren hrest]

theorem ext_untypedAll {es es' : List Element} (huntyped : untypedAll es = untypedAll es')
    (hrefs : refsAll es = refsAll es') : es = es' := by
  cases es with
  | nil =>
    cases es' with
    | nil => rfl
    | cons => simp [untypedAll] at huntyped
  | cons e es =>
    cases es' with
    | nil => simp [untypedAll] at huntyped
    | cons e' es' =>
      rw [untypedAll, untypedAll, List.cons.injEq] at huntyped
      have hlength : e.refs.length = e'.refs.length := by
        rw [← length_refs_untyped, huntyped.1, length_refs_untyped]
      rw [refsAll, refsAll] at hrefs
      obtain ⟨hown, hrest⟩ := List.append_inj hrefs hlength
      rw [ext_untyped huntyped.1 hown, ext_untypedAll huntyped.2 hrest]
end

section
variable {m : Type → Type} [Monad m] [LawfulMonad m] {tag text v : String} {attrs : List Attr}
  {line : Int} {cs : List Element}

theorem mapRefs_of_none (f : Element → m String) (h : typeRef? attrs = none) :
    mapRefs f ⟨tag, attrs, text, line, cs⟩ = (do
      let cs ← mapRefsAll f cs
      pure ⟨tag, attrs, text, line, cs⟩) := by
  have hnone : attr? ⟨tag, attrs, text, line, []⟩ "typref" = none := h
  rw [mapRefs]
  simp [hnone]

theorem mapRefs_of_some (f : Element → m String) (h : typeRef? attrs = some v) :
    mapRefs f ⟨tag, attrs, text, line, cs⟩ = (do
      let w ← f ⟨tag, attrs, text, line, []⟩
      let cs ← mapRefsAll f cs
      pure ⟨tag, setAttr "typref" w attrs, text, line, cs⟩) := by
  have hsome : attr? ⟨tag, attrs, text, line, []⟩ "typref" = some v := h
  rw [mapRefs]
  simp [hsome]

end

end Element

/-! ## Writing references -/

def Table.Resolves (t : Table) (v : String) (ty : Ty) : Prop :=
  ∃ ref, Text.readInt? (Text.trim v) = some ref ∧ t.at? ref = some ty

namespace Obligations

/-- A reference is a place in the types of a set declaration. -/
def Places (s : SetDeclaration) (v : String) (ty : Ty) : Prop :=
  (Text.readInt? v).bind (Table.mk s.types).at? = some ty

theorem placeType_gives {s : SetDeclaration} {tag text v : String} {attrs : List Attr} {line : Int}
    {ty : Ty} (hv : typeRef? attrs = some v) (hplace : Places s v ty) :
    (placeType s ⟨tag, attrs, text, line, []⟩).Gives [ty] fun t w => t.Resolves w ty := by
  have hattr : Element.attr? ⟨tag, attrs, text, line, []⟩ "typref" = some v := hv
  unfold placeType
  unfold Places at hplace
  simp only [hattr, Option.getD_some, hplace]
  refine (Write.ref_gives ty).bind_pure ?_
  rintro t n ⟨hn, hat⟩
  refine ⟨n, ?_, ?_⟩
  · rw [Text.trim_toString, Text.readInt?_toString hn]
  · simpa [Table.at?] using hat

mutual
theorem mapRefs_gives {s : SetDeclaration} (e : Element) {ts : List Ty}
    (h : List.Forall₂ (Places s) e.refs ts) :
    (e.mapRefs (placeType s)).Gives ts fun t e' =>
      e'.untyped = e.untyped ∧ List.Forall₂ t.Resolves e'.refs ts := by
  cases e with
  | mk tag attrs text line children =>
    cases hv : typeRef? attrs with
    | none =>
      rw [Element.refs_of_none hv] at h
      rw [Element.mapRefs_of_none _ hv]
      refine (mapRefsAll_gives children h).bind_pure ?_
      rintro t cs ⟨huntyped, hrefs⟩
      rw [Element.untyped, Element.untyped, huntyped, Element.refs_of_none hv]
      exact ⟨rfl, hrefs⟩
    | some v =>
      rw [Element.refs_of_some hv] at h
      rw [Element.mapRefs_of_some _ hv]
      cases h with
      | cons hplace hrest =>
        refine (placeType_gives hv hplace).bind fun w => ?_
        refine (mapRefsAll_gives children hrest).bind_pure ?_
        rintro t cs ⟨huntyped, hrefs⟩ hw
        rw [Element.untyped, Element.untyped, huntyped, dropRef_setAttr hv,
          Element.refs_of_some (typeRef?_setAttr w attrs)]
        exact ⟨rfl, .cons hw hrefs⟩

theorem mapRefsAll_gives {s : SetDeclaration} (es : List Element) {ts : List Ty}
    (h : List.Forall₂ (Places s) (Element.refsAll es) ts) :
    (Element.mapRefsAll (placeType s) es).Gives ts fun t es' =>
      Element.untypedAll es' = Element.untypedAll es ∧
        List.Forall₂ t.Resolves (Element.refsAll es') ts := by
  cases es with
  | nil =>
    cases h
    exact .pure fun t => ⟨rfl, .nil⟩
  | cons e es =>
    rw [Element.mapRefsAll]
    -- The first element takes as many types as it has references, the others take the rest.
    obtain ⟨us, vs, hus, hvs, rfl⟩ := exists_append_of_forall₂ h
    refine (mapRefs_gives e hus).bind fun e' => ?_
    refine (mapRefsAll_gives es hvs).bind_pure ?_
    rintro t es' ⟨huntyped', hrefs'⟩ ⟨huntyped, hrefs⟩
    rw [Element.untypedAll, Element.untypedAll, huntyped, huntyped', Element.refsAll]
    exact ⟨rfl, List.rel_append hrefs hrefs'⟩
end

/-! ## Reading references -/

theorem typeOf_eq_ok_iff_resolves {t : Table} {tag text v : String} {attrs : List Attr}
    {line : Int} {ty : Ty} (hv : typeRef? attrs = some v) :
    t.typeOf ⟨tag, attrs, text, line, []⟩ = .ok ty ↔ t.Resolves v ty := by
  have hattr : Element.attr? ⟨tag, attrs, text, line, []⟩ "typref" = some v := hv
  rw [Table.typeOf_eq_ok, hattr]
  constructor
  · rintro ⟨w, ref, hw, href, hty⟩
    cases hw
    exact ⟨ref, href, hty⟩
  · rintro ⟨ref, href, hty⟩
    exact ⟨v, ref, rfl, href, hty⟩

theorem collectType_run {t : Table} {tag text v w : String} {attrs : List Attr} {line : Int}
    {us vs : List Ty} (hv : typeRef? attrs = some v) :
    (collectType t ⟨tag, attrs, text, line, []⟩).run us = .ok (w, vs) ↔
      ∃ ty, t.Resolves v ty ∧ toString us.length = w ∧ us ++ [ty] = vs := by
  have hrun : (collectType t ⟨tag, attrs, text, line, []⟩).run us = (do
      let ty ← t.typeOf ⟨tag, attrs, text, line, []⟩
      pure (toString us.length, us ++ [ty])) := by
    simp [collectType]
  simp only [hrun, bind_eq_ok, pure_eq_ok, Prod.mk.injEq, typeOf_eq_ok_iff_resolves hv]

mutual
/-- The types that were collected before only shift the places. -/
theorem of_mapRefs_run {t : Table} {e e' : Element} {us vs : List Ty}
    (h : (e.mapRefs (collectType t)).run us = .ok (e', vs)) :
    ∃ ts, vs = us ++ ts ∧ List.Forall₂ t.Resolves e.refs ts ∧ e'.untyped = e.untyped ∧
      e'.refs = (List.range' us.length ts.length).map toString := by
  cases e with
  | mk tag attrs text line children =>
    cases hv : typeRef? attrs with
    | none =>
      rw [Element.mapRefs_of_none _ hv] at h
      simp only [run_bind_eq_ok, run_pure_eq_ok] at h
      obtain ⟨cs, _, hcs, rfl, rfl⟩ := h
      obtain ⟨ts, rfl, hts, huntyped, hrefs⟩ := of_mapRefsAll_run hcs
      rw [Element.refs_of_none hv, Element.refs_of_none hv, Element.untyped, Element.untyped,
        huntyped]
      exact ⟨ts, rfl, hts, rfl, hrefs⟩
    | some v =>
      rw [Element.mapRefs_of_some _ hv] at h
      simp only [run_bind_eq_ok, run_pure_eq_ok, collectType_run hv] at h
      obtain ⟨_, _, ⟨ty, hty, rfl, rfl⟩, cs, _, hcs, rfl, rfl⟩ := h
      obtain ⟨ts, rfl, hts, huntyped, hrefs⟩ := of_mapRefsAll_run hcs
      rw [Element.refs_of_some hv, Element.refs_of_some (typeRef?_setAttr _ attrs),
        Element.untyped, Element.untyped, dropRef_setAttr hv, huntyped]
      refine ⟨ty :: ts, by simp, .cons hty hts, rfl, ?_⟩
      rw [hrefs, List.length_append, List.length_singleton, List.length_cons, List.range'_succ,
        List.map_cons]

theorem of_mapRefsAll_run {t : Table} {es es' : List Element} {us vs : List Ty}
    (h : (Element.mapRefsAll (collectType t) es).run us = .ok (es', vs)) :
    ∃ ts, vs = us ++ ts ∧ List.Forall₂ t.Resolves (Element.refsAll es) ts ∧
      Element.untypedAll es' = Element.untypedAll es ∧
      Element.refsAll es' = (List.range' us.length ts.length).map toString := by
  cases es with
  | nil =>
    obtain ⟨rfl, rfl⟩ := run_pure_eq_ok.1 h
    exact ⟨[], by simp, .nil, rfl, rfl⟩
  | cons e es =>
    rw [Element.mapRefsAll] at h
    simp only [run_bind_eq_ok, run_pure_eq_ok] at h
    obtain ⟨e', _, he, es', _, hes, rfl, rfl⟩ := h
    obtain ⟨ts, rfl, hts, huntyped, hrefs⟩ := of_mapRefs_run he
    obtain ⟨ts', rfl, hts', huntyped', hrefs'⟩ := of_mapRefsAll_run hes
    refine ⟨ts ++ ts', List.append_assoc .., List.rel_append hts hts', ?_, ?_⟩
    · rw [Element.untypedAll, Element.untypedAll, huntyped, huntyped']
    · rw [Element.refsAll, hrefs, hrefs', List.length_append, List.length_append,
        ← List.map_append, List.range'_append_1]
end

mutual
theorem exists_mapRefs_run {t : Table} {e : Element} {ts : List Ty} (us : List Ty)
    (h : List.Forall₂ t.Resolves e.refs ts) :
    ∃ e', (e.mapRefs (collectType t)).run us = .ok (e', us ++ ts) := by
  cases e with
  | mk tag attrs text line children =>
    cases hv : typeRef? attrs with
    | none =>
      rw [Element.refs_of_none hv] at h
      obtain ⟨cs, hcs⟩ := exists_mapRefsAll_run us h
      rw [Element.mapRefs_of_none _ hv]
      simp only [run_bind_eq_ok, run_pure_eq_ok]
      exact ⟨_, cs, _, hcs, rfl, rfl⟩
    | some v =>
      rw [Element.refs_of_some hv] at h
      cases h with
      | @cons _ ty _ ts hty hrest =>
        obtain ⟨cs, hcs⟩ := exists_mapRefsAll_run (us ++ [ty]) hrest
        rw [List.append_assoc, List.singleton_append] at hcs
        rw [Element.mapRefs_of_some _ hv]
        simp only [run_bind_eq_ok, run_pure_eq_ok, collectType_run hv]
        exact ⟨_, _, _, ⟨ty, hty, rfl, rfl⟩, cs, _, hcs, rfl, rfl⟩

theorem exists_mapRefsAll_run {t : Table} {es : List Element} {ts : List Ty} (us : List Ty)
    (h : List.Forall₂ t.Resolves (Element.refsAll es) ts) :
    ∃ es', (Element.mapRefsAll (collectType t) es).run us = .ok (es', us ++ ts) := by
  cases es with
  | nil =>
    cases h
    rw [List.append_nil]
    exact ⟨[], run_pure_eq_ok.2 ⟨rfl, rfl⟩⟩
  | cons e es =>
    obtain ⟨ts, ts', hts, hts', rfl⟩ := exists_append_of_forall₂ h
    obtain ⟨e', he⟩ := exists_mapRefs_run us hts
    obtain ⟨es', hes⟩ := exists_mapRefsAll_run (us ++ ts) hts'
    rw [List.append_assoc] at hes
    rw [Element.mapRefsAll]
    simp only [run_bind_eq_ok, run_pure_eq_ok]
    exact ⟨_, e', _, he, es', _, hes, rfl, rfl⟩
end

end Obligations

/-! ## Declarations of sets -/

namespace SetDeclaration

variable {t : Table} {e : Element} {s : SetDeclaration}

/-- What an element says about the declaration of a set: the types are those its references stand
for, the places of these are put for the references, and nothing else is changed. -/
structure Form (t : Table) (e : Element) (s : SetDeclaration) : Prop where
  tag : e.tag = "Set"
  untyped : s.elem.untyped = e.untyped
  refs : s.elem.refs = (List.range s.types.length).map toString
  types : List.Forall₂ t.Resolves e.refs s.types

/-- The declaration of a set whose references are the places of its types, in document order. -/
structure Canonical (s : SetDeclaration) : Prop where
  tag : s.elem.tag = "Set"
  refs : s.elem.refs = (List.range s.types.length).map toString

/-- Whether the places of the types fit a signed 64-bit word. -/
def Addressable (s : SetDeclaration) : Prop :=
  s.types.length ≤ 9223372036854775808

theorem readSet_eq_ok (htag : e.tag = "Set") :
    Obligations.readSet t e = .ok s ↔ Form t e s := by
  unfold Obligations.readSet
  simp only [bind_eq_ok, pure_eq_ok, Prod.exists]
  constructor
  · rintro ⟨e', vs, h, rfl⟩
    obtain ⟨ts, rfl, hts, huntyped, hrefs⟩ := Obligations.of_mapRefs_run h
    rw [List.length_nil, ← List.range_eq_range'] at hrefs
    exact ⟨htag, huntyped, hrefs, hts⟩
  · intro h
    obtain ⟨e', he⟩ := Obligations.exists_mapRefs_run [] h.types
    obtain ⟨ts, hts, -, huntyped, hrefs⟩ := Obligations.of_mapRefs_run he
    obtain rfl : s.types = ts := hts
    rw [List.length_nil, ← List.range_eq_range'] at hrefs
    -- The element that is read has no other references and no other rest than the declaration.
    have heq : e' = s.elem :=
      Element.ext_untyped (huntyped.trans h.untyped.symm) (hrefs.trans h.refs.symm)
    exact ⟨e', s.types, he, by rw [heq]⟩

theorem Form.canonical (h : Form t e s) : s.Canonical := by
  refine ⟨?_, h.refs⟩
  rw [← s.elem.tag_untyped, h.untyped, e.tag_untyped, h.tag]

theorem Form.types_subset (h : Form t e s) : s.types ⊆ t.types := by
  intro ty hty
  obtain ⟨v, -, ref, -, href⟩ := exists_of_forall₂_right h.types hty
  exact Table.at?_eq_some href

theorem Canonical.places (h : s.Canonical) (hsize : s.Addressable) :
    List.Forall₂ (Obligations.Places s) s.elem.refs s.types := by
  rw [h.refs, List.forall₂_map_left_iff, List.forall₂_iff_get]
  refine ⟨List.length_range, ?_⟩
  intro i _ hi
  unfold Addressable at hsize
  have hread : Text.readInt? (toString i) = some (i : Int) := Text.readInt?_toString (by omega)
  unfold Obligations.Places
  rw [List.get_eq_getElem, List.getElem_range, hread, Option.bind_some]
  simp [Table.at?]

theorem Canonical.write_gives (h : s.Canonical) (hsize : s.Addressable) :
    (Obligations.writeSet s).Gives s.types fun t e => Form t e s := by
  refine (Obligations.mapRefs_gives s.elem (h.places hsize)).mono ?_
  rintro t e ⟨huntyped, hrefs⟩
  refine ⟨?_, huntyped.symm, h.refs, hrefs⟩
  rw [← e.tag_untyped, huntyped, s.elem.tag_untyped, h.tag]

end SetDeclaration

end BMethod
