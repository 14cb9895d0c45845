import Mathlib
import BMethod.Proofs.Element.Clean
import BMethod.Proofs.Element.Printing
import BMethod.Proofs.Formula.Typing
import BMethod.Proofs.Operator

/-!
# What is written can stand in a document

Whatever an action that writes gives, on whatever pool, has a property when its steps lead to it.
For what was read from a document, the property is that its text can be read back.
-/

namespace BMethod

open Element (Clean Printable)
open Xml (Allowed Faithful PlainName)

namespace Write

variable {α β : Type}

/-- Every result of the action has the property. -/
def Yields (w : Write α) (P : α → Prop) : Prop :=
  ∀ p a q, w.on p = (.ok a, q) → P a

namespace Yields

variable {w : Write α} {P : α → Prop}

theorem pure {a : α} (h : P a) : (pure a : Write α).Yields P := by
  intro p b q hb
  cases hb
  exact h

theorem throw {r : Refusal} : (throw r : Write α).Yields P := by
  intro p a q ha
  cases ha

theorem bind {f : α → Write β} {Q : β → Prop} (hw : w.Yields P)
    (hf : ∀ a, P a → (f a).Yields Q) : (w >>= f).Yields Q := by
  intro p b q hb
  obtain ⟨a, r, ha, hb⟩ := bind_on_eq_ok hb
  exact hf a (hw p a r ha) r b q hb

theorem all {ws : List (Write α)} (h : ∀ w ∈ ws, w.Yields P) :
    (Write.all ws).Yields fun as => ∀ a ∈ as, P a := by
  induction ws with
  | nil => exact .pure (by simp)
  | cons w ws ih =>
    refine (h w List.mem_cons_self).bind ?_
    intro a ha
    refine (ih fun v hv => h v (List.mem_cons_of_mem _ hv)).bind ?_
    intro as has
    refine .pure ?_
    simpa using ⟨ha, has⟩

theorem all_map {γ : Type} {l : List γ} {f : γ → Write α} {P : α → γ → Prop}
    (h : ∀ c ∈ l, (f c).Yields fun a => P a c) :
    (Write.all (l.map f)).Yields fun as => List.Forall₂ P as l := by
  induction l with
  | nil => exact .pure .nil
  | cons c l ih =>
    refine (h c List.mem_cons_self).bind fun a ha => ?_
    refine (ih fun d hd => h d (List.mem_cons_of_mem _ hd)).bind fun as has => ?_
    exact .pure (.cons ha has)

end Yields

/-! ## Attributes -/

theorem typeRef_yields (ty : Ty) : (typeRef ty).Yields Faithful := by
  intro p a q ha
  cases ha
  exact .of (Xml.allowed_toString _) (by decide)

theorem allowed_intercalate {tags : List String} (h : ∀ tag ∈ tags, Allowed tag.toList) :
    Allowed (",".intercalate tags).toList := by
  rw [String.toList_intercalate]
  induction tags with
  | nil => simp [Allowed]
  | cons tag tags ih =>
    have ih := ih fun u hu => h u (List.mem_cons_of_mem _ hu)
    by_cases htags : tags = []
    · rw [htags, List.map_singleton, List.intercalate_singleton]
      exact h tag List.mem_cons_self
    · rw [List.map_cons, List.intercalate_cons_of_ne_nil (by simpa using htags)]
      intro c hc
      rcases List.mem_append.1 hc with hc | hc
      · rcases List.mem_append.1 hc with hc | hc
        · exact h tag List.mem_cons_self c hc
        · rw [List.mem_singleton.1 hc]
          decide
      · exact ih c hc

theorem allowed_of_mem_readTags {e : Element} (he : e.Clean) :
    ∀ tag ∈ readTags e, Allowed tag.toList := by
  intro tag htag
  unfold readTags at htag
  split at htag
  · rename_i v hv
    obtain ⟨hsplit, -⟩ := List.mem_filter.1 htag
    obtain ⟨part, hpart, rfl⟩ := List.mem_map.1 hsplit
    intro c hc
    rw [String.toList_ofList] at hc
    exact he.attr hv c ((Text.splitChars_spec ',' _ part hpart).2 hc)
  · cases htag

theorem infoAttrs_yields {t : Table} {e : Element} {info : Info} (he : e.Clean)
    (hinfo : Info.read t e = .ok info) {own : List Attr} (hown : ∀ a ∈ own, Faithful a) :
    (infoAttrs info own).Yields fun attrs => ∀ a ∈ attrs, Faithful a := by
  obtain ⟨-, htags⟩ := Info.read_eq_ok.1 hinfo
  unfold infoAttrs
  rw [tagAttrs_eq (Info.wellFormed_of_read hinfo)]
  refine (typeRef_yields info.ty).bind ?_
  intro r hr
  refine .pure ?_
  intro a ha
  rcases List.mem_append.1 ha with ha | ha
  · exact hown a ha
  · rcases List.mem_cons.1 ha with rfl | ha
    · exact hr
    · split at ha
      · cases ha
      · rw [List.mem_singleton.1 ha]
        refine .of (allowed_intercalate ?_) (by decide)
        rw [← htags]
        exact allowed_of_mem_readTags he

theorem leaf_yields {t : Table} {e : Element} {info : Info} (he : e.Clean)
    (hinfo : Info.read t e = .ok info) {tag : String} {own : List Attr}
    (hown : ∀ a ∈ own, Faithful a) (htag : PlainName tag) :
    (leaf tag info own).Yields Printable := by
  refine (infoAttrs_yields he hinfo hown).bind ?_
  intro attrs hattrs
  exact .pure (.node hattrs (by simp) htag)

/-! ## Variables -/

theorem varAttrs_yields {e : Element} {name : VarName} (he : e.Clean) (h : VarName.Form e name) :
    (varAttrs name).Yields fun r => PlainName r.1 ∧ ∀ a ∈ r.2, Faithful a := by
  have hid : PlainName "Id" := by decide
  have hfresh : PlainName "Fresh_Id" := by decide
  cases h with
  | plain _ value => exact .pure ⟨hid, Faithful.singleton (he.attr value) (by decide)⟩
  | @suffixed stem _ n _ value _ _ nonneg =>
    unfold VarName.suffixed
    split
    · exact .pure ⟨hid, Faithful.singleton (he.attr value) (by decide)⟩
    · obtain ⟨m, rfl⟩ := Int.eq_ofNat_of_zero_le nonneg
      have hvalue : Faithful ⟨"value", stem⟩ := .of (he.attr value) (by decide)
      have hsuffix : Faithful ⟨"suffix", toString (m : Int)⟩ :=
        .of (Xml.allowed_toString m) (by decide)
      exact .pure ⟨hid, by simpa using ⟨hvalue, hsuffix⟩⟩
  | fresh _ value => exact .pure ⟨hfresh, Faithful.singleton (he.attr value) (by decide)⟩

theorem typedVar_yields {e : Element} {v : TypedVar} (he : e.Clean) (h : VarName.Form e v.name) :
    (typedVar v).Yields Printable := by
  refine (varAttrs_yields he h).bind ?_
  rintro ⟨tag, attrs⟩ ⟨htag, hattrs⟩
  refine (typeRef_yields v.ty).bind ?_
  intro r hr
  refine .pure (.node ?_ (by simp) htag)
  intro a ha
  rcases List.mem_append.1 ha with ha | ha
  · exact hattrs a ha
  · rwa [List.mem_singleton.1 ha]

theorem typedVars_yields {t : Table} {es : List Element} {vars : List TypedVar}
    (hes : ∀ e ∈ es, e.Clean) (h : TypedVar.Listed t es vars) {tag : String}
    (htag : PlainName tag) : (typedVars tag vars).Yields Printable := by
  refine (Yields.all (P := Printable) ?_).bind ?_
  · intro w hw
    obtain ⟨v, hv, rfl⟩ := List.mem_map.1 hw
    obtain ⟨e, he, hname, -⟩ := exists_of_forall₂_right h hv
    exact typedVar_yields (hes e he) hname
  · intro cs hcs
    exact .pure (.node (by simp) hcs htag)

end Write

/-! ## Symbols -/

theorem Vocabulary.allowed_symbols : ∀ v ∈ all, ∀ s ∈ v.symbols, Allowed s.toList := by
  decide +kernel

theorem Operator.allowed_of_symbolAt? {v : Vocabulary} [v.Listed] {code : Int} {s : String}
    (h : symbolAt? v code = some s) : Allowed s.toList :=
  Vocabulary.allowed_symbols v Vocabulary.Listed.mem s
    (List.mem_of_getElem? (symbolAt?_eq_some h).2)

theorem Operator.Declared.allowed {v : Vocabulary} [v.Listed] {op : Operator v}
    (h : op.Declared) : Allowed op.symbol.toList :=
  allowed_of_symbolAt? h.symbolAt?

end BMethod
