import Mathlib
import BMethod.Element.Basic

/-!
# Children in another order

The items of records, and the equalities that give witnesses, may stand in any order. All other
children keep their order, so what readers look for by its place or by its tag stays where it is.
-/

namespace BMethod.Element

/-- The elements are equal, or conjunctions of the same members. -/
inductive Reconjoined : Element → Element → Prop
  | same {e : Element} : Reconjoined e e
  | members {tag text : String} {attrs : List Attr} {line : Int} {cs cs' : List Element}
      (conjunction : tag = "Nary_Pred") (perm : cs.Perm cs') :
      Reconjoined ⟨tag, attrs, text, line, cs⟩ ⟨tag, attrs, text, line, cs'⟩

/-- How the children of an element with a tag may change places: a record may have its items in
another order, and the conjunctions among witnesses may have their members in another order. -/
inductive Rearranged : String → List Element → List Element → Prop
  | same {tag : String} {cs : List Element} : Rearranged tag cs cs
  | items {tag : String} {cs cs' : List Element} (record : tag = "Struct" ∨ tag = "Record")
      (items : (cs.filter (hasTag "Record_Item")).Perm (cs'.filter (hasTag "Record_Item")))
      (others : cs'.filter (!hasTag "Record_Item" ·) = cs.filter (!hasTag "Record_Item" ·)) :
      Rearranged tag cs cs'
  | witnesses {cs cs' : List Element} (conjunctions : List.Forall₂ Reconjoined cs cs') :
      Rearranged "Witnesses" cs cs'

/-- Elements with the tag have their children in order. -/
def KeepsOrder (tag : String) : Prop :=
  tag ≠ "Struct" ∧ tag ≠ "Record" ∧ tag ≠ "Witnesses"

instance (tag : String) : Decidable (KeepsOrder tag) :=
  inferInstanceAs (Decidable (_ ∧ _))

/-- Children with the tag stay where they are, whatever else is moved. -/
def Anchored (tag : String) : Prop :=
  tag ≠ "" ∧ tag ≠ "Record_Item" ∧ tag ≠ "Nary_Pred"

instance (tag : String) : Decidable (Anchored tag) :=
  inferInstanceAs (Decidable (_ ∧ _))

namespace Rearranged

variable {tag name : String} {cs cs' : List Element}

theorem eq (h : Rearranged tag cs cs') (htag : KeepsOrder tag) : cs' = cs := by
  cases h with
  | same => rfl
  | items record => exact absurd record (not_or.2 ⟨htag.1, htag.2.1⟩)
  | witnesses => exact absurd rfl htag.2.2

theorem filter_anchored (h : Rearranged tag cs cs') (hname : Anchored name) :
    cs'.filter (hasTag name) = cs.filter (hasTag name) := by
  obtain ⟨hne, hitem, hconj⟩ := hname
  cases h with
  | same => rfl
  | items _ _ others =>
    have hrest : ∀ es : List Element, es.filter (hasTag name) =
        (es.filter (!hasTag "Record_Item" ·)).filter (hasTag name) := by
      intro es
      rw [List.filter_filter]
      refine List.filter_congr fun e _ => ?_
      by_cases he : e.tag = name <;> simp [hasTag, hne, he, hitem]
    rw [hrest cs', hrest cs, others]
  | witnesses conjunctions =>
    induction conjunctions with
    | nil => rfl
    | cons he _ ih =>
      cases he with
      | same => rw [List.filter_cons, List.filter_cons, ih]
      | members conjunction =>
        subst conjunction
        rw [List.filter_cons_of_neg (by simp [hasTag, hne, Ne.symm hconj]),
          List.filter_cons_of_neg (by simp [hasTag, hne, Ne.symm hconj]), ih]

theorem find?_anchored (h : Rearranged tag cs cs') (hname : Anchored name) :
    cs'.find? (hasTag name) = cs.find? (hasTag name) := by
  rw [← List.head?_filter, ← List.head?_filter, h.filter_anchored hname]

theorem filter_items (h : Rearranged tag cs cs') (htag : tag ≠ "Witnesses") :
    (cs.filter (hasTag "Record_Item")).Perm (cs'.filter (hasTag "Record_Item")) := by
  cases h with
  | same => exact .refl _
  | items _ items => exact items
  | witnesses => exact absurd rfl htag

theorem head?_witnesses (h : Rearranged "Witnesses" cs cs') :
    Option.Rel Reconjoined cs.head? cs'.head? := by
  cases h with
  | same =>
    cases cs with
    | nil => exact .none
    | cons => exact .some .same
  | items record => simp at record
  | witnesses conjunctions =>
    cases conjunctions with
    | nil => exact .none
    | cons he _ => exact .some he

end Rearranged

end BMethod.Element
