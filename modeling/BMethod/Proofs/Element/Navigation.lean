import Mathlib
import BMethod.Proofs.Element.Siblings

/-!
# Walks over children

Where no element was appended twice, every child of an element stands at its own place among the
children. The links between siblings then lead through the whole list of children, in order, and a
walk over the children with a tag meets those that have it.
-/

namespace BMethod.Store

/-- Every child was appended, and stands at its own place. -/
structure Unshared (s : Store) (past : List Nat) : Prop where
  appended : ∀ p, ∀ c ∈ s.children p, c ∈ past
  placed : ∀ p i c, (s.children p)[i]? = some c → s.place? c = some (p, i)

namespace Unshared

variable {s : Store} {past : List Nat}

theorem empty : Unshared .empty [] where
  appended := by simp [children, get?, Store.empty]
  placed := by simp [children, get?, Store.empty]

theorem of_links {s' : Store} (h : Unshared s past)
    (hchildren : ∀ p, s'.children p = s.children p) (hplace : ∀ m, s'.place? m = s.place? m) :
    Unshared s' past where
  appended p c hc := h.appended p c (hchildren p ▸ hc)
  placed p i c hc := by
    rw [hchildren] at hc
    rw [hplace, h.placed p i c hc]

theorem append (h : Unshared s past) {n child : Nat} (hn : n < s.cells.size)
    (hchild : child < s.cells.size) (hnew : child ∉ past) :
    Unshared (s.append n child) (past ++ [child]) where
  appended p c hc := by
    rw [children_append hn] at hc
    split at hc
    · rcases List.mem_append.1 hc with hc | hc
      · exact List.mem_append_left _ (h.appended n c hc)
      · exact List.mem_append_right _ hc
    · exact List.mem_append_left _ (h.appended p c hc)
  placed p i c hc := by
    -- An earlier child is not the new one, so it keeps its place.
    have hkept : ∀ {q}, (s.children q)[i]? = some c →
        (s.append n child).place? c = some (q, i) := by
      intro q hq
      have hne : c ≠ child := by
        rintro rfl
        exact hnew (h.appended q c (List.mem_of_getElem? hq))
      rw [place?_append hchild, if_neg hne, h.placed q i c hq]
    rw [children_append hn] at hc
    split at hc
    · rename_i hp
      subst hp
      rw [List.getElem?_append] at hc
      split at hc
      · exact hkept hc
      · rename_i hi
        obtain ⟨hlast, rfl⟩ := List.getElem?_eq_some_iff.1 hc
        rw [List.length_singleton] at hlast
        have hi' : i = (s.children p).length := by omega
        simp [place?_append hchild, hi']
    · exact hkept hc

/-- As long as no element is appended twice, no child is shared. -/
theorem invariant : LinkInvariant fun s past => past.Nodup → Unshared s past where
  empty _ := .empty
  of_links h _ hchildren hplace hnodup := (h hnodup).of_links hchildren hplace
  append h hn hchild hnodup := by
    obtain ⟨hpast, -, hnew⟩ := List.nodup_append.1 hnodup
    exact (h hpast).append hn hchild fun hmem => hnew _ hmem _ (List.mem_singleton_self _) rfl

end Unshared

theorem Reached.unshared {s : Store} {past : List Nat} (h : Reached s past)
    (once : past.Nodup) : Unshared s past :=
  Unshared.invariant.reached h once

/-! ## Next siblings -/

theorem next?_of_place? {s : Store} {n c : Nat} {before after : List Nat}
    (hplace : s.place? c = some (n, before.length)) (hn : s.children n = before ++ c :: after)
    (tag : String) : s.next? c tag = after.find? (s.hasTag tag) := by
  obtain ⟨cell, hcell, hlink⟩ := Option.bind_eq_some_iff.1 hplace
  obtain ⟨p, hp, heq⟩ := Option.map_eq_some_iff.1 hlink
  obtain ⟨rfl, hindex⟩ := Prod.mk.inj heq
  simp [next?, hcell, hp, hindex, hn, ← List.drop_drop]

theorem hasTag_any {s : Store} {c : Nat} (h : c < s.cells.size) : s.hasTag "" c = true := by
  obtain ⟨cell, hcell⟩ := exists_cell h
  simp [hasTag, hcell]

namespace Unshared

variable {s : Store} {past : List Nat}

theorem place?_eq (h : Unshared s past) {n c : Nat} {before after : List Nat}
    (hn : s.children n = before ++ c :: after) : s.place? c = some (n, before.length) :=
  h.placed n _ c (by simp [hn])

theorem nodup_children (h : Unshared s past) (n : Nat) : (s.children n).Nodup := by
  rw [List.nodup_iff_getElem?_ne_getElem?]
  intro i j hij hj heq
  have hget := List.getElem?_eq_getElem hj
  have hi := h.placed n i _ (heq.trans hget)
  rw [h.placed n j _ hget] at hi
  cases hi
  exact Nat.lt_irrefl _ hij

theorem walkFrom_eq (h : Unshared s past) {n : Nat} {tag : String} {bound : Nat}
    {before after : List Nat} (hn : s.children n = before ++ after)
    (hbound : (after.filter (s.hasTag tag)).length ≤ bound) :
    s.walkFrom tag bound (after.find? (s.hasTag tag)) = after.filter (s.hasTag tag) := by
  induction after generalizing before bound with
  | nil => simp [walkFrom]
  | cons c after ih =>
    have hnext := next?_of_place? (h.place?_eq hn) hn tag
    rw [List.append_cons] at hn
    cases hc : s.hasTag tag c with
    | false =>
      rw [List.filter_cons_of_neg (by simp [hc])] at hbound ⊢
      rw [List.find?_cons_of_neg (by simp [hc])]
      exact ih hn hbound
    | true =>
      rw [List.filter_cons_of_pos hc, List.length_cons] at hbound
      obtain ⟨b, rfl⟩ := Nat.exists_eq_add_of_le' hbound
      rw [List.filter_cons_of_pos hc, List.find?_cons_of_pos hc, ← Nat.add_assoc, walkFrom, hnext]
      exact congrArg (c :: ·) (ih hn (Nat.le_add_left _ _))

end Unshared

/-! ## Walks -/

section

variable {s : Store} {past : List Nat}

theorem length_children_le (hl : Linked s past) (h : Unshared s past) (n : Nat) :
    (s.children n).length ≤ s.cells.size := by
  have hsub : s.children n ⊆ List.range s.cells.size :=
    fun c hc => List.mem_range.2 (hl.known n c hc)
  simpa using (List.subperm_of_subset (h.nodup_children n) hsub).length_le

theorem walk_eq (hl : Linked s past) (h : Unshared s past) (n : Nat) (tag : String) :
    s.walk n tag = (s.children n).filter (s.hasTag tag) :=
  h.walkFrom_eq (List.nil_append _).symm
    ((List.length_filter_le _ _).trans (length_children_le hl h n))

theorem walk_any (hl : Linked s past) (h : Unshared s past) (n : Nat) :
    s.walk n "" = s.children n := by
  rw [walk_eq hl h, List.filter_eq_self]
  exact fun c hc => hasTag_any (hl.known n c hc)

end

end BMethod.Store
