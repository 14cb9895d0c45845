import Mathlib
import BMethod.Proofs.Text.Order
import BMethod.Proofs.Ty.Label
import BMethod.Proofs.Ty.Pool

/-!
# Fields of record types

A record type keeps its fields sorted by label, and fields with one label in the order in which they
were given. The binary search for a label stops at the first field that has it, so of several
declarations of a label the first one counts.
-/

namespace BMethod

/-! ## Sorting keeps the order of equal labels -/

theorem filter_sortByLabel {α : Type} (items : List (String × α)) (label : String) :
    (sortByLabel items).filter (·.1 = label) = items.filter (·.1 = label) := by
  have hequal : (items.filter (·.1 = label)).Pairwise fun a b => decide (a.1 ≤ b.1) = true := by
    refine List.pairwise_of_forall_mem_list fun a ha b hb => ?_
    have ha := List.mem_filter.1 ha
    have hb := List.mem_filter.1 hb
    simp only [decide_eq_true_eq] at ha hb ⊢
    rw [ha.2, hb.2]
  have hsub : (items.filter (·.1 = label)).Sublist (sortByLabel items) :=
    List.sublist_mergeSort label_le_trans label_le_total hequal List.filter_sublist
  have hsub := hsub.filter (·.1 = label)
  rw [List.filter_filter] at hsub
  simp only [Bool.and_self] at hsub
  have hlength := ((sortByLabel_perm items).filter (·.1 = label)).length_eq
  exact (hsub.eq_of_length hlength.symm).symm

theorem find?_sortByLabel {α : Type} (items : List (String × α)) (label : String) :
    (sortByLabel items).find? (·.1 = label) = items.find? (·.1 = label) := by
  rw [← List.head?_filter, ← List.head?_filter, filter_sortByLabel]

theorem sorted_sortByLabel_bytes {α : Type} (items : List (String × α)) :
    (sortByLabel items).Pairwise fun a b => a.1 = b.1 ∨ Text.BytesLt a.1 b.1 :=
  (sorted_sortByLabel items).imp fun hle => hle.eq_or_lt.imp_right Text.bytesLt_of_lt

namespace Ty

/-! ## Searching -/

/-- The search stops behind the fields whose labels are below the label, and looks at the next one. -/
theorem fieldType?_search {fields : List (String × Ty)} (h : fields.Pairwise fun f g => f.1 ≤ g.1)
    (label : String) :
    ∃ k, (∀ f ∈ fields.take k, f.1 < label) ∧ (∀ f ∈ fields.drop k, label ≤ f.1) ∧
      fieldType? fields label =
        match (fields.drop k).head? with
        | some f => if f.1 = label then some f.2 else none
        | none => none := by
  -- What the search tests; it holds on an initial part, since the labels are in order.
  let below (i : Nat) :=
    match fields[i]? with
    | some f => decide (f.1 < label)
    | none => false
  have hbelow : ∀ {i : Nat} (hi : i < fields.length), below i = decide (fields[i].1 < label) := by
    intro i hi
    simp only [below, List.getElem?_eq_getElem hi]
  have hdown : ∀ i j, i ≤ j → j < fields.length → below j = true → below i = true := by
    intro i j hij hj hlt
    have hi := Nat.lt_of_le_of_lt hij hj
    rw [hbelow hj, decide_eq_true_eq] at hlt
    rw [hbelow hi, decide_eq_true_eq]
    rcases Nat.lt_or_eq_of_le hij with hij | rfl
    · exact lt_of_le_of_lt (List.pairwise_iff_getElem.1 h i j hi hj hij) hlt
    · exact hlt
  obtain ⟨-, -, hbefore, hafter⟩ := lowerBound_spec below 0 fields.length (Nat.zero_le _) hdown
  refine ⟨lowerBound below 0 fields.length, ?_, ?_, ?_⟩
  · intro f hf
    obtain ⟨i, hi, rfl⟩ := List.mem_take_iff_getElem.1 hf
    obtain ⟨hik, hi⟩ := Nat.lt_min.1 hi
    simpa only [hbelow hi, decide_eq_true_eq] using hbefore i (Nat.zero_le i) hik
  · intro f hf
    obtain ⟨i, hi, rfl⟩ := List.mem_drop_iff_getElem.1 hf
    rw [Nat.add_comm] at hi
    have hle := hafter _ (Nat.le_add_right _ i) hi
    rwa [hbelow hi, decide_eq_false_iff_not, not_lt] at hle
  · rw [List.head?_drop]
    rfl

theorem fieldType?_of_sorted {fields : List (String × Ty)}
    (h : fields.Pairwise fun f g => f.1 ≤ g.1) (label : String) :
    fieldType? fields label = (fields.find? (·.1 = label)).map (·.2) := by
  obtain ⟨k, hbefore, hafter, heq⟩ := fieldType?_search h label
  have hskip : fields.find? (·.1 = label) = (fields.drop k).find? (·.1 = label) := by
    have hnone : (fields.take k).find? (·.1 = label) = none :=
      List.find?_eq_none.2 fun f hf => by simpa using (hbefore f hf).ne
    rw [← List.take_append_drop k fields, List.find?_append, hnone, Option.none_or,
      List.take_append_drop]
  have hsorted := h.sublist (List.drop_sublist k fields)
  rw [heq, hskip]
  generalize fields.drop k = rest at hafter hsorted
  cases rest with
  | nil => rfl
  | cons f rest =>
    by_cases hlabel : f.1 = label
    · simp [hlabel]
    · -- The field where the search stopped is above the label, and so are those behind it.
      have hlt : label < f.1 := lt_of_le_of_ne (hafter f List.mem_cons_self) (Ne.symm hlabel)
      have hnone : rest.find? (·.1 = label) = none := by
        refine List.find?_eq_none.2 fun g hg => ?_
        simpa using (hlt.trans_le (List.rel_of_pairwise_cons hsorted hg)).ne'
      simp [hlabel, hnone]

/-- The type of a field of a record type is the one that was declared first under its label, and
there is none exactly when the label was not declared. The fields are those of the declaration, sorted
by the bytes of their labels, with fields of one label in the order in which they were declared. -/
theorem field?_ofFields (fields : List (String × Ty)) (label : String) :
    (ofFields fields).field? label = (fields.find? (·.1 = label)).map (·.2) ∧
    ((ofFields fields).field? label = none ↔ ∀ f ∈ fields, f.1 ≠ label) ∧
    ∃ sorted, ofFields fields = .struct sorted ∧ sorted.Perm fields ∧
      sorted.Pairwise (fun f g => f.1 = g.1 ∨ Text.BytesLt f.1 g.1) ∧
      ∀ l, sorted.filter (·.1 = l) = fields.filter (·.1 = l) := by
  have hfirst : (ofFields fields).field? label = (fields.find? (·.1 = label)).map (·.2) := by
    rw [← find?_sortByLabel]
    exact fieldType?_of_sorted (sorted_sortByLabel fields) label
  refine ⟨hfirst, ?_, sortByLabel fields, rfl, sortByLabel_perm fields,
    sorted_sortByLabel_bytes fields, filter_sortByLabel fields⟩
  rw [hfirst, Option.map_eq_none_iff, List.find?_eq_none]
  simp

end Ty

end BMethod
