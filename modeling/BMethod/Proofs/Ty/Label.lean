import Mathlib
import BMethod.Proofs.Element.Parts
import BMethod.Ty.Declaration

/-!
# Labels

Labelled things are sorted by their labels whatever they are, and sorting them twice changes
nothing. Labels pass the check for repetitions when they are all different.
-/

namespace BMethod

variable {α β : Type}

/-! ## Sorting -/

theorem sortByLabel_perm (items : List (String × α)) : (sortByLabel items).Perm items :=
  List.mergeSort_perm items _

theorem mem_sortByLabel {items : List (String × α)} {item : String × α} :
    item ∈ sortByLabel items ↔ item ∈ items :=
  (sortByLabel_perm items).mem_iff

theorem label_le_trans (a b c : String × α) (hab : decide (a.1 ≤ b.1) = true)
    (hbc : decide (b.1 ≤ c.1) = true) : decide (a.1 ≤ c.1) = true := by
  simp only [decide_eq_true_eq] at hab hbc ⊢
  exact le_trans hab hbc

theorem label_le_total (a b : String × α) : (decide (a.1 ≤ b.1) || decide (b.1 ≤ a.1)) = true := by
  simpa using le_total a.1 b.1

theorem sorted_sortByLabel (items : List (String × α)) :
    (sortByLabel items).Pairwise fun a b => a.1 ≤ b.1 := by
  have h : (sortByLabel items).Pairwise fun a b => decide (a.1 ≤ b.1) = true :=
    List.pairwise_mergeSort label_le_trans label_le_total items
  exact h.imp fun hab => of_decide_eq_true hab

theorem sortByLabel_of_sorted {items : List (String × α)}
    (h : items.Pairwise fun a b => a.1 ≤ b.1) : sortByLabel items = items :=
  List.mergeSort_of_pairwise (by simpa using h)

theorem sortByLabel_sortByLabel (items : List (String × α)) :
    sortByLabel (sortByLabel items) = sortByLabel items :=
  sortByLabel_of_sorted (sorted_sortByLabel items)

/-- The order in which labelled things are given does not matter when their labels are different. -/
theorem sortByLabel_eq_of_perm {items items' : List (String × α)} (h : items'.Perm items)
    (hnodup : (items.map (·.1)).Nodup) : sortByLabel items' = sortByLabel items := by
  have hperm : (sortByLabel items').Perm (sortByLabel items) :=
    (sortByLabel_perm items').trans (h.trans (sortByLabel_perm items).symm)
  refine hperm.eq_of_pairwise ?_ (sorted_sortByLabel items') (sorted_sortByLabel items)
  intro a b ha hb hab hba
  have hlabel : a.1 = b.1 := le_antisymm hab hba
  have ha := h.mem_iff.1 (mem_sortByLabel.1 ha)
  have hb := mem_sortByLabel.1 hb
  exact List.inj_on_of_nodup_map hnodup ha hb hlabel

theorem lt_of_sorted {items : List (String × α)} (h : items.Pairwise fun a b => a.1 ≤ b.1)
    (hnodup : (items.map (·.1)).Nodup) : items.Pairwise fun a b => a.1 < b.1 := by
  have hne : items.Pairwise fun a b => a.1 ≠ b.1 := List.pairwise_map.1 hnodup
  exact h.imp₂ (fun a b hle hab => lt_of_le_of_ne hle hab) hne

theorem sortByLabel_map (f : String × α → β) (items : List (String × α)) :
    sortByLabel (items.map fun i => (i.1, f i)) = (sortByLabel items).map fun i => (i.1, f i) := by
  unfold sortByLabel
  rw [List.map_mergeSort]
  intros
  rfl

/-! ## Repetitions -/

theorem repeatedAfter_eq_none {seen labels : List String} :
    repeatedAfter seen labels = none ↔ labels.Nodup ∧ ∀ l ∈ labels, l ∉ seen := by
  induction labels generalizing seen with
  | nil => simp [repeatedAfter]
  | cons l ls ih =>
    rw [repeatedAfter]
    split
    · rename_i hl
      simp [hl]
    · rename_i hl
      rw [ih, List.nodup_cons]
      constructor
      · rintro ⟨hnodup, hseen⟩
        refine ⟨⟨fun hmem => hseen l hmem List.mem_cons_self, hnodup⟩, ?_⟩
        rintro m (_ | ⟨_, hm⟩)
        · exact hl
        · exact fun hmem => hseen m hm (List.mem_cons_of_mem _ hmem)
      · rintro ⟨⟨hnot, hnodup⟩, hseen⟩
        refine ⟨hnodup, ?_⟩
        rintro m hm (_ | ⟨_, hmem⟩)
        · exact hnot hm
        · exact hseen m (List.mem_cons_of_mem _ hm) hmem

theorem repeatedLabel?_eq_none {labels : List String} :
    repeatedLabel? labels = none ↔ labels.Nodup := by
  simp [repeatedLabel?, repeatedAfter_eq_none]

theorem Ty.checkLabels_eq_ok {e : Element} {labels : List String} {u : Unit} :
    Ty.checkLabels e labels = .ok u ↔ labels.Nodup := by
  rw [← repeatedLabel?_eq_none]
  unfold Ty.checkLabels
  split
  · rename_i l hl
    simp [hl, Element.complain_ne_ok]
  · rename_i hnone
    simp [hnone, pure_eq_ok]

/-! ## Items of records -/

/-- What an item of a record says about its label, and its first child about the rest. -/
def Element.Labels (R : Element → α → Prop) (c : Element) (item : String × α) : Prop :=
  c.attr? "label" = some item.1 ∧ ∃ d, c.first? "" = some d ∧ R d item.2

/-- What the items of a record say; other children say nothing. -/
def Element.Items (R : Element → α → Prop) (e : Element) (items : List (String × α)) : Prop :=
  List.Forall₂ (Labels R) (e.childrenNamed "Record_Item") items

theorem Element.Items.imp {R R' : Element → α → Prop} {e : Element} {items : List (String × α)}
    (hR : ∀ c x, sizeOf c < sizeOf e → R c x → R' c x) (h : e.Items R items) :
    e.Items R' items := by
  refine forall₂_imp_of_mem ?_ h
  rintro c hc item ⟨hlabel, d, hd, hx⟩
  have hsize := Element.sizeOf_lt_of_mem_children (List.mem_of_mem_filter hc)
  exact ⟨hlabel, d, hd, hR d _ (Nat.lt_trans (Element.sizeOf_lt_of_first? hd) hsize) hx⟩

end BMethod
