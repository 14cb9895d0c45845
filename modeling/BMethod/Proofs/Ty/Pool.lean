import BMethod.Proofs.Ty.Order

/-!
# Pools as lists of types

A pool is sound when its index holds every number once, in strictly increasing order of the types.
On a sound pool the binary search finds a type exactly when it is there, so a pool behaves as the
plain list of its types: a number is the place of a type, and only new types are added, at the end.
-/

namespace BMethod

/-! ## Binary search -/

/-- Halving the range finds the end of the initial part on which a test holds. -/
theorem lowerBound_spec (below : Nat → Bool) (lo hi : Nat) (hle : lo ≤ hi)
    (hdown : ∀ i j, i ≤ j → j < hi → below j = true → below i = true) :
    lo ≤ lowerBound below lo hi ∧ lowerBound below lo hi ≤ hi ∧
      (∀ i, lo ≤ i → i < lowerBound below lo hi → below i = true) ∧
      ∀ i, lowerBound below lo hi ≤ i → i < hi → below i = false := by
  fun_induction lowerBound below lo hi with
  | case1 lo hi hlt mid hmid ih =>
    obtain ⟨h1, h2, h3, h4⟩ := ih (by omega) hdown
    refine ⟨by omega, h2, ?_, h4⟩
    intro i hi hi'
    by_cases him : i ≤ mid
    · exact hdown i mid him (by omega) hmid
    · exact h3 i (by omega) hi'
  | case2 lo hi hlt mid hmid ih =>
    obtain ⟨h1, h2, h3, h4⟩ := ih (by omega) fun i j hij hj => hdown i j hij (by omega)
    refine ⟨h1, by omega, h3, ?_⟩
    intro i hi hi'
    by_cases him : i < mid
    · exact h4 i hi him
    · -- The test fails at the middle, so it fails from there on.
      by_contra hb
      exact hmid (hdown mid i (by omega) hi' (by simpa using hb))
  | case3 lo hi hlt =>
    exact ⟨Nat.le_refl lo, hle, by omega, by omega⟩

namespace Pool

/-! ## The invariant -/

def typeAt (p : Pool) (i : Nat) : Option Ty :=
  (p.order[i]?).bind (p.types[·]?)

theorem compareAt_eq (p : Pool) (i : Nat) (t : Ty) :
    p.compareAt i t = (p.typeAt i).map (·.compare t) := by
  unfold compareAt typeAt
  cases p.order[i]? <;> rfl

/-- The index holds the numbers of all types, in strictly increasing order of the types. -/
structure Sound (p : Pool) : Prop where
  perm : p.order.Perm (List.range p.size)
  sorted : ∀ i j x y, i < j → p.typeAt i = some x → p.typeAt j = some y → x.compare y = .lt

theorem empty_sound : empty.Sound where
  perm := .refl _
  sorted := by simp [typeAt, empty]

namespace Sound

variable {p : Pool}

theorem exists_typeAt (hp : p.Sound) {i : Nat} (hi : i < p.order.length) :
    ∃ x, p.typeAt i = some x := by
  have hmem : p.order[i] ∈ List.range p.size := hp.perm.mem_iff.1 (List.getElem_mem hi)
  have hlt : p.order[i] < p.types.length := List.mem_range.1 hmem
  exact ⟨p.types[p.order[i]], by simp [typeAt, hi, hlt]⟩

theorem exists_place (hp : p.Sound) {n : Nat} (hn : n < p.size) :
    ∃ i : Nat, p.order[i]? = some n := by
  have hmem : n ∈ p.order := hp.perm.mem_iff.2 (List.mem_range.2 hn)
  exact List.mem_iff_getElem?.1 hmem

/-- The search stops behind the types below `t`. -/
theorem search_spec (hp : p.Sound) (t : Ty) :
    p.search t ≤ p.order.length ∧
      (∀ i x, i < p.search t → p.typeAt i = some x → x.compare t = .lt) ∧
      ∀ i x, p.search t ≤ i → p.typeAt i = some x → x.compare t ≠ .lt := by
  have hdown : ∀ i j, i ≤ j → j < p.order.length → (p.compareAt j t == some .lt) = true →
      (p.compareAt i t == some .lt) = true := by
    intro i j hij hj h
    obtain ⟨x, hx⟩ := hp.exists_typeAt (Nat.lt_of_le_of_lt hij hj)
    obtain ⟨y, hy⟩ := hp.exists_typeAt hj
    simp only [compareAt_eq, hx, hy, Option.map_some, beq_iff_eq, Option.some.injEq] at h ⊢
    rcases Nat.lt_or_eq_of_le hij with hlt | rfl
    · exact Ty.compare_lt_trans (hp.sorted i j x y hlt hx hy) h
    · rw [hx, Option.some.injEq] at hy
      rw [hy]; exact h
  obtain ⟨-, hle, hbelow, habove⟩ := lowerBound_spec _ 0 p.order.length (Nat.zero_le _) hdown
  refine ⟨hle, ?_, ?_⟩
  · intro i x hi hx
    have := hbelow i (Nat.zero_le i) hi
    simpa [compareAt_eq, hx] using this
  · intro i x hi hx
    have hlt : i < p.order.length := by
      by_contra h
      simp [typeAt, List.getElem?_eq_none (Nat.le_of_not_lt h)] at hx
    have := habove i hi hlt
    simpa [compareAt_eq, hx] using this

theorem lookup?_eq_some_iff (hp : p.Sound) {t : Ty} {n : Nat} :
    p.lookup? t = some n ↔ p.types[n]? = some t := by
  obtain ⟨-, hbelow, habove⟩ := hp.search_spec t
  unfold lookup?
  constructor
  · intro h
    split at h
    · rename_i heq
      simp only [compareAt_eq, typeAt, h, Option.bind_some, beq_iff_eq, Option.map_eq_some_iff,
        Ty.compare_eq_iff, exists_eq_right] at heq
      exact heq
    · cases h
  · intro h
    obtain ⟨i, hi⟩ := hp.exists_place (List.getElem?_eq_some_iff.1 h).1
    have hti : p.typeAt i = some t := by simp [typeAt, hi, h]
    have heq : p.search t = i := by
      rcases Nat.lt_trichotomy (p.search t) i with hlt | heq | hgt
      · -- The type where the search stopped is below `t`, which stands further on.
        have hlen : i < p.order.length := (List.getElem?_eq_some_iff.1 hi).1
        obtain ⟨x, hx⟩ := hp.exists_typeAt (Nat.lt_trans hlt hlen)
        exact absurd (hp.sorted _ _ x t hlt hx hti) (habove _ x (Nat.le_refl _) hx)
      · exact heq
      · have := hbelow i t hgt hti
        simp [Ty.compare_self] at this
    rw [heq, compareAt_eq, hti]
    simp [Ty.compare_self, hi]

theorem lookup?_eq_none_iff (hp : p.Sound) {t : Ty} : p.lookup? t = none ↔ t ∉ p.types := by
  rw [List.mem_iff_getElem?, Option.eq_none_iff_forall_ne_some, not_exists]
  exact forall_congr' fun n => not_congr hp.lookup?_eq_some_iff

theorem ref_unique (hp : p.Sound) {t : Ty} {m n : Nat} (hm : p.types[m]? = some t)
    (hn : p.types[n]? = some t) : m = n := by
  rw [← hp.lookup?_eq_some_iff] at hm hn
  exact Option.some.inj (hm.symm.trans hn)

/-! ## Adding a type -/

theorem getElem?_append_order (hp : p.Sound) (t : Ty) (i : Nat) :
    (p.order[i]?).bind ((p.types ++ [t])[·]?) = p.typeAt i := by
  unfold typeAt
  cases hi : p.order[i]? with
  | none => rfl
  | some ref =>
    have hlt : ref < p.types.length :=
      List.mem_range.1 (hp.perm.mem_iff.1 (List.mem_of_getElem? hi))
    simp [List.getElem?_append_left hlt]

/-- The pool with a new type, put into the index where the search for it stopped. -/
theorem insert_sound (hp : p.Sound) {t : Ty} (ht : t ∉ p.types) :
    Sound ⟨p.types ++ [t], p.order.insertIdx (p.search t) p.size⟩ := by
  obtain ⟨hle, hbelow, habove⟩ := hp.search_spec t
  have hat : ∀ i, typeAt ⟨p.types ++ [t], p.order.insertIdx (p.search t) p.size⟩ i =
      if i < p.search t then p.typeAt i
      else if i = p.search t then some t else p.typeAt (i - 1) := by
    intro i
    simp only [typeAt, List.getElem?_insertIdx]
    split
    · exact hp.getElem?_append_order t i
    · split
      · rw [if_pos (by omega)]; simp [size]
      · exact hp.getElem?_append_order t (i - 1)
  have hne : ∀ i x, p.typeAt i = some x → x ≠ t := by
    rintro i x hx rfl
    obtain ⟨ref, -, href⟩ := Option.bind_eq_some_iff.1 hx
    exact ht (List.mem_of_getElem? href)
  have habove' : ∀ i x, p.search t ≤ i → p.typeAt i = some x → t.compare x = .lt := by
    intro i x hi hx
    cases hc : x.compare t with
    | lt => exact absurd hc (habove i x hi hx)
    | eq => exact absurd (Ty.eq_of_compare_eq hc) (hne i x hx)
    | gt => rw [← Ty.compare_swap, hc]; rfl
  constructor
  · refine (List.perm_insertIdx _ _ hle).trans ?_
    simp only [size, List.length_append, List.length_singleton, List.range_succ]
    exact (hp.perm.cons _).trans (List.perm_append_singleton _ _).symm
  · intro i j x y hij hx hy
    rw [hat] at hx hy
    -- Old places keep their order; the new one is behind all below `t` and before all above it.
    split at hx
    · split at hy
      · exact hp.sorted i j x y hij hx hy
      · split at hy
        · cases hy; exact hbelow i x ‹_› hx
        · exact hp.sorted i (j - 1) x y (by omega) hx hy
    · rw [if_neg (by omega), if_neg (by omega)] at hy
      split at hx
      · cases hx; exact habove' (j - 1) y (by omega) hy
      · exact hp.sorted (i - 1) (j - 1) x y (by omega) hx hy

theorem ref_of_getElem? (hp : p.Sound) {t : Ty} {n : Nat} (h : p.types[n]? = some t) :
    p.ref t = (n, p) := by
  rw [ref, hp.lookup?_eq_some_iff.2 h]

theorem ref_of_not_mem (hp : p.Sound) {t : Ty} (h : t ∉ p.types) :
    p.ref t = (p.size, ⟨p.types ++ [t], p.order.insertIdx (p.search t) p.size⟩) := by
  rw [ref, hp.lookup?_eq_none_iff.2 h]

theorem ref_sound (hp : p.Sound) (t : Ty) : (p.ref t).2.Sound := by
  by_cases h : t ∈ p.types
  · obtain ⟨n, hn⟩ := List.mem_iff_getElem?.1 h
    rw [hp.ref_of_getElem? hn]; exact hp
  · rw [hp.ref_of_not_mem h]; exact hp.insert_sound h

theorem getElem?_ref (hp : p.Sound) (t : Ty) : (p.ref t).2.types[(p.ref t).1]? = some t := by
  by_cases h : t ∈ p.types
  · obtain ⟨n, hn⟩ := List.mem_iff_getElem?.1 h
    rw [hp.ref_of_getElem? hn]; exact hn
  · rw [hp.ref_of_not_mem h]; simp [size]

end Sound

theorem prefix_ref (p : Pool) (t : Ty) : p.types <+: (p.ref t).2.types := by
  unfold ref
  split
  · exact List.prefix_rfl
  · exact List.prefix_append _ _

theorem mem_types_ref {p : Pool} {t u : Ty} (h : u ∈ (p.ref t).2.types) : u ∈ p.types ∨ u = t := by
  unfold ref at h
  split at h
  · exact .inl h
  · simpa using h

/-! ## Adding types in order -/

@[simp] theorem addAll_nil (p : Pool) : p.addAll [] = p := rfl

@[simp] theorem addAll_cons (p : Pool) (t : Ty) (ts : List Ty) :
    p.addAll (t :: ts) = (p.ref t).2.addAll ts := rfl

theorem addAll_append (p : Pool) (ts us : List Ty) :
    p.addAll (ts ++ us) = (p.addAll ts).addAll us :=
  List.foldl_append

theorem Sound.addAll {p : Pool} (hp : p.Sound) (ts : List Ty) : (p.addAll ts).Sound := by
  induction ts generalizing p with
  | nil => exact hp
  | cons t ts ih => exact ih (hp.ref_sound t)

theorem prefix_addAll (p : Pool) (ts : List Ty) : p.types <+: (p.addAll ts).types := by
  induction ts generalizing p with
  | nil => exact List.prefix_rfl
  | cons t ts ih => exact (p.prefix_ref t).trans (ih _)

theorem mem_types_addAll {p : Pool} {ts : List Ty} {u : Ty} (h : u ∈ (p.addAll ts).types) :
    u ∈ p.types ∨ u ∈ ts := by
  induction ts generalizing p with
  | nil => exact .inl h
  | cons t ts ih =>
    rcases ih h with h | h
    · rcases mem_types_ref h with h | rfl
      · exact .inl h
      · exact .inr List.mem_cons_self
    · exact .inr (List.mem_cons_of_mem _ h)

theorem types_addAll_empty_subset (ts : List Ty) : (empty.addAll ts).types ⊆ ts := by
  intro u hu
  rcases mem_types_addAll hu with hempty | hmem
  · simp [empty] at hempty
  · exact hmem

theorem Sound.nodup {p : Pool} (hp : p.Sound) : p.types.Nodup := by
  rw [List.nodup_iff_getElem?_ne_getElem?]
  intro i j hij hj heq
  obtain ⟨x, hx⟩ : ∃ x, p.types[j]? = some x := ⟨_, List.getElem?_eq_getElem hj⟩
  have := hp.ref_unique (heq.trans hx) hx
  omega

theorem Sound.types_addAll {p : Pool} (hp : p.Sound) {ts : List Ty} (h : (p.types ++ ts).Nodup) :
    (p.addAll ts).types = p.types ++ ts := by
  induction ts generalizing p with
  | nil => simp
  | cons t ts ih =>
    have hnew : t ∉ p.types := by
      intro ht
      exact (List.nodup_append.1 h).2.2 t ht t List.mem_cons_self rfl
    have hsound := hp.ref_sound t
    rw [addAll_cons]
    rw [hp.ref_of_not_mem hnew] at hsound ⊢
    rw [ih hsound (by simpa using h), List.append_assoc, List.singleton_append]

theorem Sound.types_addAll_empty {p : Pool} (hp : p.Sound) :
    (empty.addAll p.types).types = p.types :=
  empty_sound.types_addAll (by simpa [empty] using hp.nodup)

theorem Sound.mem_addAll {p : Pool} (hp : p.Sound) {ts : List Ty} {u : Ty} (h : u ∈ ts) :
    u ∈ (p.addAll ts).types := by
  induction ts generalizing p with
  | nil => cases h
  | cons t ts ih =>
    rcases List.mem_cons.1 h with rfl | h
    · exact ((p.ref u).2.prefix_addAll ts).subset (List.mem_of_getElem? (hp.getElem?_ref u))
    · exact ih (hp.ref_sound t) h

theorem Sound.addAll_of_subset {p : Pool} (hp : p.Sound) {ts : List Ty} (h : ts ⊆ p.types) :
    p.addAll ts = p := by
  induction ts with
  | nil => rfl
  | cons t ts ih =>
    obtain ⟨n, hn⟩ := List.mem_iff_getElem?.1 (h List.mem_cons_self)
    rw [addAll_cons, hp.ref_of_getElem? hn]
    exact ih (List.subset_of_cons_subset h)

/-- The pool `q` has the types of `p`, and at the end those of a list that `p` did not have, each of
them once. -/
def GrownBy (p : Pool) (ts : List Ty) (q : Pool) : Prop :=
  ∃ new, q.types = p.types ++ new ∧ new.Nodup ∧ ∀ u, u ∈ new ↔ u ∈ ts ∧ u ∉ p.types

theorem Sound.grownBy_addAll {p : Pool} (hp : p.Sound) (ts : List Ty) :
    p.GrownBy ts (p.addAll ts) := by
  obtain ⟨new, hnew⟩ := p.prefix_addAll ts
  have hnodup := (hp.addAll ts).nodup
  rw [← hnew, List.nodup_append] at hnodup
  obtain ⟨-, hnodup, hdisjoint⟩ := hnodup
  refine ⟨new, hnew.symm, hnodup, fun u => ⟨fun hu => ?_, fun ⟨hu, hnot⟩ => ?_⟩⟩
  · have hnot : u ∉ p.types := fun hold => hdisjoint u hold u hu rfl
    have hmem : u ∈ (p.addAll ts).types := hnew ▸ List.mem_append_right _ hu
    exact ⟨(mem_types_addAll hmem).resolve_left hnot, hnot⟩
  · have hmem := hp.mem_addAll hu
    rw [← hnew, List.mem_append] at hmem
    exact hmem.resolve_left hnot

/-! ## Reachable pools -/

/-- The pools that handing out numbers can lead to, from the empty one. -/
inductive Reachable : Pool → Prop
  | empty : Reachable .empty
  | ref {p : Pool} (t : Ty) (hp : Reachable p) : Reachable (p.ref t).2

theorem Reachable.sound {p : Pool} (hp : p.Reachable) : p.Sound := by
  induction hp with
  | empty => exact empty_sound
  | ref t _ ih => exact ih.ref_sound t

theorem Reachable.addAll {p : Pool} (hp : p.Reachable) (ts : List Ty) :
    (p.addAll ts).Reachable := by
  induction ts generalizing p with
  | nil => exact hp
  | cons t ts ih => exact ih (.ref t hp)

end Pool

end BMethod
