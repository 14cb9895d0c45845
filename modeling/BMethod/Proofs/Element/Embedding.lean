import Mathlib
import BMethod.Proofs.Element.Parts
import BMethod.Proofs.Element.Siblings

/-!
# Trees in a store

A tree stands in a store when its elements do, linked by their lists of children. It is then the tree
of its root, and stays so as long as nobody changes what an element within it says. Where no element is
below itself every element is the root of a tree. A tree that is inserted stands in new elements.
-/

namespace BMethod

/-- An element without its links to where it is a child. -/
def Cell.unlinked (c : Cell) : Cell :=
  { c with parent := none, index := 0 }

namespace Store

/-! ## Elements below others -/

def Child (s : Store) (p c : Nat) : Prop :=
  c ∈ s.children p

/-- An element and another one that is a child of it, or below a child. -/
def Below (s : Store) : Nat → Nat → Prop :=
  Relation.TransGen s.Child

/-- An element and another one that is below it, or the same. -/
def Within (s : Store) : Nat → Nat → Prop :=
  Relation.ReflTransGen s.Child

section

variable {s : Store} {p c : Nat}

open Classical in
noncomputable def countBelow (s : Store) (n : Nat) : Nat :=
  ((Finset.range s.cells.size).filter (s.Below n)).card

theorem countBelow_le (s : Store) (n : Nat) : s.countBelow n ≤ s.cells.size := by
  classical
  exact (Finset.card_filter_le _ _).trans (Finset.card_range _).le

theorem countBelow_lt (hc : s.Child p c) (hknown : c < s.cells.size) (hself : ¬ s.Below c c) :
    s.countBelow c < s.countBelow p := by
  classical
  refine Finset.card_lt_card (Finset.ssubset_iff_subset_ne.2 ⟨?_, ?_⟩)
  · intro k hk
    rw [Finset.mem_filter] at hk ⊢
    exact ⟨hk.1, .head hc hk.2⟩
  · intro heq
    have hmem : c ∈ (Finset.range s.cells.size).filter (s.Below p) :=
      Finset.mem_filter.2 ⟨Finset.mem_range.2 hknown, .single hc⟩
    rw [← heq, Finset.mem_filter] at hmem
    exact hself hmem.2

end

/-! ## Trees -/

/-- A tree stands in a store, in elements from the number `lo` on; its root is the element `k`. -/
inductive Holds (s : Store) (lo : Nat) : Nat → Element → Prop where
  | mk {k : Nat} {c : Cell} {es : List Element} (cell : s.get? k = some c) (from_lo : lo ≤ k)
    (below : List.Forall₂ (Holds s lo) c.children es) :
    Holds s lo k ⟨c.tag, c.attrs, c.text, c.line, es⟩

/-- What an element says and which children it has. -/
def content (s : Store) (k : Nat) : Option Cell :=
  (s.get? k).map Cell.unlinked

section

variable {s t : Store} {lo k : Nat} {e : Element}

theorem children_of_get? {c : Cell} (h : s.get? k = some c) : s.children k = c.children := by
  simp [children, h]

theorem lt_of_get? {c : Cell} (h : s.get? k = some c) : k < s.cells.size :=
  (Array.getElem?_eq_some_iff.1 h).1

mutual
/-- Induction over a tree in a store, from the children to the root. -/
theorem Holds.induction {motive : Nat → Element → Prop}
    (step : ∀ (k : Nat) (c : Cell) (es : List Element), s.get? k = some c → lo ≤ k →
      List.Forall₂ (fun k e => Holds s lo k e ∧ motive k e) c.children es →
      motive k ⟨c.tag, c.attrs, c.text, c.line, es⟩) :
    ∀ (e : Element) {k : Nat}, Holds s lo k e → motive k e
  | ⟨_, _, _, _, es⟩, _, .mk hcell hnew hbelow =>
    step _ _ es hcell hnew (Holds.inductionAll step es hbelow)

theorem Holds.inductionAll {motive : Nat → Element → Prop}
    (step : ∀ (k : Nat) (c : Cell) (es : List Element), s.get? k = some c → lo ≤ k →
      List.Forall₂ (fun k e => Holds s lo k e ∧ motive k e) c.children es →
      motive k ⟨c.tag, c.attrs, c.text, c.line, es⟩) :
    ∀ (es : List Element) {ks : List Nat}, List.Forall₂ (Holds s lo) ks es →
      List.Forall₂ (fun k e => Holds s lo k e ∧ motive k e) ks es
  | [], _, .nil => .nil
  | e :: es, _, .cons h hs =>
    .cons ⟨h, Holds.induction step e h⟩ (Holds.inductionAll step es hs)
end

theorem Holds.lo_le (h : Holds s lo k e) : lo ≤ k := by
  cases h
  assumption

theorem Holds.known (h : Holds s lo k e) : k < s.cells.size := by
  cases h
  exact lt_of_get? ‹_›

theorem Holds.mono {lo' : Nat} (hlo : lo' ≤ lo) (h : Holds s lo k e) : Holds s lo' k e := by
  refine Holds.induction (motive := Holds s lo') ?_ e h
  intro k c es hcell hnew hbelow
  exact .mk hcell (hlo.trans hnew) (hbelow.imp fun _ _ => And.right)

/-! ## What is within a tree -/

theorem Holds.child {c : Nat} (h : Holds s lo k e) (hc : s.Child k c) :
    ∃ d ∈ e.children, Holds s lo c d := by
  cases h with
  | mk hcell _ hbelow =>
    rw [Child, children_of_get? hcell] at hc
    exact exists_of_forall₂_left hbelow hc

theorem Holds.within {j : Nat} (h : Holds s lo k e) (hj : s.Within k j) : ∃ d, Holds s lo j d := by
  induction hj with
  | refl => exact ⟨e, h⟩
  | tail _ hc ih =>
    obtain ⟨d, hd⟩ := ih
    obtain ⟨d', -, hd'⟩ := hd.child hc
    exact ⟨d', hd'⟩

theorem Holds.smaller_below {j : Nat} (h : Holds s lo k e) (hj : s.Below k j) :
    ∃ d, Holds s lo j d ∧ sizeOf d < sizeOf e := by
  induction hj with
  | single hc =>
    obtain ⟨d, hd, hholds⟩ := h.child hc
    exact ⟨d, hholds, Element.sizeOf_lt_of_mem_children hd⟩
  | tail _ hc ih =>
    obtain ⟨d, hd, hlt⟩ := ih
    obtain ⟨d', hd', hholds⟩ := hd.child hc
    exact ⟨d', hholds, (Element.sizeOf_lt_of_mem_children hd').trans hlt⟩

theorem forall₂_unique {α β : Type} {R : α → β → Prop} {as : List α} {bs cs : List β}
    (h : List.Forall₂ (fun a b => ∀ c, R a c → b = c) as bs) (h' : List.Forall₂ R as cs) :
    bs = cs := by
  induction h generalizing cs with
  | nil =>
    cases h'
    rfl
  | cons hab _ ih =>
    cases h' with
    | cons hac hrest => rw [hab _ hac, ih hrest]

/-- An element is the root of one tree only. -/
theorem Holds.unique {d : Element} (h : Holds s lo k e) (h' : Holds s lo k d) : e = d := by
  refine Holds.induction (motive := fun k e => ∀ d, Holds s lo k d → e = d) ?_ e h d h'
  rintro k c es hcell - hbelow d (⟨hcell', -, hbelow'⟩)
  rw [hcell] at hcell'
  cases hcell'
  rw [forall₂_unique (hbelow.imp fun _ _ => And.right) hbelow']

theorem Holds.not_below_self (h : Holds s lo k e) : ¬ s.Below k k := by
  intro hself
  obtain ⟨d, hd, hlt⟩ := h.smaller_below hself
  rw [h.unique hd] at hlt
  exact Nat.lt_irrefl _ hlt

/-! ## The tree of an element -/

theorem Holds.treeBy_eq (h : Holds s lo k e) {depth : Nat} (hdepth : s.countBelow k < depth) :
    s.treeBy s.children depth k = e := by
  refine Holds.induction
    (motive := fun k e => ∀ d, s.countBelow k < d → s.treeBy s.children d k = e) ?_ e h depth hdepth
  intro k c es hcell _ hbelow d hd
  obtain ⟨d, rfl⟩ := Nat.exists_eq_succ_of_ne_zero (Nat.ne_of_gt (Nat.zero_lt_of_lt hd))
  have hmap : c.children.map (s.treeBy s.children d) = es := by
    refine (map_eq_map_of_forall₂ (g := id) ?_).trans (List.map_id es)
    refine forall₂_imp_of_mem ?_ hbelow
    rintro j hj b ⟨hholds, htree⟩
    have hchild : s.Child k j := by rwa [Child, children_of_get? hcell]
    have hlt := countBelow_lt hchild hholds.known hholds.not_below_self
    exact htree d (hlt.trans_le (Nat.le_of_lt_succ hd))
  simp only [treeBy, hcell, children_of_get? hcell, hmap]

theorem Holds.tree_eq (h : Holds s lo k e) : s.tree k = e :=
  h.treeBy_eq (Nat.lt_succ_of_le (s.countBelow_le k))

/-- Where no element is below itself, every element is the root of a tree. -/
theorem holds_treeBy (known : ∀ p, ∀ c ∈ s.children p, c < s.cells.size)
    (acyclic : ∀ n, ¬ s.Below n n) (hk : k < s.cells.size) {depth : Nat}
    (hdepth : s.countBelow k < depth) : Holds s 0 k (s.treeBy s.children depth k) := by
  induction depth generalizing k with
  | zero => exact absurd hdepth (Nat.not_lt_zero _)
  | succ depth ih =>
    obtain ⟨c, hcell⟩ := exists_cell hk
    simp only [treeBy, hcell, children_of_get? hcell]
    refine .mk hcell (Nat.zero_le k) ?_
    rw [List.forall₂_map_right_iff, List.forall₂_same]
    intro j hj
    have hchild : s.Child k j := by rwa [Child, children_of_get? hcell]
    have hlt := countBelow_lt hchild (known k j hchild) (acyclic j)
    exact ih (known k j hchild) (hlt.trans_le (Nat.le_of_lt_succ hdepth))

theorem holds_tree (known : ∀ p, ∀ c ∈ s.children p, c < s.cells.size)
    (acyclic : ∀ n, ¬ s.Below n n) (hk : k < s.cells.size) : Holds s 0 k (s.tree k) :=
  holds_treeBy known acyclic hk (Nat.lt_succ_of_le (s.countBelow_le k))

/-! ## Stores that agree on a tree -/

/-- A tree still stands where all elements within it say what they said. -/
theorem Holds.frame (h : Holds s lo k e) (hsame : ∀ j, s.Within k j → t.content j = s.content j) :
    Holds t lo k e := by
  refine Holds.induction
    (motive := fun k e => (∀ j, s.Within k j → t.content j = s.content j) → Holds t lo k e)
    ?_ e h hsame
  intro k c es hcell hnew hbelow hsame
  have hk := hsame k .refl
  rw [content, content, hcell] at hk
  obtain ⟨d, hd, heq⟩ := Option.map_eq_some_iff.1 hk
  have hall : List.Forall₂ (Holds t lo) c.children es := by
    refine forall₂_imp_of_mem ?_ hbelow
    rintro j hj b ⟨-, hholds⟩
    have hchild : s.Child k j := by rwa [Child, children_of_get? hcell]
    exact hholds fun i hi => hsame i (.head hchild hi)
  have hcells : d.tag = c.tag ∧ d.attrs = c.attrs ∧ d.text = c.text ∧ d.line = c.line ∧
      d.children = c.children := by
    simpa [Cell.unlinked] using heq
  obtain ⟨htag, hattrs, htext, hline, hchildren⟩ := hcells
  rw [← hchildren] at hall
  have hholds := Holds.mk hd hnew hall
  rwa [htag, hattrs, htext, hline] at hholds

theorem Holds.frame_from (h : Holds s lo k e)
    (hsame : ∀ j, lo ≤ j → j < s.cells.size → t.content j = s.content j) : Holds t lo k e := by
  refine h.frame fun j hj => ?_
  obtain ⟨d, hd⟩ := h.within hj
  exact hsame j hd.lo_le hd.known

end

/-! ## Inserted trees -/

section

variable {s : Store} {n child j : Nat}

theorem get?_root (s : Store) (tag : String) (attrs : List Attr) (text : String) (line : Int) :
    (s.root tag attrs text line).get? j =
      if j = s.cells.size then some ⟨tag, attrs, text, line, none, 0, []⟩ else s.get? j := by
  unfold root setLine setText
  rw [get?_modify, get?_modify, get?_new]
  by_cases hj : j = s.cells.size
  · simp [hj]
  · simp [hj, Ne.symm hj]

theorem get?_append_of_ne (hn : j ≠ n) (hchild : j ≠ child) :
    (s.append n child).get? j = s.get? j := by
  rw [append_eq, get?_modify, if_neg (Ne.symm hn), link, get?_modify, if_neg (Ne.symm hchild)]

theorem get?_append_self {c : Cell} (hc : s.get? n = some c) {child : Nat} (hne : n ≠ child) :
    (s.append n child).get? n = some { c with children := c.children ++ [child] } := by
  rw [append_eq, get?_modify, if_pos rfl, link, get?_modify, if_neg (Ne.symm hne), hc,
    Option.map_some]

theorem get?_append_child {c : Cell} (hc : s.get? child = some c) (hne : n ≠ child) :
    (s.append n child).get? child =
      some { c with parent := some n, index := (s.children n).length } := by
  rw [append_eq, get?_modify, if_neg hne, link, get?_modify, if_pos rfl, hc, Option.map_some]

theorem content_modify {f : Cell → Cell} (hj : j ≠ n) :
    (s.modify n f).content j = s.content j := by
  rw [content, get?_modify, if_neg (Ne.symm hj), content]

theorem content_append (hn : j ≠ n) : (s.append n child).content j = s.content j := by
  unfold content
  rw [append_eq, get?_modify, if_neg (Ne.symm hn), link, get?_modify]
  split
  · cases s.get? j <;> rfl
  · rfl

end

theorem insertAll_cons (s : Store) (p : Nat) (e : Element) (es : List Element) :
    s.insertAll p (e :: es) = ((s.insert e).1.append p s.cells.size).insertAll p es := by
  rw [← (snd_insert_lt s e).1, insertAll]

mutual
/-- A tree that is inserted stands in new elements, and its root has no parent. The elements that were
there stay as they were. -/
theorem insert_spec (s : Store) : ∀ e : Element,
    (∀ j < s.cells.size, (s.insert e).1.get? j = s.get? j) ∧
      Holds (s.insert e).1 s.cells.size s.cells.size e ∧
      (s.insert e).1.place? s.cells.size = none
  | ⟨tag, attrs, text, line, children⟩ => by
    have hroot := get?_root (j := s.cells.size) s tag attrs text line
    rw [if_pos rfl] at hroot
    obtain ⟨hold, ks, hcell, hbelow⟩ := insertAll_spec hroot children
    have hinsert : (s.insert ⟨tag, attrs, text, line, children⟩).1 =
        (s.root tag attrs text line).insertAll s.cells.size children := by
      rw [Store.insert]
      rfl
    rw [size_root] at hold hbelow
    rw [hinsert]
    refine ⟨fun j hj => ?_, ?_, ?_⟩
    · rw [hold j (Nat.lt_succ_of_lt hj) (Nat.ne_of_lt hj), get?_root, if_neg (Nat.ne_of_lt hj)]
    · exact .mk hcell (Nat.le_refl _) (hbelow.imp fun _ _ h => h.mono (Nat.le_succ _))
    · rw [place?, hcell]
      rfl

theorem insertAll_spec {s : Store} {p : Nat} {c : Cell} (hp : s.get? p = some c) :
    ∀ es : List Element,
    (∀ j < s.cells.size, j ≠ p → (s.insertAll p es).get? j = s.get? j) ∧
      ∃ ks, (s.insertAll p es).get? p = some { c with children := c.children ++ ks } ∧
        List.Forall₂ (Holds (s.insertAll p es) s.cells.size) ks es
  | [] => ⟨fun _ _ _ => rfl, [], by simpa [insertAll] using hp, .nil⟩
  | e :: es => by
    obtain ⟨hold, hholds, -⟩ := insert_spec s e
    obtain ⟨hroot, hgrown⟩ := snd_insert_lt s e
    have hlt : p < s.cells.size := lt_of_get? hp
    have hp' := get?_append_self ((hold p hlt).trans hp) (Nat.ne_of_lt hlt)
    obtain ⟨hold', ks, hcell, hbelow⟩ := insertAll_spec hp' es
    rw [size_append] at hold' hbelow
    rw [insertAll_cons]
    refine ⟨fun j hj hne => ?_, s.cells.size :: ks, ?_, .cons ?_ ?_⟩
    · rw [hold' j (hj.trans hgrown) hne, get?_append_of_ne hne (Nat.ne_of_lt hj), hold j hj]
    · simpa using hcell
    · -- The later trees change only `p`, which is older than this tree.
      refine hholds.frame_from fun j hj hknown => ?_
      have hne : j ≠ p := by omega
      rw [content, hold' j hknown hne, ← content, content_append hne]
    · exact hbelow.imp fun _ _ h => h.mono (Nat.le_of_lt hgrown)
end

/-! ## Loaded trees -/

section

variable {s t : Store} {p : Nat} {c : Cell}

theorem get?_open (s : Store) (tag : String) (attrs : List Attr) (line : Int) (j : Nat) :
    ((s.new tag attrs).1.setLine s.cells.size line).get? j =
      if j = s.cells.size then some ⟨tag, attrs, "", line, none, 0, []⟩ else s.get? j := by
  rw [setLine, get?_modify, get?_new]
  by_cases hj : j = s.cells.size
  · simp [hj]
  · simp [hj, Ne.symm hj]

/-- The parent of an element that starts is linked to it, and no other element is touched. -/
theorem get?_start_below (hp : s.get? p = some c) (tag : String) (attrs : List Attr)
    (line : Int) :
    (∀ j < s.cells.size, j ≠ p →
        (s.start (some p) tag attrs line).1.get? j = s.get? j) ∧
      (s.start (some p) tag attrs line).1.get? p =
        some { c with children := c.children ++ [s.cells.size] } ∧
      ∃ i, (s.start (some p) tag attrs line).1.get? s.cells.size =
        some ⟨tag, attrs, "", line, some p, i, []⟩ := by
  have hlt := lt_of_get? hp
  have hopen := get?_open s tag attrs line
  refine ⟨fun j hj hne => ?_, ?_, _, get?_append_child ((hopen _).trans (if_pos rfl))
    (Nat.ne_of_lt hlt)⟩
  · exact (get?_append_of_ne hne (Nat.ne_of_lt hj)).trans
      ((hopen j).trans (if_neg (Nat.ne_of_lt hj)))
  · exact get?_append_self ((hopen p).trans ((if_neg (Nat.ne_of_lt hlt)).trans hp))
      (Nat.ne_of_lt hlt)

theorem holds_setText {n lo : Nat} {es : List Element} (hcell : t.get? n = some c) (hlo : n < lo)
    (hbelow : List.Forall₂ (Holds t lo) c.children es) (text : String) :
    Holds (t.setText n text) n n ⟨c.tag, c.attrs, text, c.line, es⟩ := by
  have hcell' : (t.setText n text).get? n = some { c with text := text } := by
    rw [setText, get?_modify, if_pos rfl, hcell, Option.map_some]
  refine .mk hcell' (Nat.le_refl n) (hbelow.imp fun k d hd => ?_)
  refine (hd.frame_from fun j hj _ => ?_).mono (Nat.le_of_lt hlo)
  exact content_modify (Nat.ne_of_gt (hlo.trans_le hj))

end

mutual
theorem load_below_spec {s : Store} {p : Nat} {c : Cell} (hp : s.get? p = some c) :
    ∀ e : Element,
    (∀ j < s.cells.size, j ≠ p → (s.load (some p) e).1.get? j = s.get? j) ∧
      (s.load (some p) e).1.get? p =
        some { c with children := c.children ++ [s.cells.size] } ∧
      Holds (s.load (some p) e).1 s.cells.size s.cells.size e
  | ⟨tag, attrs, text, line, children⟩ => by
    have hlt := lt_of_get? hp
    have hsize : (s.start (some p) tag attrs line).1.cells.size = s.cells.size + 1 :=
      size_start s (some p)
    obtain ⟨hold, hparent, i, hcell⟩ := get?_start_below hp tag attrs line
    obtain ⟨hold', ks, hroot, hbelow⟩ := loadAll_spec hcell children
    rw [hsize] at hold' hbelow
    rw [load_eq]
    refine ⟨fun j hj hne => ?_, ?_, holds_setText hroot (Nat.lt_succ_self _) hbelow text⟩
    · rw [setText, get?_modify, if_neg (Nat.ne_of_gt hj),
        hold' j (Nat.lt_succ_of_lt hj) (Nat.ne_of_lt hj), hold j hj hne]
    · rw [setText, get?_modify, if_neg (Nat.ne_of_gt hlt),
        hold' p (Nat.lt_succ_of_lt hlt) (Nat.ne_of_lt hlt), hparent]

theorem loadAll_spec {s : Store} {p : Nat} {c : Cell} (hp : s.get? p = some c) :
    ∀ es : List Element,
    (∀ j < s.cells.size, j ≠ p → (s.loadAll p es).get? j = s.get? j) ∧
      ∃ ks, (s.loadAll p es).get? p = some { c with children := c.children ++ ks } ∧
        List.Forall₂ (Holds (s.loadAll p es) s.cells.size) ks es
  | [] => ⟨fun _ _ _ => rfl, [], by simpa [loadAll] using hp, .nil⟩
  | e :: es => by
    have hlt := lt_of_get? hp
    have hgrown := (snd_load_lt s (some p) e).2
    obtain ⟨hold, hparent, hholds⟩ := load_below_spec hp e
    obtain ⟨hold', ks, hcell, hbelow⟩ := loadAll_spec hparent es
    rw [loadAll]
    refine ⟨fun j hj hne => ?_, s.cells.size :: ks, ?_, .cons ?_ ?_⟩
    · rw [hold' j (hj.trans hgrown) hne, hold j hj hne]
    · simpa using hcell
    · -- What is read later changes only `p`, which is older than this tree.
      refine hholds.frame_from fun j hj hknown => ?_
      rw [content, hold' j hknown (Nat.ne_of_gt (hlt.trans_le hj)), content]
    · exact hbelow.imp fun _ _ h => h.mono (Nat.le_of_lt hgrown)
end

/-- A document that is read stands in new elements, and its root has no parent. The elements that were
there stay as they were. -/
theorem load_spec (s : Store) : ∀ e : Element,
    (∀ j < s.cells.size, (s.load none e).1.get? j = s.get? j) ∧
      Holds (s.load none e).1 s.cells.size s.cells.size e ∧
      (s.load none e).1.place? s.cells.size = none
  | ⟨tag, attrs, text, line, children⟩ => by
    have hopen (j : Nat) : (s.start none tag attrs line).1.get? j = _ := get?_open s tag attrs line j
    have hsize : (s.start none tag attrs line).1.cells.size = s.cells.size + 1 := size_start s none
    obtain ⟨hold, ks, hroot, hbelow⟩ := loadAll_spec ((hopen _).trans (if_pos rfl)) children
    rw [hsize] at hold hbelow
    rw [load_eq]
    refine ⟨fun j hj => ?_, holds_setText hroot (Nat.lt_succ_self _) hbelow text, ?_⟩
    · rw [setText, get?_modify, if_neg (Nat.ne_of_gt hj),
        hold j (Nat.lt_succ_of_lt hj) (Nat.ne_of_lt hj), hopen, if_neg (Nat.ne_of_lt hj)]
    · have hnone : ((s.start none tag attrs line).1.loadAll s.cells.size children).place?
          s.cells.size = none := by
        rw [place?, hroot]
        rfl
      exact (place?_modify_of_eq (f := fun c => { c with text := text }) fun _ => ⟨rfl, rfl⟩).trans
        hnone

end Store

end BMethod
