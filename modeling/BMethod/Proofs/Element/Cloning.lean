import Mathlib
import BMethod.Proofs.Element.Agreement
import BMethod.Proofs.Element.Embedding
import BMethod.Proofs.Element.Navigation

/-!
# Copies

Copying makes a new root and appends to it the copies of the children, which it finds from sibling to
sibling. Where no element was appended twice or is below itself, this ends with the whole tree, in
elements that were not there before. What is then done with the elements of one of the two trees does
not show in the other.
-/

namespace BMethod.Store

/-! ## How copies are made -/

mutual
/-- Copying an element of a store ends with another store and the number of the copy. The children
are searched once the root of the copy is made. -/
inductive Copied : Store → Nat → Store → Nat → Prop where
  | root {s s' : Store} {n : Nat} {c : Cell} (cell : s.get? n = some c)
      (below : CopiedAll (s.root c.tag c.attrs c.text c.line) s.cells.size
        ((s.root c.tag c.attrs c.text c.line).first? n "") s') :
      Copied s n s' s.cells.size

/-- Copying an element, if there is one, and its next siblings to children of a parent ends with
another store. A sibling is searched once the copy of the one before is appended. -/
inductive CopiedAll : Store → Nat → Option Nat → Store → Prop where
  | done {s : Store} {parent : Nat} : CopiedAll s parent none s
  | next {s s₁ s' : Store} {parent n m : Nat} (copied : Copied s n s₁ m)
      (rest : CopiedAll (s₁.append parent m) parent ((s₁.append parent m).next? n "") s') :
      CopiedAll s parent (some n) s'
end

/-- A store has all elements of another one, as they were. -/
structure Extends (t s : Store) : Prop where
  size : s.cells.size ≤ t.cells.size
  kept : ∀ j < s.cells.size, t.get? j = s.get? j

namespace Extends

variable {s t : Store}

theorem refl (s : Store) : Extends s s :=
  ⟨Nat.le_refl _, fun _ _ => rfl⟩

theorem root (h : Extends t s) (tag : String) (attrs : List Attr) (text : String) (line : Int) :
    Extends (t.root tag attrs text line) s where
  size := by
    rw [size_root]
    exact Nat.le_succ_of_le h.size
  kept j hj := by
    rw [get?_root, if_neg (Nat.ne_of_lt (hj.trans_le h.size)), h.kept j hj]

theorem load (h : Extends t s) (e : Element) : Extends (t.load none e).1 s where
  size := h.size.trans (Nat.le_of_lt (snd_load_lt t none e).2)
  kept j hj := by rw [(load_spec t e).1 j (hj.trans_le h.size), h.kept j hj]

theorem insert (h : Extends t s) (e : Element) : Extends (t.insert e).1 s where
  size := h.size.trans (Nat.le_of_lt (snd_insert_lt t e).2)
  kept j hj := by rw [(insert_spec t e).1 j (hj.trans_le h.size), h.kept j hj]

theorem append (h : Extends t s) {n child : Nat} (hn : s.cells.size ≤ n)
    (hchild : s.cells.size ≤ child) : Extends (t.append n child) s where
  size := by rw [size_append]; exact h.size
  kept j hj := by
    rw [get?_append_of_ne (Nat.ne_of_lt (hj.trans_le hn)) (Nat.ne_of_lt (hj.trans_le hchild)),
      h.kept j hj]

theorem children (h : Extends t s) {n : Nat} (hn : n < s.cells.size) :
    t.children n = s.children n := by
  rw [Store.children, h.kept n hn, Store.children]

theorem place? (h : Extends t s) {n : Nat} (hn : n < s.cells.size) : t.place? n = s.place? n := by
  rw [Store.place?, h.kept n hn, Store.place?]

end Extends

section

variable {s t : Store} {past : List Nat} {lo : Nat}

theorem find?_any {ks : List Nat} (known : ∀ c ∈ ks, c < s.cells.size) :
    ks.find? (s.hasTag "") = ks.head? := by
  cases ks with
  | nil => rfl
  | cons c ks =>
    rw [List.find?_cons_of_pos (hasTag_any (known c List.mem_cons_self)), List.head?_cons]

theorem Extends.first?_any (h : Extends t s) (hl : Linked s past) {n : Nat}
    (hn : n < s.cells.size) : t.first? n "" = (s.children n).head? := by
  rw [first?, h.children hn]
  exact find?_any fun c hc => (hl.known n c hc).trans_le h.size

theorem Extends.next?_any (h : Extends t s) (hl : Linked s past) (hu : Unshared s past)
    {n c : Nat} (hn : n < s.cells.size) {before after : List Nat}
    (hchildren : s.children n = before ++ c :: after) : t.next? c "" = after.head? := by
  have hplace : t.place? c = some (n, before.length) :=
    (h.place? (hl.known n c (by simp [hchildren]))).trans (hu.place?_eq hchildren)
  rw [next?_of_place? hplace ((h.children hn).trans hchildren)]
  exact find?_any fun d hd => (hl.known n d (by simp [hchildren, hd])).trans_le h.size

mutual
/-- Copying the root of a tree inserts the tree, whatever elements there are besides. -/
theorem copied (hl : Linked s past) (hu : Unshared s past) {t : Store} (ht : Extends t s) :
    ∀ (e : Element) {n : Nat}, Holds s lo n e → Copied t n (t.insert e).1 t.cells.size
  | ⟨_, _, _, _, es⟩, n, .mk (c := c) hcell _ hbelow => by
    have hn := lt_of_get? hcell
    have hroot := ht.root c.tag c.attrs c.text c.line
    have hchildren : s.children n = [] ++ c.children := children_of_get? hcell
    have hall := copiedAll hl hu hroot hn ht.size es hchildren hbelow
    rw [← List.nil_append c.children, ← hchildren, ← hroot.first?_any hl hn] at hall
    exact .root ((ht.kept n hn).trans hcell) hall

theorem copiedAll (hl : Linked s past) (hu : Unshared s past) {t : Store} (ht : Extends t s)
    {n p : Nat} (hn : n < s.cells.size) (hp : s.cells.size ≤ p) :
    ∀ (es : List Element) {before ks : List Nat}, s.children n = before ++ ks →
      List.Forall₂ (Holds s lo) ks es → CopiedAll t p ks.head? (t.insertAll p es)
  | [], _, _, _, .nil => .done
  | e :: es, before, c :: ks, hchildren, .cons he hes => by
    have hnext : Extends ((t.insert e).1.append p t.cells.size) s :=
      (ht.insert e).append hp ht.size
    rw [List.append_cons] at hchildren
    have hrest := copiedAll hl hu hnext hn hp es hchildren hes
    rw [← List.append_cons] at hchildren
    rw [← hnext.next?_any hl hu hn hchildren] at hrest
    rw [insertAll_cons]
    exact .next (copied hl hu ht e he) hrest
end

end

/-! ## What calls change -/

/-- The element that a call changes. The children that are appended to it only get another place, and
new elements are not there before. -/
def Call.target? : Call → Option Nat
  | append n _ | setAttr n _ _ | setText n _ | setLine n _ => some n
  | new _ _ | decode _ | clone _ => none

section

variable {s t : Store} {c : Call} {j : Nat}

theorem Extends.content (h : Extends t s) (hj : j < s.cells.size) : t.content j = s.content j := by
  rw [Store.content, h.kept j hj, Store.content]

theorem size_appendAll (s : Store) (n : Nat) (children : List Nat) :
    (s.appendAll n children).cells.size = s.cells.size := by
  induction children generalizing s with
  | nil => rfl
  | cons c cs ih => exact (ih (s.append n c)).trans (size_append s n c)

theorem content_appendAll {n : Nat} (hj : j ≠ n) (children : List Nat) :
    (s.appendAll n children).content j = s.content j := by
  induction children generalizing s with
  | nil => rfl
  | cons c cs ih => exact (ih (s := s.append n c)).trans (content_append hj)

theorem extends_perform (hc : c.target? = none) : Extends (s.perform c) s := by
  cases c with
  | new tag attrs =>
    refine ⟨by simp [perform, Store.new], fun j hj => ?_⟩
    rw [perform, get?_new, if_neg (Nat.ne_of_lt hj)]
  | decode document =>
    simp only [perform]
    split
    · exact (Extends.refl s).load _
    · exact .refl s
  | clone n => exact (Extends.refl s).insert _
  | append | setAttr | setText | setLine => cases hc

theorem size_le_perform (s : Store) (c : Call) : s.cells.size ≤ (s.perform c).cells.size := by
  cases c with
  | append n children => exact (size_appendAll s n _).ge
  | setAttr | setText | setLine => exact size_modify.ge
  | new | decode | clone => exact (extends_perform rfl).size

theorem content_perform (hj : j < s.cells.size) (hc : c.target? ≠ some j) :
    (s.perform c).content j = s.content j := by
  have hne : ∀ {n}, some n ≠ some j → j ≠ n := fun h => Ne.symm (h ∘ congrArg some)
  cases c with
  | append n children => exact content_appendAll (hne hc) _
  | setAttr | setText | setLine => exact content_modify (hne hc)
  | new | decode | clone => exact (extends_perform rfl).content hj

theorem content_calls {calls : List Call} (hj : j < s.cells.size)
    (hcalls : ∀ c ∈ calls, c.target? ≠ some j) :
    (calls.foldl perform s).content j = s.content j := by
  induction calls generalizing s with
  | nil => rfl
  | cons c calls ih =>
    rw [List.forall_mem_cons] at hcalls
    rw [List.foldl_cons, ih (hj.trans_le (size_le_perform s c)) hcalls.2]
    exact content_perform hj hcalls.1

/-- A tree stays as it is during calls that change no element within it. -/
theorem Holds.calls {lo k : Nat} {e : Element} (h : Holds s lo k e) {calls : List Call}
    (hcalls : ∀ c ∈ calls, ∀ j, c.target? = some j → ¬ s.Within k j) :
    (calls.foldl perform s).tree k = e := by
  refine Holds.tree_eq (h.frame fun j hj => ?_)
  obtain ⟨d, hd⟩ := h.within hj
  exact content_calls hd.known fun c hc htarget => hcalls c hc j htarget hj

end

/-! ## Copies and their originals -/

/-- The element `m` of the store `t` is a copy of the element `n`, made in the store `s`. No element is
within both trees, so what changes elements of one of them changes none of the other. -/
structure CopyOf (s : Store) (n : Nat) (t : Store) (m : Nat) : Prop where
  copied : s.Copied n t m
  same : t.same (some n) (some m) = true
  tree : t.tree m = s.tree n
  original : t.tree n = s.tree n
  no_parent : t.place? m = none
  fresh : ∀ k, t.Within m k → s.cells.size ≤ k
  old : ∀ k, t.Within n k → k < s.cells.size
  original_kept : ∀ calls : List Call,
    (∀ c ∈ calls, ∀ k, c.target? = some k → ¬ t.Within n k) →
    (calls.foldl perform t).tree n = s.tree n
  copy_kept : ∀ calls : List Call,
    (∀ c ∈ calls, ∀ k, c.target? = some k → ¬ t.Within m k) →
    (calls.foldl perform t).tree m = s.tree n

section

variable {s t : Store} {past : List Nat} {n : Nat}

theorem Extends.within_lt (h : Extends t s) (hl : Linked s past) (hn : n < s.cells.size) {k : Nat}
    (hk : t.Within n k) : k < s.cells.size := by
  induction hk with
  | refl => exact hn
  | @tail p c _ hc hp => exact hl.known p c (h.children hp ▸ hc)

theorem linkedTree_eq (hl : Linked s past) (hu : Unshared s past) (n : Nat) :
    s.linkedTree n = s.tree n := by
  have hwalk : (s.walk · "") = s.children := funext (walk_any hl hu)
  rw [linkedTree, hwalk, tree]

theorem copyOf_insert (hl : Linked s past) (hu : Unshared s past) {e : Element}
    (he : Holds s 0 n e) : CopyOf s n (s.insert e).1 s.cells.size := by
  have hext := (Extends.refl s).insert e
  obtain ⟨-, hcopy, hroot⟩ := insert_spec s e
  have horiginal : Holds (s.insert e).1 0 n e := by
    refine he.frame fun j hj => hext.content ?_
    obtain ⟨d, hd⟩ := he.within hj
    exact hd.known
  have htree : s.tree n = e := he.tree_eq
  refine ⟨copied hl hu (.refl s) e he, ?_, ?_, ?_, hroot, ?_, ?_, ?_, ?_⟩
  · rw [same, horiginal.tree_eq, hcopy.tree_eq]
    exact e.same_self
  · rw [hcopy.tree_eq, htree]
  · rw [horiginal.tree_eq, htree]
  · intro k hk
    obtain ⟨d, hd⟩ := hcopy.within hk
    exact hd.lo_le
  · exact fun k => hext.within_lt hl he.known
  · exact fun calls hcalls => (horiginal.calls hcalls).trans htree.symm
  · exact fun calls hcalls => (hcopy.calls hcalls).trans htree.symm

end

/-- Where no element was appended twice or is below itself, a walk over the children of an element
meets those with the tag, in order, and copying the element ends with a tree that is the same, lines
included, has no parent and stands in new elements. Calls that change no element of the original leave
the original as it is, and calls that change no element of the copy leave the copy. -/
theorem clone_faithful {s : Store} {past : List Nat} (h : Reached s past) (once : past.Nodup)
    (acyclic : ∀ n, ¬ s.Below n n) {n : Nat} (hn : n < s.cells.size) :
    (∀ tag, s.walk n tag = (s.children n).filter (s.hasTag tag) ∧
      (∀ k, s.visited tag (s.first? n tag) k = ((s.children n).filter (s.hasTag tag))[k]?) ∧
      s.count n tag = ((s.children n).filter (s.hasTag tag)).length) ∧
    s.walk n "" = s.children n ∧
    ∃ t m, s.clone n = (t, m) ∧ CopyOf s n t m := by
  have hl := h.linked
  have hu := h.unshared once
  refine ⟨fun tag => ?_, walk_any hl hu n, (s.clone n).1, (s.clone n).2, rfl, ?_⟩
  · have hwalk := walk_eq hl hu n tag
    exact ⟨hwalk, fun k => by rw [← hwalk, hl.getElem?_walk], congrArg List.length hwalk⟩
  · rw [clone, linkedTree_eq hl hu, (snd_insert_lt _ _).1]
    exact copyOf_insert hl hu (holds_tree hl.known acyclic hn)

/-! ## A sample -/

theorem not_below_self_of_lt {s : Store} (hlt : ∀ p, ∀ c ∈ s.children p, c < p) (n : Nat) :
    ¬ s.Below n n := by
  have hbelow : ∀ {c}, s.Below n c → c < n := by
    intro c hc
    induction hc with
    | single hc => exact hlt _ _ hc
    | tail _ hc ih => exact (hlt _ _ hc).trans ih
  exact fun hself => Nat.lt_irrefl n (hbelow hself)

/-- Four elements: the last one has the third one as its child, which has the other two. -/
def sampleFamily : Store :=
  [.new "a" [], .new "b" [], .new "c" [⟨"k", "v"⟩], .new "d" [], .append 2 [some 0, none, some 1],
    .setLine 1 7, .append 3 [some 2]].foldl perform .empty

theorem sampleFamily_reached : Reached sampleFamily [0, 1, 2] := by
  have hmade : Reached ((((Store.empty.perform (.new "a" [])).perform (.new "b" [])).perform
      (.new "c" [⟨"k", "v"⟩])).perform (.new "d" [])) [] :=
    .call (.new "d" []) (by decide) (.call (.new "c" [⟨"k", "v"⟩]) (by decide)
      (.call (.new "b" []) (by decide) (.call (.new "a" []) (by decide) .empty)))
  exact .call (.append 3 [some 2]) (by decide) (.call (.setLine 1 7) (by decide)
    (.call (.append 2 [some 0, none, some 1]) (by decide) hmade))

theorem sampleFamily_not_below_self : ∀ n, ¬ sampleFamily.Below n n := by
  have hsize : sampleFamily.cells.size = 4 := by decide
  have hmade : ∀ p < 4, ∀ c ∈ sampleFamily.children p, c < p := by decide
  refine not_below_self_of_lt fun p c hc => ?_
  by_cases hp : p < 4
  · exact hmade p hp c hc
  · have hnone : sampleFamily.get? p = none := by
      simpa [get?, hsize] using hp
    simp [children, hnone] at hc

/-- The copy of the third element gets the fourth one as a child; the third one stays as it is. -/
theorem clone_faithful_sample :
    Reached sampleFamily [0, 1, 2] ∧ [0, 1, 2].Nodup ∧ (∀ n, ¬ sampleFamily.Below n n) ∧
      2 < sampleFamily.cells.size ∧ sampleFamily.walk 2 "b" = [1] ∧
      sampleFamily.walk 2 "" = [0, 1] ∧
      ∃ t m, sampleFamily.clone 2 = (t, m) ∧ CopyOf sampleFamily 2 t m ∧
        ([Call.setAttr 4 "k" "w", .setText 6 "x", .append 4 [some 3]].foldl perform t).tree 2 =
          sampleFamily.tree 2 := by
  have hn : 2 < sampleFamily.cells.size := by decide
  have hsize : sampleFamily.cells.size = 4 := by decide
  obtain ⟨hwalks, hany, t, m, hclone, hcopy⟩ :=
    clone_faithful sampleFamily_reached (by decide) sampleFamily_not_below_self hn
  refine ⟨sampleFamily_reached, by decide, sampleFamily_not_below_self, hn,
    (hwalks "b").1.trans (by decide), hany, t, m, hclone, hcopy, hcopy.original_kept _ ?_⟩
  -- All of them change elements that were not there before.
  intro c hc k htarget hwithin
  have hold := hcopy.old k hwithin
  simp only [List.mem_cons, List.not_mem_nil, or_false] at hc
  rcases hc with rfl | rfl | rfl <;> cases htarget <;> omega

end BMethod.Store
