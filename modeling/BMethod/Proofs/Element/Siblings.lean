import Mathlib
import BMethod.Element.Decode
import BMethod.Element.Store

/-!
# Links between siblings

Whatever is done with the elements of a store, an element with a parent stands at its place among
the children of the parent, and its next siblings were all appended after its own last time. Walking
from sibling to sibling therefore goes on in time. It ends without meeting an element twice, also
where an element is in several lists of children, or below itself.
-/

namespace BMethod.Store

/-! ## Calls -/

/-- What can be done with the elements of a store. They are given by their numbers; an absent child
is not appended. -/
inductive Call where
  | new (tag : String) (attrs : List Attr)
  | append (n : Nat) (children : List (Option Nat))
  | setAttr (n : Nat) (name value : String)
  | setText (n : Nat) (text : String)
  | setLine (n : Nat) (line : Int)
  | decode (document : List UInt8)
  | clone (n : Nat)

def Call.elements : Call → List Nat
  | new _ _ | decode _ => []
  | append n children => n :: children.reduceOption
  | setAttr n _ _ | setText n _ | setLine n _ | clone n => [n]

def appendAll (s : Store) (n : Nat) (children : List Nat) : Store :=
  children.foldl (·.append n) s

/-- The store after a call. A document that cannot be decoded adds nothing to it. The copy of an
element that is below itself would not end; here it is cut off, and the store goes on. -/
def perform (s : Store) : Call → Store
  | .new tag attrs => (s.new tag attrs).1
  | .append n children => s.appendAll n children.reduceOption
  | .setAttr n name value => s.setAttr n name value
  | .setText n text => s.setText n text
  | .setLine n line => s.setLine n line
  | .decode document =>
    match Element.decodeBytes document with
    | .ok e => (s.load none e).1
    | .error _ => s
  | .clone n => (s.clone n).1

/-- The elements that a later store has besides, in the order in which they were made. -/
def made (s t : Store) : List Nat :=
  List.range' s.cells.size (t.cells.size - s.cells.size)

mutual
/-- The elements that are appended while a tree is inserted, in order. -/
def insertLog (s : Store) : Element → List Nat
  | ⟨tag, attrs, text, line, children⟩ =>
    let (s, n) := s.new tag attrs
    insertAllLog ((s.setText n text).setLine n line) n children

def insertAllLog (s : Store) (parent : Nat) : List Element → List Nat
  | [] => []
  | e :: es =>
    let child := (s.insert e).2
    s.insertLog e ++ child :: insertAllLog ((s.insert e).1.append parent child) parent es
end

/-- The elements that a call appends, in order. Reading a document appends all that it makes, but for
the root, in the order of their starts. -/
def log (s : Store) : Call → List Nat
  | .append _ children => children.reduceOption
  | .decode document =>
    match Element.decodeBytes document with
    | .ok e => (s.made (s.load none e).1).tail
    | .error _ => []
  | .clone n => s.insertLog (s.linkedTree n)
  | _ => []

/-- The stores that calls lead to, each with the elements that were appended on the way, in order.
Every call is about elements that have been made. -/
inductive Reached : Store → List Nat → Prop
  | empty : Reached .empty []
  | call {s : Store} {past : List Nat} (c : Call) (known : ∀ n ∈ c.elements, n < s.cells.size)
      (hs : Reached s past) : Reached (s.perform c) (past ++ s.log c)

/-- When an element was last appended, counting from one; zero if it never was. -/
def lastTime (past : List Nat) (n : Nat) : Nat :=
  past.length - past.reverse.idxOf n

/-- The parent of an element and its place among the children. -/
def place? (s : Store) (n : Nat) : Option (Nat × Nat) :=
  (s.get? n).bind fun c => c.parent.map (·, c.index)

/-- The element that a walk over siblings meets after `k` others, if it goes on that long. -/
def visited (s : Store) (tag : String) (start : Option Nat) : Nat → Option Nat
  | 0 => start
  | k + 1 => (s.visited tag start k).bind (s.next? · tag)

/-! ## Times -/

theorem lastTime_le (past : List Nat) (n : Nat) : lastTime past n ≤ past.length :=
  Nat.sub_le _ _

theorem lastTime_append_self (past : List Nat) (n : Nat) :
    lastTime (past ++ [n]) n = past.length + 1 := by
  simp [lastTime]

theorem lastTime_append_of_ne {past : List Nat} {m n : Nat} (h : n ≠ m) :
    lastTime (past ++ [n]) m = lastTime past m := by
  simp [lastTime, List.idxOf_cons_ne _ h]

/-! ## Single elements -/

section
variable {s : Store} {f : Cell → Cell} {m n p : Nat}

@[simp] theorem size_modify : (s.modify n f).cells.size = s.cells.size := by
  simp [modify]

theorem get?_modify :
    (s.modify n f).get? m = if n = m then (s.get? m).map f else s.get? m := by
  simp [modify, get?, Array.getElem?_modify]

theorem get?_new (tag : String) (attrs : List Attr) :
    (s.new tag attrs).1.get? m =
      if m = s.cells.size then some ⟨tag, attrs, "", 0, none, 0, []⟩ else s.get? m := by
  simp [new, get?, Array.getElem?_push]

theorem exists_cell (h : n < s.cells.size) : ∃ c, s.get? n = some c :=
  ⟨s.cells[n], by simp [get?, h]⟩

theorem children_modify_of_eq (hf : ∀ c, (f c).children = c.children) :
    (s.modify n f).children p = s.children p := by
  unfold children
  rw [get?_modify]
  split
  · cases s.get? p <;> simp [hf]
  · rfl

theorem place?_modify_of_eq (hf : ∀ c, (f c).parent = c.parent ∧ (f c).index = c.index) :
    (s.modify n f).place? m = s.place? m := by
  unfold place?
  rw [get?_modify]
  split
  · cases s.get? m <;> simp [hf]
  · rfl

/-- The element as a child, before it is put into the list of children. -/
def link (s : Store) (n child : Nat) : Store :=
  s.modify child fun c => { c with parent := some n, index := (s.children n).length }

theorem append_eq (s : Store) (n child : Nat) :
    s.append n child =
      (s.link n child).modify n fun c => { c with children := c.children ++ [child] } := rfl

@[simp] theorem size_append (s : Store) (n child : Nat) :
    (s.append n child).cells.size = s.cells.size := by
  simp [append_eq, link]

theorem children_link (s : Store) (n child p : Nat) :
    (s.link n child).children p = s.children p :=
  children_modify_of_eq fun _ => rfl

theorem children_append (hn : n < s.cells.size) (child : Nat) :
    (s.append n child).children p =
      if p = n then s.children n ++ [child] else s.children p := by
  rw [append_eq, ← children_link s n child n, ← children_link s n child p]
  have hn' : n < (s.link n child).cells.size := by simpa [link] using hn
  obtain ⟨c, hc⟩ := exists_cell hn'
  unfold children
  rw [get?_modify]
  by_cases hp : p = n
  · subst hp
    simp [hc]
  · simp [hp, Ne.symm hp]

theorem place?_append {child : Nat} (hchild : child < s.cells.size) :
    (s.append n child).place? m =
      if m = child then some (n, (s.children n).length) else s.place? m := by
  have hkeep : (s.append n child).place? m = (s.link n child).place? m :=
    place?_modify_of_eq fun _ => ⟨rfl, rfl⟩
  obtain ⟨c, hc⟩ := exists_cell hchild
  rw [hkeep]
  unfold place? link
  rw [get?_modify]
  by_cases hm : m = child
  · subst hm
    simp [hc]
  · simp [hm, Ne.symm hm]

end

/-! ## Invariants of the links -/

/-- What holds of a store and of what was appended to it so far, if it speaks of the links only and
appending an element keeps it. -/
structure LinkInvariant (I : Store → List Nat → Prop) : Prop where
  empty : I .empty []
  of_links : ∀ {s s' : Store} {past : List Nat}, I s past → s.cells.size ≤ s'.cells.size →
    (∀ p, s'.children p = s.children p) → (∀ m, s'.place? m = s.place? m) → I s' past
  append : ∀ {s : Store} {past : List Nat} {n child : Nat}, I s past → n < s.cells.size →
    child < s.cells.size → I (s.append n child) (past ++ [child])

namespace LinkInvariant

variable {I : Store → List Nat → Prop} {s : Store} {past : List Nat}

theorem new (hI : LinkInvariant I) (h : I s past) (tag : String) (attrs : List Attr) :
    I (s.new tag attrs).1 past := by
  have hnone : s.get? s.cells.size = none := by simp [get?]
  refine hI.of_links h (by simp [Store.new]) ?_ ?_
  · intro p
    unfold children
    rw [get?_new]
    split
    · rename_i hp
      simp [hp, hnone]
    · rfl
  · intro m
    unfold place?
    rw [get?_new]
    split
    · rename_i hm
      simp [hm, hnone]
    · rfl

theorem modify (hI : LinkInvariant I) (h : I s past) {f : Cell → Cell} (n : Nat)
    (hf : ∀ c, (f c).parent = c.parent ∧ (f c).index = c.index ∧ (f c).children = c.children) :
    I (s.modify n f) past :=
  hI.of_links h (by simp) (fun _ => children_modify_of_eq fun c => (hf c).2.2)
    fun _ => place?_modify_of_eq fun c => ⟨(hf c).1, (hf c).2.1⟩

theorem setAttr (hI : LinkInvariant I) (h : I s past) (n : Nat) (name value : String) :
    I (s.setAttr n name value) past :=
  hI.modify (f := fun c => { c with attrs := BMethod.setAttr name value c.attrs }) h n
    fun _ => ⟨rfl, rfl, rfl⟩

theorem setText (hI : LinkInvariant I) (h : I s past) (n : Nat) (text : String) :
    I (s.setText n text) past :=
  hI.modify (f := fun c => { c with text := text }) h n fun _ => ⟨rfl, rfl, rfl⟩

theorem setLine (hI : LinkInvariant I) (h : I s past) (n : Nat) (line : Int) :
    I (s.setLine n line) past :=
  hI.modify (f := fun c => { c with line := line }) h n fun _ => ⟨rfl, rfl, rfl⟩

theorem appendAll (hI : LinkInvariant I) (h : I s past) {n : Nat} {children : List Nat}
    (hn : n < s.cells.size) (hchildren : ∀ c ∈ children, c < s.cells.size) :
    I (s.appendAll n children) (past ++ children) := by
  induction children generalizing s past with
  | nil => simpa [Store.appendAll] using h
  | cons c cs ih =>
    have hc := hI.append h hn (hchildren c List.mem_cons_self)
    rw [List.append_cons]
    refine ih hc (by rwa [size_append]) ?_
    intro d hd
    rw [size_append]
    exact hchildren d (List.mem_cons_of_mem c hd)

end LinkInvariant

/-! ## Trees -/

section
variable {s : Store} {past : List Nat}

def root (s : Store) (tag : String) (attrs : List Attr) (text : String) (line : Int) : Store :=
  (((s.new tag attrs).1.setText s.cells.size text).setLine s.cells.size line)

theorem size_root (tag : String) (attrs : List Attr) (text : String) (line : Int) :
    (s.root tag attrs text line).cells.size = s.cells.size + 1 := by
  simp [root, setText, setLine, new]

mutual
theorem snd_insert_lt (s : Store) : ∀ e : Element,
    (s.insert e).2 = s.cells.size ∧ s.cells.size < (s.insert e).1.cells.size
  | ⟨tag, attrs, text, line, children⟩ => by
    have hsize : _ = s.cells.size + 1 := size_root tag attrs text line
    have hall := size_le_insertAll (s.root tag attrs text line) s.cells.size children
    rw [insert]
    exact ⟨rfl, by rw [hsize] at hall; exact hall⟩

theorem size_le_insertAll (s : Store) (parent : Nat) : ∀ es : List Element,
    s.cells.size ≤ (s.insertAll parent es).cells.size
  | [] => Nat.le_refl _
  | e :: es => by
    have he := (snd_insert_lt s e).2
    have hall := size_le_insertAll ((s.insert e).1.append parent (s.insert e).2) parent es
    rw [size_append] at hall
    rw [insertAll]
    exact Nat.le_trans (Nat.le_of_lt he) hall
end

variable {I : Store → List Nat → Prop}

theorem LinkInvariant.root (hI : LinkInvariant I) (h : I s past) (tag : String)
    (attrs : List Attr) (text : String) (line : Int) : I (s.root tag attrs text line) past :=
  hI.setLine (hI.setText (hI.new h tag attrs) s.cells.size text) s.cells.size line

mutual
theorem LinkInvariant.insert {s : Store} {past : List Nat} (hI : LinkInvariant I) (h : I s past) :
    ∀ e : Element, I (s.insert e).1 (past ++ s.insertLog e)
  | ⟨tag, attrs, text, line, children⟩ => by
    rw [Store.insert, insertLog]
    refine hI.insertAll (hI.root h tag attrs text line) ?_ children
    rw [size_root]
    exact Nat.lt_succ_self _

theorem LinkInvariant.insertAll {s : Store} {past : List Nat} {parent : Nat}
    (hI : LinkInvariant I) (h : I s past) (hparent : parent < s.cells.size) :
    ∀ es : List Element, I (s.insertAll parent es) (past ++ s.insertAllLog parent es)
  | [] => by simpa [Store.insertAll, insertAllLog] using h
  | e :: es => by
    obtain ⟨hroot, hgrown⟩ := snd_insert_lt s e
    have hchild : (s.insert e).2 < (s.insert e).1.cells.size := by rw [hroot]; exact hgrown
    have happended := hI.append (hI.insert h e) (Nat.lt_trans hparent hgrown) hchild
    have hparent' : parent < ((s.insert e).1.append parent (s.insert e).2).cells.size := by
      rw [size_append]
      exact Nat.lt_trans hparent hgrown
    have hrest := hI.insertAll happended hparent' es
    rw [Store.insertAll, insertAllLog]
    simpa using hrest
end

end

/-! ## Documents -/

theorem made_trans {s t u : Store} (hst : s.cells.size ≤ t.cells.size)
    (htu : t.cells.size ≤ u.cells.size) : s.made t ++ t.made u = s.made u := by
  obtain ⟨m, hm⟩ := Nat.exists_eq_add_of_le hst
  obtain ⟨k, hk⟩ := Nat.exists_eq_add_of_le htu
  have hsum : s.cells.size + m + k - s.cells.size = m + k := by omega
  simp only [made, hk, hm, Nat.add_sub_cancel_left, hsum, List.range'_append_1]

theorem made_succ {s t : Store} (h : t.cells.size = s.cells.size + 1) :
    s.made t = [s.cells.size] := by
  simp [made, h]

section
variable {s : Store} {past : List Nat} {tag : String} {attrs : List Attr} {line : Int}

theorem load_eq (s : Store) (parent : Option Nat) (tag : String) (attrs : List Attr)
    (text : String) (line : Int) (children : List Element) :
    s.load parent ⟨tag, attrs, text, line, children⟩ =
      ((((s.start parent tag attrs line).1.loadAll s.cells.size children).setText s.cells.size text),
        s.cells.size) := by
  cases parent <;> rw [load] <;> rfl

theorem size_start (s : Store) (parent : Option Nat) :
    (s.start parent tag attrs line).1.cells.size = s.cells.size + 1 := by
  cases parent <;> simp [start, setLine, new]

theorem lt_size_start (s : Store) (parent : Option Nat) :
    s.cells.size < (s.start parent tag attrs line).1.cells.size := by
  rw [size_start]
  exact Nat.lt_succ_self _

mutual
theorem snd_load_lt (s : Store) (parent : Option Nat) : ∀ e : Element,
    (s.load parent e).2 = s.cells.size ∧ s.cells.size < (s.load parent e).1.cells.size
  | ⟨tag, attrs, text, line, children⟩ => by
    have hall := size_le_loadAll (s.start parent tag attrs line).1 s.cells.size children
    rw [size_start] at hall
    rw [load_eq]
    exact ⟨rfl, by simpa [setText] using hall⟩

theorem size_le_loadAll (s : Store) (parent : Nat) : ∀ es : List Element,
    s.cells.size ≤ (s.loadAll parent es).cells.size
  | [] => Nat.le_refl _
  | e :: es => by
    rw [loadAll]
    exact Nat.le_trans (Nat.le_of_lt (snd_load_lt s (some parent) e).2) (size_le_loadAll _ _ es)
end

namespace LinkInvariant

variable {I : Store → List Nat → Prop}

theorem start_below (hI : LinkInvariant I) (h : I s past) {parent : Nat}
    (hparent : parent < s.cells.size) (tag : String) (attrs : List Attr) (line : Int) :
    I (s.start (some parent) tag attrs line).1
      (past ++ s.made (s.start (some parent) tag attrs line).1) := by
  rw [made_succ (size_start s (some parent))]
  have hnew := hI.setLine (hI.new h tag attrs) s.cells.size line
  have hlt : s.cells.size < ((s.new tag attrs).1.setLine s.cells.size line).cells.size :=
    lt_size_start s none
  exact hI.append hnew (hparent.trans hlt) hlt

mutual
theorem load_below {s : Store} {past : List Nat} (hI : LinkInvariant I) (h : I s past) {parent : Nat}
    (hparent : parent < s.cells.size) : ∀ e : Element,
    I (s.load (some parent) e).1 (past ++ s.made (s.load (some parent) e).1)
  | ⟨tag, attrs, text, line, children⟩ => by
    -- The element is appended at its start, before all that is below it.
    have hstart := hI.start_below h hparent tag attrs line
    have hlt : s.cells.size < (s.start (some parent) tag attrs line).1.cells.size :=
      lt_size_start s (some parent)
    have hall := hI.loadAll hstart hlt children
    rw [List.append_assoc, made_trans hlt.le (size_le_loadAll _ _ children)] at hall
    have hend := hI.setText hall s.cells.size text
    rw [load_eq]
    simpa [made, Store.setText] using hend

theorem loadAll {s : Store} {past : List Nat} {parent : Nat} (hI : LinkInvariant I) (h : I s past)
    (hparent : parent < s.cells.size) : ∀ es : List Element,
    I (s.loadAll parent es) (past ++ s.made (s.loadAll parent es))
  | [] => by simpa [Store.loadAll, made] using h
  | e :: es => by
    have hgrown := (snd_load_lt s (some parent) e).2
    have hrest := hI.loadAll (hI.load_below h hparent e) (Nat.lt_trans hparent hgrown) es
    rw [List.append_assoc, made_trans (Nat.le_of_lt hgrown) (size_le_loadAll _ _ es)] at hrest
    exact hrest
end

theorem load (hI : LinkInvariant I) (h : I s past) :
    ∀ e : Element, I (s.load none e).1 (past ++ (s.made (s.load none e).1).tail)
  | ⟨tag, attrs, text, line, children⟩ => by
    have hstart : I (s.start none tag attrs line).1 past :=
      hI.setLine (hI.new h tag attrs) s.cells.size line
    have hlt : s.cells.size < (s.start none tag attrs line).1.cells.size := lt_size_start s none
    have hall := hI.setText (hI.loadAll hstart hlt children) s.cells.size text
    have hgrows := size_le_loadAll (s.start none tag attrs line).1 s.cells.size children
    have hmade : s.made (s.load none ⟨tag, attrs, text, line, children⟩).1 =
        s.cells.size ::
          (s.start none tag attrs line).1.made
            ((s.start none tag attrs line).1.loadAll s.cells.size children) := by
      have htrans := made_trans hlt.le hgrows
      rw [made_succ (size_start s none)] at htrans
      rw [load_eq]
      simpa [made, Store.setText] using htrans.symm
    rw [hmade, List.tail_cons, load_eq]
    exact hall

end LinkInvariant

end

/-! ## Whole runs -/

namespace LinkInvariant

variable {I : Store → List Nat → Prop} {s : Store} {past : List Nat}

theorem perform (hI : LinkInvariant I) (h : I s past) (c : Call)
    (known : ∀ n ∈ c.elements, n < s.cells.size) : I (s.perform c) (past ++ s.log c) := by
  cases c with
  | new tag attrs => exact (List.append_nil past).symm ▸ hI.new h tag attrs
  | append n children =>
    exact hI.appendAll h (known n List.mem_cons_self) fun c hc =>
      known c (List.mem_cons_of_mem n hc)
  | setAttr n name value => exact (List.append_nil past).symm ▸ hI.setAttr h n name value
  | setText n text => exact (List.append_nil past).symm ▸ hI.setText h n text
  | setLine n line => exact (List.append_nil past).symm ▸ hI.setLine h n line
  | decode document =>
    simp only [Store.perform, log]
    split
    · exact hI.load h _
    · simpa using h
  | clone n => exact hI.insert h _

/-- An invariant of the links holds of all stores that calls lead to. -/
theorem reached (hI : LinkInvariant I) (h : Reached s past) : I s past := by
  induction h with
  | empty => exact hI.empty
  | call c known _ ih => exact hI.perform ih c known

end LinkInvariant

/-! ## Times and places -/

/-- Every child is an element of the store, every element with a parent stands at its place, and the
siblings behind that place were appended after it. -/
structure Linked (s : Store) (past : List Nat) : Prop where
  known : ∀ p, ∀ c ∈ s.children p, c < s.cells.size
  placed : ∀ m p i, s.place? m = some (p, i) → (s.children p)[i]? = some m
  later : ∀ m p i j d, s.place? m = some (p, i) → i < j → (s.children p)[j]? = some d →
    lastTime past m < lastTime past d

theorem linked_empty : Linked .empty [] where
  known := by simp [children, get?, empty]
  placed := by simp [place?, get?, empty]
  later := by simp [place?, get?, empty]

namespace Linked

variable {s : Store} {past : List Nat}

theorem of_links {s' : Store} (h : Linked s past) (hsize : s.cells.size ≤ s'.cells.size)
    (hchildren : ∀ p, s'.children p = s.children p) (hplace : ∀ m, s'.place? m = s.place? m) :
    Linked s' past where
  known p c hc := by
    rw [hchildren] at hc
    exact Nat.lt_of_lt_of_le (h.known p c hc) hsize
  placed m p i hm := by
    rw [hplace] at hm
    rw [hchildren, h.placed m p i hm]
  later m p i j d hm hij hd := by
    rw [hplace] at hm
    rw [hchildren] at hd
    exact h.later m p i j d hm hij hd

theorem append (h : Linked s past) {n child : Nat} (hn : n < s.cells.size)
    (hchild : child < s.cells.size) : Linked (s.append n child) (past ++ [child]) where
  known p c hc := by
    rw [children_append hn] at hc
    rw [size_append]
    split at hc
    · rcases List.mem_append.1 hc with hc | hc
      · exact h.known n c hc
      · rwa [List.mem_singleton.1 hc]
    · exact h.known p c hc
  placed m p i hm := by
    rw [place?_append hchild] at hm
    rw [children_append hn]
    split at hm
    · rename_i heq
      cases hm
      simp [heq]
    · have hi := h.placed m p i hm
      split
      · rename_i heq
        subst heq
        rw [List.getElem?_append_left (List.getElem?_eq_some_iff.1 hi).1, hi]
      · exact hi
  later m p i j d hm hij hd := by
    rw [place?_append hchild] at hm
    rw [children_append hn] at hd
    split at hm
    · -- The child itself is now the last one, so no sibling stands behind it.
      cases hm
      have hj := (List.getElem?_eq_some_iff.1 hd).1
      simp at hj
      omega
    · rename_i hne
      rw [lastTime_append_of_ne (Ne.symm hne)]
      by_cases hd' : d = child
      · subst hd'
        rw [lastTime_append_self]
        exact Nat.lt_succ_of_le (lastTime_le past m)
      · rw [lastTime_append_of_ne (Ne.symm hd')]
        refine h.later m p i j d hm hij ?_
        split at hd
        · rename_i heq
          subst heq
          rw [List.getElem?_append] at hd
          split at hd
          · exact hd
          · exact absurd (List.mem_singleton.1 (List.mem_of_getElem? hd)) hd'
        · exact hd

end Linked

theorem linked_invariant : LinkInvariant Linked :=
  ⟨linked_empty, fun h => h.of_links, fun h => h.append⟩

theorem Reached.linked {s : Store} {past : List Nat} (h : Reached s past) : Linked s past :=
  linked_invariant.reached h

/-! ## Walks -/

namespace Linked

variable {s : Store} {past : List Nat} {tag : String} {start : Option Nat}

theorem next_later (h : Linked s past) {m d : Nat} (hd : s.next? m tag = some d) :
    d < s.cells.size ∧ lastTime past m < lastTime past d := by
  unfold next? at hd
  split at hd
  · cases hd
  · rename_i c hc
    split at hd
    · cases hd
    · rename_i p hp
      have hplace : s.place? m = some (p, c.index) := by simp [place?, hc, hp]
      have hmem := List.mem_of_find?_eq_some hd
      refine ⟨h.known p d (List.mem_of_mem_drop hmem), ?_⟩
      obtain ⟨j, hj⟩ := List.mem_iff_getElem?.1 hmem
      rw [List.getElem?_drop] at hj
      exact h.later m p c.index (c.index + 1 + j) d hplace (by omega) hj

theorem first_known (h : Linked s past) {n d : Nat} (hd : s.first? n tag = some d) :
    d < s.cells.size :=
  h.known n d (List.mem_of_find?_eq_some hd)

theorem visited_known (h : Linked s past) (hstart : ∀ d, start = some d → d < s.cells.size)
    {k d : Nat} (hd : s.visited tag start k = some d) : d < s.cells.size := by
  cases k with
  | zero => exact hstart d hd
  | succ k =>
    obtain ⟨m, -, hnext⟩ := Option.bind_eq_some_iff.1 hd
    exact (h.next_later hnext).1

/-- A walk goes on in time. -/
theorem visited_later (h : Linked s past) {i k m d : Nat} (hm : s.visited tag start i = some m)
    (hd : s.visited tag start (i + 1 + k) = some d) : lastTime past m < lastTime past d := by
  induction k generalizing d with
  | zero =>
    obtain ⟨m', hm', hnext⟩ := Option.bind_eq_some_iff.1 hd
    rw [hm] at hm'
    cases hm'
    exact (h.next_later hnext).2
  | succ k ih =>
    obtain ⟨d', hd', hnext⟩ := Option.bind_eq_some_iff.1 hd
    exact Nat.lt_trans (ih hd') (h.next_later hnext).2

theorem visited_injective (h : Linked s past) {i j m : Nat}
    (hi : s.visited tag start i = some m) (hj : s.visited tag start j = some m) : i = j := by
  rcases Nat.lt_trichotomy i j with hlt | heq | hgt
  · obtain ⟨k, rfl⟩ := Nat.exists_eq_add_of_lt hlt
    exact absurd (h.visited_later hi (by rwa [Nat.add_right_comm] at hj)) (Nat.lt_irrefl _)
  · exact heq
  · obtain ⟨k, rfl⟩ := Nat.exists_eq_add_of_lt hgt
    exact absurd (h.visited_later hj (by rwa [Nat.add_right_comm] at hi)) (Nat.lt_irrefl _)

end Linked

theorem exists_visited_of_le {s : Store} {tag : String} {start : Option Nat} {i j d : Nat}
    (hij : i ≤ j) (hd : s.visited tag start j = some d) : ∃ m, s.visited tag start i = some m := by
  induction hij generalizing d with
  | refl => exact ⟨d, hd⟩
  | step _ ih =>
    obtain ⟨m, hm, -⟩ := Option.bind_eq_some_iff.1 hd
    exact ih hm

namespace Linked

variable {s : Store} {past : List Nat} {tag : String} {start : Option Nat}

theorem visited_lt (h : Linked s past) (hstart : ∀ d, start = some d → d < s.cells.size) {k d : Nat}
    (hd : s.visited tag start k = some d) : k < s.cells.size := by
  have hmet : ∀ i ∈ Finset.range (k + 1), ∃ m, s.visited tag start i = some m := fun i hi =>
    exists_visited_of_le (Nat.le_of_lt_succ (Finset.mem_range.1 hi)) hd
  -- The elements that were met are all different, so there are no more of them than in the store.
  have hcard : (Finset.range (k + 1)).card ≤ (Finset.range s.cells.size).card := by
    refine Finset.card_le_card_of_injOn (fun i => (s.visited tag start i).getD 0) ?_ ?_
    · intro i hi
      obtain ⟨m, hm⟩ := hmet i hi
      simpa [hm] using h.visited_known hstart hm
    · intro i hi j hj hij
      obtain ⟨m, hm⟩ := hmet i hi
      obtain ⟨n, hn⟩ := hmet j hj
      simp only [hm, hn, Option.getD_some] at hij
      exact h.visited_injective hm (hij ▸ hn)
  simpa using hcard

end Linked

theorem visited_next (s : Store) (tag : String) (start : Option Nat) (k : Nat) :
    s.visited tag (start.bind (s.next? · tag)) k = s.visited tag start (k + 1) := by
  induction k with
  | zero => rfl
  | succ k ih =>
    rw [visited, ih]
    rfl

/-- A walk lists what is met, as far as its bound allows. -/
theorem getElem?_walkFrom (s : Store) (tag : String) (bound : Nat) (start : Option Nat) (k : Nat) :
    (s.walkFrom tag bound start)[k]? = if k < bound then s.visited tag start k else none := by
  fun_induction walkFrom s tag bound start generalizing k with
  | case1 bound =>
    have hnone : s.visited tag none k = none := by
      induction k with
      | zero => rfl
      | succ k ih => rw [visited, ih, Option.bind_none]
    simp [hnone]
  | case2 n => simp
  | case3 bound n ih =>
    cases k with
    | zero => simp [visited]
    | succ k =>
      have hnext := visited_next s tag (some n) k
      rw [Option.bind_some] at hnext
      simp [ih, hnext]

theorem Linked.getElem?_walk {s : Store} {past : List Nat} (h : Linked s past) (n : Nat)
    (tag : String) (k : Nat) : (s.walk n tag)[k]? = s.visited tag (s.first? n tag) k := by
  rw [walk, getElem?_walkFrom]
  split
  · rfl
  · rename_i hk
    cases hd : s.visited tag (s.first? n tag) k with
    | none => rfl
    | some d => exact absurd (h.visited_lt (fun _ => h.first_known) hd) hk

theorem length_walkFrom_le (s : Store) (tag : String) (bound : Nat) (start : Option Nat) :
    (s.walkFrom tag bound start).length ≤ bound := by
  fun_induction walkFrom s tag bound start with
  | case1 => exact Nat.zero_le _
  | case2 => exact Nat.le_refl 0
  | case3 bound n ih => exact Nat.succ_le_succ ih

/-- In every store that calls lead to, an element with a parent stands at its place among the
children of the parent, and the next sibling of an element was last appended after it. A walk over
children therefore ends, meets no element twice, and is no longer than the store is large; the list
of a walk holds all that is met. -/
theorem sibling_links {s : Store} {past : List Nat} (h : Reached s past) :
    (∀ m p i, s.place? m = some (p, i) →
      p < s.cells.size ∧ i < (s.children p).length ∧ (s.children p)[i]? = some m) ∧
    ∀ n tag,
      (∀ m d, s.next? m tag = some d → lastTime past m < lastTime past d) ∧
      (∃ k ≤ s.cells.size, s.visited tag (s.first? n tag) k = none) ∧
      (∀ i j m, s.visited tag (s.first? n tag) i = some m →
        s.visited tag (s.first? n tag) j = some m → i = j) ∧
      (∀ k, (s.walk n tag)[k]? = s.visited tag (s.first? n tag) k) ∧
      (s.walk n tag).length ≤ s.cells.size := by
  have h := h.linked
  constructor
  · intro m p i hplace
    have hi := h.placed m p i hplace
    refine ⟨?_, (List.getElem?_eq_some_iff.1 hi).1, hi⟩
    by_contra hp
    have hnone : s.get? p = none := by simpa [get?] using hp
    simp [children, hnone] at hi
  · intro n tag
    have hlength : (s.walk n tag).length ≤ s.cells.size := length_walkFrom_le s tag _ _
    refine ⟨fun m d hd => (h.next_later hd).2, ⟨_, hlength, ?_⟩, fun i j m => h.visited_injective,
      h.getElem?_walk n tag, hlength⟩
    rw [← h.getElem?_walk, List.getElem?_eq_none (Nat.le_refl _)]

/-- Four elements: the last one is below itself, and the second one is below the first and, since
later, below the third. -/
def sampleCalls : List Call :=
  [.new "a" [], .new "b" [], .new "c" [], .new "d" [], .append 3 [some 3], .append 0 [some 1],
    .append 2 [none, some 1, some 3]]

def sampleStore : Store :=
  sampleCalls.foldl perform .empty

theorem sampleStore_reached : Reached sampleStore [3, 1, 1, 3] := by
  have hmade : Reached ((((Store.empty.perform (.new "a" [])).perform (.new "b" [])).perform
      (.new "c" [])).perform (.new "d" [])) [] :=
    .call (.new "d" []) (by decide) (.call (.new "c" []) (by decide)
      (.call (.new "b" []) (by decide) (.call (.new "a" []) (by decide) .empty)))
  exact .call (.append 2 [none, some 1, some 3]) (by decide)
    (.call (.append 0 [some 1]) (by decide) (.call (.append 3 [some 3]) (by decide) hmade))

/-- A walk over the children of the first element goes on below the third one. -/
theorem sibling_links_sample :
    Reached sampleStore [3, 1, 1, 3] ∧ sampleStore.place? 1 = some (2, 0) ∧
      (sampleStore.children 2)[0]? = some 1 ∧ sampleStore.walk 0 "" = [1, 3] ∧
      lastTime [3, 1, 1, 3] 1 < lastTime [3, 1, 1, 3] 3 ∧
      ∃ k ≤ 4, sampleStore.visited "" (sampleStore.first? 0 "") k = none := by
  obtain ⟨hplaced, hwalk⟩ := sibling_links sampleStore_reached
  obtain ⟨hlater, hends, -⟩ := hwalk 0 ""
  exact ⟨sampleStore_reached, by decide, (hplaced 1 2 0 (by decide)).2.2, by decide,
    hlater 1 3 (by decide), hends⟩

end BMethod.Store
