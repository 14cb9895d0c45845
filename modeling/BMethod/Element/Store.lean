import BMethod.Element.Basic

/-!
# Elements under construction

A store holds elements that are still being built and changed, each under a number. An element knows
its parent and its place among the children of that parent, which is how its next sibling is found.
The same element may be appended several times: it is then in several lists of children, while its
own parent and place are those of the last time.

Printing and comparing follow the lists of children. Walking over siblings, and so copying, follows
the links to the next sibling.
-/

namespace BMethod

/-- An element in a store; its parent and children are given by their numbers. -/
structure Cell where
  tag : String
  attrs : List Attr
  text : String
  line : Int
  parent : Option Nat
  index : Nat
  children : List Nat

/-- A collection of elements, numbered in the order in which they were made. -/
structure Store where
  cells : Array Cell

namespace Store

def empty : Store :=
  ⟨#[]⟩

def get? (s : Store) (n : Nat) : Option Cell :=
  s.cells[n]?

/-- Makes an element without parent and children, with attributes of its own, and gives its number. -/
def new (s : Store) (tag : String) (attrs : List Attr) : Store × Nat :=
  (⟨s.cells.push ⟨tag, attrs, "", 0, none, 0, []⟩⟩, s.cells.size)

def modify (s : Store) (n : Nat) (f : Cell → Cell) : Store :=
  ⟨s.cells.modify n f⟩

def setAttr (s : Store) (n : Nat) (name value : String) : Store :=
  s.modify n fun c => { c with attrs := BMethod.setAttr name value c.attrs }

def setText (s : Store) (n : Nat) (text : String) : Store :=
  s.modify n fun c => { c with text := text }

def setLine (s : Store) (n : Nat) (line : Int) : Store :=
  s.modify n fun c => { c with line := line }

def children (s : Store) (n : Nat) : List Nat :=
  ((s.get? n).map (·.children)).getD []

/-- Appends a child to an element, which becomes the parent of the child. -/
def append (s : Store) (n child : Nat) : Store :=
  let linked := s.modify child fun c => { c with parent := some n, index := (s.children n).length }
  linked.modify n fun c => { c with children := c.children ++ [child] }

/-- Whether the element with a number has a tag; the empty tag stands for any. -/
def hasTag (s : Store) (tag : String) (n : Nat) : Bool :=
  match s.get? n with
  | some c => tag = "" || c.tag = tag
  | none => false

def first? (s : Store) (n : Nat) (tag : String) : Option Nat :=
  (s.children n).find? (s.hasTag tag)

/-- The next sibling with a tag: the first one after the place of the element among the children of
its parent. -/
def next? (s : Store) (n : Nat) (tag : String) : Option Nat :=
  match s.get? n with
  | none => none
  | some c =>
    match c.parent with
    | none => none
    | some p => ((s.children p).drop (c.index + 1)).find? (s.hasTag tag)

/-- An element and its next siblings with a tag, at most `bound` of them in all. -/
def walkFrom (s : Store) (tag : String) : Nat → Option Nat → List Nat
  | _, none => []
  | 0, some _ => []
  | bound + 1, some n => n :: s.walkFrom tag bound (s.next? n tag)

/-- The children of an element with a tag, as found by walking from the first one to its next
siblings. No element is met twice, so the number of elements bounds the walk. -/
def walk (s : Store) (n : Nat) (tag : String) : List Nat :=
  s.walkFrom tag s.cells.size (s.first? n tag)

/-- The number of children of an element with a tag, as a walk meets them. -/
def count (s : Store) (n : Nat) (tag : String) : Nat :=
  (s.walk n tag).length

/-- An element as a tree of a depth, with the children that `below` gives. -/
def treeBy (s : Store) (below : Nat → List Nat) : Nat → Nat → Element
  | 0, _ => { tag := "" }
  | depth + 1, n =>
    match s.get? n with
    | none => { tag := "" }
    | some c =>
      { tag := c.tag
        attrs := c.attrs
        text := c.text
        line := c.line
        children := (below n).map (s.treeBy below depth) }

/-- An element as a tree, by the lists of children. An element that is not below itself is no deeper
than the number of elements. -/
def tree (s : Store) (n : Nat) : Element :=
  s.treeBy s.children (s.cells.size + 1) n

/-- An element as a tree, by the links between siblings. -/
def linkedTree (s : Store) (n : Nat) : Element :=
  s.treeBy (s.walk · "") (s.cells.size + 1) n

/-- What the start of an element in a document does: it makes the element and appends it to its
parent, if it has one. -/
def start (s : Store) (parent : Option Nat) (tag : String) (attrs : List Attr) (line : Int) :
    Store × Nat :=
  let (s, n) := s.new tag attrs
  let s := s.setLine n line
  match parent with
  | some p => (s.append p n, n)
  | none => (s, n)

mutual
/-- Makes new elements for a tree that is read from a document, and gives the number of its root. What
is below an element is made after its start, and its text is known at its end. -/
def load (s : Store) (parent : Option Nat) : Element → Store × Nat
  | ⟨tag, attrs, text, line, children⟩ =>
    let (s, n) := s.start parent tag attrs line
    ((loadAll s n children).setText n text, n)

def loadAll (s : Store) (parent : Nat) : List Element → Store
  | [] => s
  | e :: es => loadAll (s.load (some parent) e).1 parent es
end

mutual
/-- Makes new elements for a tree that is copied, and gives the number of its root. An element is
appended to its parent when all that is below it has been made. -/
def insert (s : Store) : Element → Store × Nat
  | ⟨tag, attrs, text, line, children⟩ =>
    let (s, n) := s.new tag attrs
    (insertAll ((s.setText n text).setLine n line) n children, n)

def insertAll (s : Store) (parent : Nat) : List Element → Store
  | [] => s
  | e :: es =>
    let (s, child) := s.insert e
    insertAll (s.append parent child) parent es
end

def clone (s : Store) (n : Nat) : Store × Nat :=
  s.insert (s.linkedTree n)

/-- Whether two elements, or their absence, are the same but for their lines. -/
def same (s : Store) : Option Nat → Option Nat → Bool
  | some x, some y => (s.tree x).same (s.tree y)
  | none, none => true
  | _, _ => false

end Store

end BMethod
