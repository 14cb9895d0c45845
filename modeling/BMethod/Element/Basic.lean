import BMethod.Fault

/-!
# Elements

The ordered, labelled trees that documents are made of. An element has a tag, attributes, text and
child elements, and remembers the line of its document on which its start tag ended. Two elements
are the same when they agree in everything but their lines.
-/

namespace BMethod

structure Attr where
  name : String
  value : String
deriving DecidableEq

/-- An element of a document. Its line is zero when it is not known. -/
structure Element where
  tag : String
  attrs : List Attr := []
  text : String := ""
  line : Int := 0
  children : List Element := []

namespace Element

/-- An element with a tag, attributes and children, that comes from no document. -/
def node (tag : String) (attrs : List Attr) (children : List Element) : Element :=
  { tag := tag, attrs := attrs, children := children }

def wrap (tag : String) (children : List Element) : Element :=
  node tag [] children

def ofText (tag text : String) : Element :=
  { tag := tag, text := text }

def position (e : Element) : Position :=
  ⟨e.line, e.tag⟩

/-- The value of the first attribute with a name. -/
def attr? (e : Element) (name : String) : Option String :=
  (e.attrs.find? (·.name = name)).map (·.value)

/-- Whether an element has a tag; the empty tag stands for any. -/
def hasTag (tag : String) (e : Element) : Bool :=
  tag = "" || e.tag = tag

/-- The children with a tag, in order; all of them for the empty tag. -/
def childrenNamed (e : Element) (tag : String) : List Element :=
  e.children.filter (hasTag tag)

def first? (e : Element) (tag : String) : Option Element :=
  e.children.find? (hasTag tag)

end Element

/-- Gives an attribute a value. The first attribute of that name keeps its place; a new one goes to
the end. -/
def setAttr (name value : String) : List Attr → List Attr
  | [] => [⟨name, value⟩]
  | a :: as => if a.name = name then ⟨name, value⟩ :: as else a :: setAttr name value as

namespace Element

mutual
/-- Whether two elements agree in everything but their lines. -/
def same : Element → Element → Bool
  | ⟨tag, attrs, text, _, children⟩, ⟨tag', attrs', text', _, children'⟩ =>
    tag = tag' && text = text' && attrs = attrs' && sameAll children children'

/-- Whether two lists of elements agree in everything but the lines. -/
def sameAll : List Element → List Element → Bool
  | [], [] => true
  | x :: xs, y :: ys => same x y && sameAll xs ys
  | _, _ => false
end

/-! ## Children are smaller -/

theorem sizeOf_children_lt (e : Element) : sizeOf e.children < sizeOf e := by
  cases e
  simp only [Element.mk.sizeOf_spec]
  omega

theorem sizeOf_lt_of_mem_children {e c : Element} (h : c ∈ e.children) : sizeOf c < sizeOf e :=
  Nat.lt_trans (List.sizeOf_lt_of_mem h) e.sizeOf_children_lt

theorem mem_children_of_first? {e c : Element} {tag : String} (h : e.first? tag = some c) :
    c ∈ e.children :=
  List.mem_of_find?_eq_some h

end Element

end BMethod
