import BMethod.Complaint
import BMethod.Element.Basic
import BMethod.Text.Blank
import BMethod.Text.Integer

/-!
# Parts that an element must have

Readers take elements apart by attributes and children that have to be there. What they find below
an element is smaller than it, so they can go on reading there.
-/

namespace BMethod.Element

/-- The elements that are smaller than an element, as all elements inside it are. -/
abbrev Inside (e : Element) := { c : Element // sizeOf c < sizeOf e }

def complain {α : Type} (e : Element) (c : Complaint) : Except Fault α :=
  throw (c.fault.locate e.position)

def lacks {α : Type} (e : Element) (child : String) : Except Fault α :=
  throw (.locate e.position (.missing child e.tag))

def needAttr (e : Element) (name : String) : Except Fault String :=
  match e.attr? name with
  | some v => pure v
  | none => e.complain (.noAttribute name)

/-- The value of an attribute that must be an integer, blanks around it aside. -/
def needInt (e : Element) (name : String) : Except Fault Int := do
  let v ← e.needAttr name
  match Text.readInt? (Text.trim v) with
  | some i => pure i
  | none => e.complain (.notInteger name v)

def firstInside? (e : Element) (tag : String) : Option e.Inside :=
  match h : e.first? tag with
  | some c => some ⟨c, sizeOf_lt_of_mem_children (mem_children_of_first? h)⟩
  | none => none

/-- The first child with a tag, which must be there. The empty tag stands for any. -/
def needChild (e : Element) (tag : String) : Except Fault e.Inside :=
  match e.firstInside? tag with
  | some c => pure c
  | none => e.lacks (if tag = "" then "*" else tag)

/-- The first element inside the child with a tag, both of which must be there. -/
def needInner (e : Element) (tag : String) : Except Fault e.Inside := do
  let wrapper ← e.needChild tag
  match wrapper.1.firstInside? "" with
  | some c => pure ⟨c.1, Nat.lt_trans c.2 wrapper.2⟩
  | none => e.lacks (tag ++ "/*")

/-- The fault of an element with fewer operands than its operator takes. -/
def lacksOperand {α : Type} (e : Element) : Except Fault α :=
  e.lacks ("operand " ++ toString (e.children.length + 1))

/-- The first child, as the operand of a unary operator. -/
def needOne (e : Element) : Except Fault e.Inside :=
  match h : e.children with
  | x :: _ => pure ⟨x, sizeOf_lt_of_mem_children (by simp [h])⟩
  | _ => e.lacksOperand

/-- The first two children, as operands of a binary operator. -/
def needTwo (e : Element) : Except Fault (e.Inside × e.Inside) :=
  match h : e.children with
  | x :: y :: _ =>
    pure (⟨x, sizeOf_lt_of_mem_children (by simp [h])⟩,
      ⟨y, sizeOf_lt_of_mem_children (by simp [h])⟩)
  | _ => e.lacksOperand

/-- The first three children, as operands of a ternary operator. -/
def needThree (e : Element) : Except Fault (e.Inside × e.Inside × e.Inside) :=
  match h : e.children with
  | x :: y :: z :: _ =>
    pure (⟨x, sizeOf_lt_of_mem_children (by simp [h])⟩,
      ⟨y, sizeOf_lt_of_mem_children (by simp [h])⟩,
      ⟨z, sizeOf_lt_of_mem_children (by simp [h])⟩)
  | _ => e.lacksOperand

end BMethod.Element
