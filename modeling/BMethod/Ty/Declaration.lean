import BMethod.Element.Parts
import BMethod.Ty.Pool

/-!
# Type declarations

A document declares its types in a `TypeInfos` element, one `Type` element after the other, each
with its number. A declaration holds a term: an identifier, a power set, a product or a record. The
name of a set other than the base types stands for the integers.
-/

namespace BMethod

namespace Ty

def ofName? : String → Option Ty
  | "INTEGER" => some .integer
  | "BOOL" => some .boolean
  | "FLOAT" => some .float
  | "REAL" => some .real
  | "STRING" => some .string
  | _ => none

def readIdentifier (e : Element) : Except Fault Ty := do
  let name ← e.needAttr "value"
  match ofName? name with
  | some t => pure t
  | none => if (e.attr? "suffix").isSome then e.complain (.suffixedSet name) else pure .integer

def checkOperator (e : Element) (wanted : String) : Except Fault Unit :=
  if e.attr? "op" = some wanted then pure ()
  else e.complain (.typeOperator wanted ((e.attr? "op").getD ""))

/-- Labels have to be different from each other. -/
def checkLabels (e : Element) (labels : List String) : Except Fault Unit :=
  match repeatedLabel? labels with
  | some l => e.complain (.repeatedLabel l)
  | none => pure ()

mutual
def readTerm (e : Element) : Except Fault Ty := do
  match e.tag with
  | "Id" => readIdentifier e
  | "Unary_Exp" =>
    checkOperator e "POW"
    let x ← e.needOne
    let t ← readTerm x.1
    pure (.power t)
  | "Binary_Exp" =>
    checkOperator e "*"
    let xs ← e.needTwo
    let t ← readTerm xs.1.1
    let u ← readTerm xs.2.1
    pure (.product t u)
  | "Struct" =>
    let fields ← readFields e.children
    checkLabels e (fields.map (·.1))
    pure (ofFields fields)
  | tag => e.complain (.typeTerm tag)
termination_by sizeOf e
decreasing_by
  · exact x.2
  · exact xs.1.2
  · exact xs.2.2
  · exact e.sizeOf_children_lt

/-- Reads the fields of a record type, passing over other elements. -/
def readFields (es : List Element) : Except Fault (List (String × Ty)) := do
  match es with
  | [] => pure []
  | c :: cs =>
    if c.tag = "Record_Item" then
      let label ← c.needAttr "label"
      let x ← c.needChild ""
      let t ← readTerm x.1
      let fields ← readFields cs
      pure ((label, t) :: fields)
    else readFields cs
termination_by sizeOf es
decreasing_by
  · have := x.2
    simp only [List.cons.sizeOf_spec]
    omega
  all_goals simp only [List.cons.sizeOf_spec]; omega
end

mutual
def term : Ty → Element
  | integer => .node "Id" [⟨"value", "INTEGER"⟩] []
  | boolean => .node "Id" [⟨"value", "BOOL"⟩] []
  | float => .node "Id" [⟨"value", "FLOAT"⟩] []
  | real => .node "Id" [⟨"value", "REAL"⟩] []
  | string => .node "Id" [⟨"value", "STRING"⟩] []
  | power elem => .node "Unary_Exp" [⟨"op", "POW"⟩] [elem.term]
  | product lhs rhs => .node "Binary_Exp" [⟨"op", "*"⟩] [lhs.term, rhs.term]
  | struct fields => .node "Struct" [] (fieldTerms fields)

def fieldTerms : List (String × Ty) → List Element
  | [] => []
  | (label, t) :: fields =>
    .node "Record_Item" [⟨"label", label⟩] [t.term] :: fieldTerms fields
end

end Ty

namespace Table

def readDeclaration (n : Nat) (e : Element) : Except Fault Ty := do
  if e.tag ≠ "Type" then e.complain .noDeclaration
  else
    match e.attr? "id" with
    | none => e.complain (.noId n)
    | some v =>
      match Text.readInt? v with
      | none => e.complain (.idNotInteger v)
      | some id =>
        if id ≠ n then e.complain (.idOutOfOrder n id)
        else
          let x ← e.needChild ""
          Ty.readTerm x.1

/-- Reads declarations, the first of which has the number `n`. -/
def readDeclarations (n : Nat) : List Element → Except Fault (List Ty)
  | [] => pure []
  | e :: es => do
    let t ← readDeclaration n e
    let ts ← readDeclarations (n + 1) es
    pure (t :: ts)

/-- The element that declares the types, given itself or its parent. -/
def declarations? (e : Element) : Option Element :=
  if e.tag = "TypeInfos" then some e else e.first? "TypeInfos"

/-- Reads the types that an element declares, or that are declared in it. -/
def read (e : Element) : Except Fault Table :=
  match declarations? e with
  | some d => Table.mk <$> readDeclarations 0 d.children
  | none => pure .empty

/-- The declarations of types, the first of which has the number `n`. -/
def declarationsFrom (n : Nat) : List Ty → List Element
  | [] => []
  | t :: ts => .node "Type" [⟨"id", toString n⟩] [t.term] :: declarationsFrom (n + 1) ts

end Table

def Pool.declarations (p : Pool) : Element :=
  .wrap "TypeInfos" (Table.declarationsFrom 0 p.types)

end BMethod
