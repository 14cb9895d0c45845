import BMethod.Element.Parts
import BMethod.Expr.Basic
import BMethod.Text.Split
import BMethod.Ty.Pool

/-!
# Types and variables in a document

Elements refer to their type by its number in the type table, and declare variables by name. The
tags of an expression are a list with commas between them.
-/

namespace BMethod

def Table.typeOf (t : Table) (e : Element) : Except Fault Ty :=
  match e.attr? "typref" with
  | none => e.complain .noTypeRef
  | some v =>
    match Text.readInt? (Text.trim v) with
    | none => e.complain (.typeRefNotInteger v)
    | some ref =>
      match t.at? ref with
      | none => e.complain (.typeRefOutOfRange ref t.size)
      | some ty => pure ty

/-- The tags of an element; empty entries are passed over. -/
def readTags (e : Element) : List String :=
  match e.attr? "tag" with
  | some v => (Text.split ',' v).filter (· ≠ "")
  | none => []

def Info.read (t : Table) (e : Element) : Except Fault Info := do
  let ty ← t.typeOf e
  pure ⟨ty, readTags e⟩

def VarName.read (e : Element) : Except Fault VarName := do
  match e.tag with
  | "Id" =>
    let stem ← e.needAttr "value"
    if (e.attr? "suffix").isNone then pure (.plain stem)
    else
      let suffix ← e.needInt "suffix"
      if suffix < 0 then e.complain (.negativeSuffix suffix) else pure (.suffixed stem suffix)
  | "Fresh_Id" =>
    let stem ← e.needAttr "ref"
    pure (.fresh stem)
  | tag => e.complain (.notVariable tag)

def TypedVar.read (t : Table) (e : Element) : Except Fault TypedVar := do
  let name ← VarName.read e
  let ty ← t.typeOf e
  pure ⟨name, ty⟩

def TypedVar.readAll (t : Table) (es : List Element) : Except Fault (List TypedVar) :=
  es.mapM (TypedVar.read t)

/-- Reads the variables declared in the child with a tag, which must be there. -/
def TypedVar.readIn (t : Table) (e : Element) (tag : String) : Except Fault (List TypedVar) := do
  let c ← e.needChild tag
  TypedVar.readAll t c.1.children

end BMethod
