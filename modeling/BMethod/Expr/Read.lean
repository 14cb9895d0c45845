import BMethod.Formula.Connective
import BMethod.Text.Fold
import BMethod.Ty.Declaration

/-!
# Reading expressions and predicates

Expressions and predicates are read from elements, with the types that their elements refer to. The
items of a record may come in any order and are put in the order of their labels. An empty
conjunction is truth and an empty disjunction falsity; a tag around a predicate is passed over.
-/

namespace BMethod

namespace Expr

def readConstant (t : Table) (e : Element) (kind : Constant) : Except Fault Expr := do
  let info ← Info.read t e
  pure (.constant info kind)

def readVariable (t : Table) (e : Element) : Except Fault Expr := do
  let name ← VarName.read e
  let info ← Info.read t e
  pure (.ident info name)

/-- Reads an identifier: the name of a constant or of a variable. -/
def readIdentifier (t : Table) (e : Element) : Except Fault Expr := do
  let value ← e.needAttr "value"
  match Constant.ofName? value with
  | some kind => readConstant t e kind
  | none => readVariable t e

def readBooleanLiteral (t : Table) (e : Element) : Except Fault Expr := do
  let value ← e.needAttr "value"
  if Text.isWord "TRUE" value then readConstant t e .truth
  else if Text.isWord "FALSE" value then readConstant t e .falsity
  else e.complain (.booleanLiteral value)

def readLiteral (t : Table) (e : Element) (make : Info → String → Expr) : Except Fault Expr := do
  let value ← e.needAttr "value"
  let info ← Info.read t e
  pure (make info value)

/-- Reads the operator of an expression from an attribute. -/
def readOperator {α : Type} (e : Element) (name : String) (ofSymbol? : String → Option α) :
    Except Fault α := do
  let symbol ← e.needAttr name
  match ofSymbol? symbol with
  | some op => pure op
  | none => e.complain (.expressionOperator symbol e.tag)

end Expr

mutual
def Expr.read (t : Table) (e : Element) : Except Fault Expr := do
  match e.tag with
  | "Id" => Expr.readIdentifier t e
  | "Fresh_Id" => Expr.readVariable t e
  | "Boolean_Literal" => Expr.readBooleanLiteral t e
  | "EmptySet" => Expr.readConstant t e .emptySet
  | "EmptySeq" => Expr.readConstant t e .emptySeq
  | "Integer_Literal" => Expr.readLiteral t e .integer
  | "STRING_Literal" => Expr.readLiteral t e .string
  | "String_Literal" => Expr.readLiteral t e .string
  | "Real_Literal" => Expr.readLiteral t e .ofRealText
  | "Unary_Exp" =>
    let op ← Expr.readOperator e "op" (Operator.ofSymbol? .unary)
    let info ← Info.read t e
    let c ← e.needOne
    let x ← Expr.read t c.1
    pure (.unary info op x)
  | "Binary_Exp" =>
    let op ← Expr.readOperator e "op" BinaryOp.ofSymbol?
    let info ← Info.read t e
    let cs ← e.needTwo
    let x ← Expr.read t cs.1.1
    let y ← Expr.read t cs.2.1
    pure (.binary info op x y)
  | "Ternary_Exp" =>
    let op ← Expr.readOperator e "op" (Operator.ofSymbol? .ternary)
    let info ← Info.read t e
    let cs ← e.needThree
    let x ← Expr.read t cs.1.1
    let y ← Expr.read t cs.2.1.1
    let z ← Expr.read t cs.2.2.1
    pure (.ternary info op x y z)
  | "Nary_Exp" =>
    let op ← Expr.readOperator e "op" (Operator.ofSymbol? .nary)
    let info ← Info.read t e
    let xs ← Expr.readAll t e.children
    pure (.nary info op xs)
  | "Boolean_Exp" =>
    let info ← Info.read t e
    let c ← e.needChild ""
    let p ← Pred.read t c.1
    pure (.bool info p)
  | "Struct" =>
    let info ← Info.read t e
    let items ← Expr.readItems t e.children
    Ty.checkLabels e (items.map (·.1))
    pure (.ofStructItems info items)
  | "Record" =>
    let info ← Info.read t e
    let items ← Expr.readItems t e.children
    Ty.checkLabels e (items.map (·.1))
    pure (.ofRecordItems info items)
  | "Quantified_Exp" =>
    let op ← Expr.readOperator e "type" (Operator.ofSymbol? .quantified)
    let info ← Info.read t e
    let vars ← TypedVar.readIn t e "Variables"
    let g ← e.needInner "Pred"
    let guard ← Pred.read t g.1
    let c ← e.needInner "Body"
    let body ← Expr.read t c.1
    pure (.quantified info op vars guard body)
  | "Quantified_Set" =>
    let info ← Info.read t e
    let vars ← TypedVar.readIn t e "Variables"
    let c ← e.needInner "Body"
    let body ← Pred.read t c.1
    pure (.comprehension info vars body)
  | "Record_Field_Access" =>
    let label ← e.needAttr "label"
    let info ← Info.read t e
    let c ← e.needOne
    let x ← Expr.read t c.1
    pure (.field info label x)
  | "Record_Update" =>
    let label ← e.needAttr "label"
    let info ← Info.read t e
    let cs ← e.needTwo
    let x ← Expr.read t cs.1.1
    let value ← Expr.read t cs.2.1
    pure (.update info label x value)
  | tag => e.complain (.notExpression tag)
termination_by sizeOf e
decreasing_by
  all_goals first
    | exact c.2
    | exact g.2
    | exact cs.1.2
    | exact cs.2.2
    | exact cs.2.1.2
    | exact cs.2.2.2
    | exact e.sizeOf_children_lt

def Expr.readAll (t : Table) (es : List Element) : Except Fault (List Expr) := do
  match es with
  | [] => pure []
  | e :: es =>
    let x ← Expr.read t e
    let xs ← Expr.readAll t es
    pure (x :: xs)
termination_by sizeOf es

/-- Reads the items of a record, passing over other elements. -/
def Expr.readItems (t : Table) (es : List Element) : Except Fault (List (String × Expr)) := do
  match es with
  | [] => pure []
  | e :: es =>
    if e.tag = "Record_Item" then
      let label ← e.needAttr "label"
      let c ← e.needChild ""
      let x ← Expr.read t c.1
      let items ← Expr.readItems t es
      pure ((label, x) :: items)
    else Expr.readItems t es
termination_by sizeOf es
decreasing_by
  · have := c.2
    simp only [List.cons.sizeOf_spec]
    omega
  all_goals simp only [List.cons.sizeOf_spec]; omega

def Pred.read (t : Table) (e : Element) : Except Fault Pred := do
  match ← Connective.read? t e with
  | some (.implies x y) =>
    let p ← Pred.read t x.1
    let q ← Pred.read t y.1
    pure (.implies p q)
  | some (.equiv x y) =>
    let p ← Pred.read t x.1
    let q ← Pred.read t y.1
    pure (.equiv p q)
  | some (.compare op negated x y) =>
    let a ← Expr.read t x.1
    let b ← Expr.read t y.1
    pure (if negated then .not (.compare op a b) else .compare op a b)
  | some (.not x) =>
    let p ← Pred.read t x.1
    pure (.not p)
  | some .and =>
    let ps ← Pred.readAll t e.children
    pure (if ps.isEmpty then .truth else .and ps)
  | some .or =>
    let ps ← Pred.readAll t e.children
    pure (if ps.isEmpty then .falsity else .or ps)
  | some (.forAll vars x) =>
    let body ← Pred.read t x.1
    pure (.forAll vars body)
  | some (.forSome vars x) =>
    let body ← Pred.read t x.1
    pure (.forSome vars body)
  | none =>
    if e.tag = "Tag" then
      let c ← e.needChild ""
      Pred.read t c.1
    else e.complain (.notPredicate e.tag)
termination_by sizeOf e
decreasing_by
  all_goals first
    | exact x.2
    | exact y.2
    | exact c.2
    | exact e.sizeOf_children_lt

def Pred.readAll (t : Table) (es : List Element) : Except Fault (List Pred) := do
  match es with
  | [] => pure []
  | e :: es =>
    let p ← Pred.read t e
    let ps ← Pred.readAll t es
    pure (p :: ps)
termination_by sizeOf es
end

end BMethod
