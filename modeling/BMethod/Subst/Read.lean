import BMethod.Expr.Read
import BMethod.Subst.Basic

/-!
# Reading substitutions

The parts of a substitution are found by their tags, whatever their order and whatever stands
beside them. Witnesses are one equality or a conjunction of equalities, in any order.
-/

namespace BMethod

namespace Subst

def innerPred (t : Table) (e : Element) (tag : String) : Except Fault Pred := do
  let c ← e.needInner tag
  Pred.read t c.1

def innerExpr (t : Table) (e : Element) (tag : String) : Except Fault Expr := do
  let c ← e.needInner tag
  Expr.read t c.1

/-- The children of the first child with a tag, if there is one. -/
def optionalList (e : Element) (tag : String) : List Element :=
  match e.first? tag with
  | some c => c.children
  | none => []

def optionalPre (t : Table) (e : Element) : Except Fault Pred :=
  if (e.first? "Precondition").isSome then innerPred t e "Precondition" else pure .absent

def readAssignment (t : Table) (e : Element) : Except Fault Subst := do
  let vars ← TypedVar.readIn t e "Variables"
  let c ← e.needChild "Values"
  let values ← Expr.readAll t c.1.children
  (ofAssignment vars values).mapError (Fault.locate e.position)

/-- The elements of the equalities that give witnesses. -/
def equalities (e : Element) : Except Fault (List Element) :=
  match e.tag with
  | "Exp_Comparison" => pure [e]
  | "Nary_Pred" =>
    let op := (e.attr? "op").getD ""
    if op = "&" then pure e.children else e.complain (.witnessConnective op)
  | tag => e.complain (.notWitnesses tag)

/-- Reads an equality between a variable and its witness. -/
def readWitness (t : Table) (e : Element) : Except Fault (String × Expr) := do
  if e.tag ≠ "Exp_Comparison" then e.complain (.notEquality e.tag)
  else
    let op := (e.attr? "op").getD ""
    if op ≠ "=" then e.complain (.witnessComparison op)
    else
      let cs ← e.needTwo
      let id := cs.1.1
      if id.tag ≠ "Id" then id.complain (.notIdentifier id.tag)
      else
        let label ← id.needAttr "value"
        let value ← Expr.read t cs.2.1
        pure (label, value)

/-- Reads the witnesses of a substitution, which have to be for different variables. -/
def readWitnesses (t : Table) (e : Element) : Except Fault (List (String × Expr)) := do
  let c ← e.needInner "Witnesses"
  let es ← equalities c.1
  let ws ← es.mapM (readWitness t)
  Ty.checkLabels c.1 (ws.map (·.1))
  pure (sortByLabel ws)

/-- Reads the values of a choice, of which there has to be one. -/
def readValues (t : Table) (e : Element) : Except Fault (List Expr) := do
  let xs ← (e.childrenNamed "Value").mapM fun v => do
    let c ← v.needChild ""
    Expr.read t c.1
  if xs.isEmpty then e.lacks "Value" else pure xs

end Subst

mutual
def Subst.read (t : Table) (e : Element) : Except Fault Subst := do
  match e.tag with
  | "Skip" => pure .skip
  | "Bloc_Sub" =>
    let c ← e.needChild ""
    let body ← Subst.read t c.1
    pure (.block body)
  | "Assert_Sub" =>
    let guard ← Subst.innerPred t e "Guard"
    let c ← e.needInner "Body"
    let body ← Subst.read t c.1
    pure (.assert guard body false)
  | "PRE_Sub" =>
    let guard ← Subst.innerPred t e "Precondition"
    let c ← e.needInner "Body"
    let body ← Subst.read t c.1
    pure (.assert guard body true)
  | "If_Sub" =>
    let cond ← Subst.innerPred t e "Condition"
    let c ← e.needInner "Then"
    let body ← Subst.read t c.1
    let otherwise ← Subst.readElse t e
    pure (.ifThen cond body otherwise)
  | "Simple_Assignement_Sub" => Subst.readAssignment t e
  | "Select" =>
    let c ← e.needChild "When_Clauses"
    let whens ← Subst.readWhens t c.1.children
    let otherwise ← Subst.readElse t e
    pure (.select whens otherwise)
  | "Case_Sub" =>
    let value ← Subst.innerExpr t e "Value"
    let c ← e.needChild "Choices"
    let choices ← Subst.readChoices t c.1.children
    let otherwise ← Subst.readElse t e
    pure (.case value choices otherwise)
  | "ANY_Sub" =>
    let vars ← TypedVar.readIn t e "Variables"
    let guard ← Subst.innerPred t e "Pred"
    let c ← e.needInner "Then"
    let body ← Subst.read t c.1
    pure (.any vars guard body)
  | "Witness" =>
    let ws ← Subst.readWitnesses t e
    let c ← e.needInner "Body"
    let body ← Subst.read t c.1
    pure (.witness ws body)
  | "Operation_Call" =>
    let id ← e.needInner "Name"
    let name ← id.1.needAttr "value"
    let inputs ← Expr.readAll t (Subst.optionalList e "Input_Parameters")
    let outputs ← TypedVar.readAll t (Subst.optionalList e "Output_Parameters")
    let op ← e.needChild "Operation"
    let formalOutputs ← TypedVar.readAll t (Subst.optionalList op.1 "Output_Parameters")
    let formalInputs ← TypedVar.readAll t (Subst.optionalList op.1 "Input_Parameters")
    let pre ← Subst.optionalPre t op.1
    let c ← op.1.needInner "Body"
    let body ← Subst.read t c.1
    (Subst.ofCall name inputs outputs formalInputs formalOutputs pre body).mapError
      (Fault.locate e.position)
  | "While" =>
    let cond ← Subst.innerPred t e "Condition"
    let c ← e.needInner "Body"
    let body ← Subst.read t c.1
    let invariant ← Subst.innerPred t e "Invariant"
    let variant ← Subst.innerExpr t e "Variant"
    pure (.while cond body invariant variant)
  | "Nary_Sub" =>
    let op ← Expr.readOperator e "op" (Operator.ofSymbol? .compositions)
    let parts ← Subst.readAll t e.children
    pure (.nary op parts)
  | tag => e.complain (.notSubstitution tag)
termination_by (sizeOf e, 1)
decreasing_by
  all_goals first
    | exact Prod.Lex.left _ _ c.2
    | exact Prod.Lex.left _ _ (Nat.lt_trans c.2 op.2)
    | exact Prod.Lex.left _ _ e.sizeOf_children_lt
    | exact Prod.Lex.left _ _ (Nat.lt_trans c.1.sizeOf_children_lt c.2)
    | exact Prod.Lex.right _ Nat.one_pos

/-- Reads the branch for when nothing else applies, if there is one. -/
def Subst.readElse (t : Table) (e : Element) : Except Fault Subst := do
  if (e.first? "Else").isSome then
    let c ← e.needInner "Else"
    Subst.read t c.1
  else pure .absent
termination_by (sizeOf e, 0)
decreasing_by exact Prod.Lex.left _ _ c.2

/-- Reads the guarded branches of a selection, passing over other elements. -/
def Subst.readWhens (t : Table) (es : List Element) : Except Fault (List (Pred × Subst)) := do
  match es with
  | [] => pure []
  | e :: es =>
    if e.tag = "When" then
      let guard ← Subst.innerPred t e "Condition"
      let c ← e.needInner "Then"
      let body ← Subst.read t c.1
      let whens ← Subst.readWhens t es
      pure ((guard, body) :: whens)
    else Subst.readWhens t es
termination_by (sizeOf es, 0)
decreasing_by
  · have := c.2
    exact Prod.Lex.left _ _ (by simp only [List.cons.sizeOf_spec]; omega)
  all_goals exact Prod.Lex.left _ _ (by simp only [List.cons.sizeOf_spec]; omega)

/-- Reads the choices of a case distinction, passing over other elements. -/
def Subst.readChoices (t : Table) (es : List Element) :
    Except Fault (List (List Expr × Subst)) := do
  match es with
  | [] => pure []
  | e :: es =>
    if e.tag = "Choice" then
      let values ← Subst.readValues t e
      let c ← e.needInner "Then"
      let body ← Subst.read t c.1
      let choices ← Subst.readChoices t es
      pure ((values, body) :: choices)
    else Subst.readChoices t es
termination_by (sizeOf es, 0)
decreasing_by
  · have := c.2
    exact Prod.Lex.left _ _ (by simp only [List.cons.sizeOf_spec]; omega)
  all_goals exact Prod.Lex.left _ _ (by simp only [List.cons.sizeOf_spec]; omega)

def Subst.readAll (t : Table) (es : List Element) : Except Fault (List Subst) := do
  match es with
  | [] => pure []
  | e :: es =>
    let s ← Subst.read t e
    let ss ← Subst.readAll t es
    pure (s :: ss)
termination_by (sizeOf es, 0)
end

end BMethod
