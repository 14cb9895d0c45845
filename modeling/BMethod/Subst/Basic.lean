import BMethod.Complaint
import BMethod.Expr.Basic

/-!
# Substitutions

The generalised substitutions of the B method. A branch or a precondition that a substitution does
not have is `absent`; anywhere else an absent part cannot be written.
-/

namespace BMethod

inductive Subst where
  | absent
  | skip
  | block (body : Subst)
  /-- Runs its body if its guard holds; the flag tells a precondition from an assertion. -/
  | assert (guard : Pred) (body : Subst) (precondition : Bool)
  | ifThen (cond : Pred) (body otherwise : Subst)
  /-- Assigns values to as many variables at once. -/
  | assign (vars : List TypedVar) (values : List Expr)
  | select (whens : List (Pred × Subst)) (otherwise : Subst)
  | case (value : Expr) (choices : List (List Expr × Subst)) (otherwise : Subst)
  | any (vars : List TypedVar) (guard : Pred) (body : Subst)
  /-- Gives witness values, under different labels, to variables of its body. -/
  | witness (witnesses : List (String × Expr)) (body : Subst)
  /-- A call with the body of the called operation in it. -/
  | call (name : String) (inputs : List Expr) (outputs formalInputs formalOutputs : List TypedVar)
      (pre : Pred) (body : Subst)
  | while (cond : Pred) (body : Subst) (invariant : Pred) (variant : Expr)
  | nary (op : Composition) (parts : List Subst)

namespace Subst

/-- The assignment of values to variables, which have to be as many. -/
def ofAssignment (vars : List TypedVar) (values : List Expr) : Except Fault Subst :=
  if vars.length = values.length then pure (.assign vars values)
  else throw (Complaint.unequalAssignment vars.length values.length).fault

/-- A precondition that is not given is truth. -/
def givenPre : Pred → Pred
  | .absent => .truth
  | p => p

/-- The call of an operation with as many parameters as it declares. -/
def ofCall (name : String) (inputs : List Expr) (outputs formalInputs formalOutputs : List TypedVar)
    (pre : Pred) (body : Subst) : Except Fault Subst := do
  Arity.check
    { callee := name
      formalInputs := formalInputs.length
      inputs := inputs.length
      formalOutputs := formalOutputs.length
      outputs := outputs.length }
  pure (.call name inputs outputs formalInputs formalOutputs (givenPre pre) body)

end Subst

end BMethod
