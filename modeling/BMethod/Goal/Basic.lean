import BMethod.Subst.Basic

/-!
# Goals

The formulas to prove in proof obligations before they are reduced to predicates: goals are built
like predicates, and can also apply a substitution, carry a tag or introduce a fresh identifier.
Every predicate can be lifted to a goal.
-/

namespace BMethod

inductive Goal where
  | absent
  | implies (p q : Goal)
  | equiv (p q : Goal)
  | compare (op : Comparison) (x y : Expr)
  | not (p : Goal)
  | and (ps : List Goal)
  | or (ps : List Goal)
  | forAll (vars : List TypedVar) (body : Goal)
  | forSome (vars : List TypedVar) (body : Goal)
  /-- A goal after a substitution; the flag asks to check arithmetic for overflow. -/
  | after (s : Subst) (goal : Goal) (overflow : Bool)
  /-- The substitution does not always establish the negation of the predicate. -/
  | possible (s : Subst) (p : Pred)
  | tagged (tag : String) (goal : Goal)
  | letFresh (name : String) (goal : Goal)

mutual
/-- A predicate as a goal. Truth is the empty conjunction and falsity the empty disjunction. -/
def Pred.lift : Pred → Goal
  | .absent => .absent
  | .truth => .and []
  | .falsity => .or []
  | .implies p q => .implies p.lift q.lift
  | .equiv p q => .equiv p.lift q.lift
  | .compare op x y => .compare op x y
  | .not p => .not p.lift
  | .and ps => .and (Pred.liftAll ps)
  | .or ps => .or (Pred.liftAll ps)
  | .forAll vars body => .forAll vars body.lift
  | .forSome vars body => .forSome vars body.lift

def Pred.liftAll : List Pred → List Goal
  | [] => []
  | p :: ps => p.lift :: Pred.liftAll ps
end

end BMethod
