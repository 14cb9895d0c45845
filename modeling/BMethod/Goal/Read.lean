import BMethod.Goal.Basic
import BMethod.Subst.Read

/-!
# Reading goals

Goals share their connectives with predicates, but an empty conjunction or disjunction stays one,
and a tag is kept. A negation around a substitution, with a second negation inside it, is a goal of
its own.
-/

namespace BMethod

namespace Goal

def readOverflow (e : Element) : Except Fault Bool :=
  match e.attr? "overflow" with
  | none => pure false
  | some "true" => pure true
  | some "false" => pure false
  | some v => e.complain (.overflowMark v)

/-- Reads the negation of a substitution that establishes the negation of a predicate. -/
def readPossible (t : Table) (e : Element) : Except Fault Goal := do
  match e.first? "" with
  | none => e.complain .noCalculus
  | some sub =>
    if sub.tag ≠ "Sub_Calculus" then e.complain .noCalculus
    else
      match sub.children with
      | [] => sub.complain .noCalculusSubstitution
      | [_] => sub.complain .noInnerNegation
      | s :: negation :: _ =>
        if negation.tag ≠ "Not" then sub.complain .noInnerNegation
        else
          match negation.first? "" with
          | none => negation.complain .noNegatedPredicate
          | some p =>
            let s ← Subst.read t s
            let p ← Pred.read t p
            pure (.possible s p)

end Goal

mutual
def Goal.read (t : Table) (e : Element) : Except Fault Goal := do
  match ← Connective.read? t e with
  | some (.implies x y) =>
    let p ← Goal.read t x.1
    let q ← Goal.read t y.1
    pure (.implies p q)
  | some (.equiv x y) =>
    let p ← Goal.read t x.1
    let q ← Goal.read t y.1
    pure (.equiv p q)
  | some (.compare op negated x y) =>
    let a ← Expr.read t x.1
    let b ← Expr.read t y.1
    pure (if negated then .not (.compare op a b) else .compare op a b)
  | some (.not x) =>
    let p ← Goal.read t x.1
    pure (.not p)
  | some .and =>
    let ps ← Goal.readAll t e.children
    pure (.and ps)
  | some .or =>
    let ps ← Goal.readAll t e.children
    pure (.or ps)
  | some (.forAll vars x) =>
    let body ← Goal.read t x.1
    pure (.forAll vars body)
  | some (.forSome vars x) =>
    let body ← Goal.read t x.1
    pure (.forSome vars body)
  | none =>
    match e.tag with
    | "Sub_Calculus" =>
      let overflow ← Goal.readOverflow e
      let cs ← e.needTwo
      let s ← Subst.read t cs.1.1
      let goal ← Goal.read t cs.2.1
      pure (.after s goal overflow)
    | "Not" => Goal.readPossible t e
    | "Tag" =>
      let tag ← e.needAttr "goalTag"
      let c ← e.needChild ""
      let goal ← Goal.read t c.1
      pure (.tagged tag goal)
    | "Let_Fresh_Id" =>
      let name ← e.needAttr "name"
      let c ← e.needChild ""
      let goal ← Goal.read t c.1
      pure (.letFresh name goal)
    | tag => e.complain (.notPredicate tag)
termination_by sizeOf e
decreasing_by
  all_goals first
    | exact x.2
    | exact y.2
    | exact c.2
    | exact cs.2.2
    | exact e.sizeOf_children_lt

def Goal.readAll (t : Table) (es : List Element) : Except Fault (List Goal) := do
  match es with
  | [] => pure []
  | e :: es =>
    let p ← Goal.read t e
    let ps ← Goal.readAll t es
    pure (p :: ps)
termination_by sizeOf es
end

end BMethod
