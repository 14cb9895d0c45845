import BMethod.Goal.Basic
import BMethod.Subst.Write

/-!
# Writing goals

Goals are written like predicates where they are built like them.
-/

namespace BMethod

mutual
def Goal.write : Goal → Write Element
  | .absent => throw .absentFormula
  | .implies p q => do
    let p ← p.write
    let q ← q.write
    pure (.node "Binary_Pred" [⟨"op", "=>"⟩] [p, q])
  | .equiv p q => do
    let p ← p.write
    let q ← q.write
    pure (.node "Binary_Pred" [⟨"op", "<=>"⟩] [p, q])
  | .compare op x y => do
    let x ← x.write
    let y ← y.write
    pure (.node "Exp_Comparison" [⟨"op", op.symbol⟩] [x, y])
  | .not (.compare op x y) => do
    let negated ← Write.negatedSymbol? op
    let x ← x.write
    let y ← y.write
    pure (Write.negation op negated x y)
  | .not p => do
    let p ← p.write
    pure (.node "Unary_Pred" [⟨"op", "not"⟩] [p])
  | .and ps => do
    let ps ← Write.all (Goal.writers ps)
    pure (.node "Nary_Pred" [⟨"op", "&"⟩] ps)
  | .or ps => do
    let ps ← Write.all (Goal.writers ps)
    pure (.node "Nary_Pred" [⟨"op", "or"⟩] ps)
  | .forAll vars body => do
    let vars ← Write.typedVars "Variables" vars
    let body ← body.write
    pure (.node "Quantified_Pred" [⟨"type", "!"⟩] [vars, .wrap "Body" [body]])
  | .forSome vars body => do
    let vars ← Write.typedVars "Variables" vars
    let body ← body.write
    pure (.node "Quantified_Pred" [⟨"type", "#"⟩] [vars, .wrap "Body" [body]])
  | .after s goal overflow => do
    let s ← s.write
    let goal ← goal.write
    pure (.node "Sub_Calculus" [⟨"overflow", if overflow then "true" else "false"⟩] [s, goal])
  | .possible s p => do
    let s ← s.write
    let p ← p.write
    pure (.wrap "Not" [.wrap "Sub_Calculus" [s, .wrap "Not" [p]]])
  | .tagged tag goal => do
    let goal ← goal.write
    pure (.node "Tag" [⟨"goalTag", tag⟩] [goal])
  | .letFresh name goal => do
    let goal ← goal.write
    pure (.node "Let_Fresh_Id" [⟨"name", name⟩] [goal])

def Goal.writers : List Goal → List (Write Element)
  | [] => []
  | p :: ps => p.write :: Goal.writers ps
end

end BMethod
