import Mathlib
import BMethod.Proofs.Goal.RoundTrip
import BMethod.Proofs.Subst.Outcome

/-!
# Outcomes of writing goals

The parts of a goal that may be refused, in the order in which they are written. Goals are written
in the same way on all pools, but for the numbers of types.
-/

namespace BMethod

def Goal.negatedParts : Goal → List Part
  | .compare op _ _ => [.negated op]
  | _ => []

mutual
def Goal.parts : Goal → List Part
  | .absent => [.noFormula]
  | .implies p q => p.parts ++ q.parts
  | .equiv p q => p.parts ++ q.parts
  | .compare _ x y => x.parts ++ y.parts
  | .not p => p.negatedParts ++ p.parts
  | .and ps => Goal.partsAll ps
  | .or ps => Goal.partsAll ps
  | .forAll vars body => TypedVar.parts vars ++ body.parts
  | .forSome vars body => TypedVar.parts vars ++ body.parts
  | .after s goal _ => s.parts ++ goal.parts
  | .possible s p => s.parts ++ p.parts
  | .tagged _ goal => goal.parts
  | .letFresh _ goal => goal.parts

def Goal.partsAll : List Goal → List Part
  | [] => []
  | p :: ps => p.parts ++ Goal.partsAll ps
end

theorem Goal.not_portable {p : Goal} (hne : ∀ op x y, p ≠ .compare op x y)
    (hp : p.write.Portable p.parts p.types) : (Goal.not p).write.Portable p.parts p.types := by
  rw [Goal.write_not hne]
  refine Write.Matched.bind_pure hp ?_
  intro us us' e e' he
  exact .group (.cons he .nil) (by simp)

mutual
theorem Goal.write_portable (g : Goal) : g.write.Portable g.parts g.types := by
  cases g with
  | absent => exact .throw .noFormula trivial []
  | implies p q =>
    refine p.write_portable.bind fun a a' => q.write_portable.bind_pure ?_
    intro us us' b b' hb ha
    exact .group (.cons ha (.cons hb .nil)) (by simp)
  | equiv p q =>
    refine p.write_portable.bind fun a a' => q.write_portable.bind_pure ?_
    intro us us' b b' hb ha
    exact .group (.cons ha (.cons hb .nil)) (by simp)
  | compare op x y =>
    refine x.write_portable.bind fun a a' => y.write_portable.bind_pure ?_
    intro us us' b b' hb ha
    exact .group (.cons ha (.cons hb .nil)) (by simp)
  | not p =>
    cases p with
    | compare op x y => exact Pred.not_compare_portable x.write_portable y.write_portable
    | _ => exact Goal.not_portable nofun (Goal.write_portable _)
  | and ps =>
    refine (Goal.writers_portable ps).bind_pure ?_
    intro us us' es es' hes
    exact .group hes (by simp)
  | or ps =>
    refine (Goal.writers_portable ps).bind_pure ?_
    intro us us' es es' hes
    exact .group hes (by simp)
  | forAll vars body =>
    refine (Write.typedVars_portable _ vars).bind fun v v' => body.write_portable.bind_pure ?_
    intro us us' b b' hb hv
    exact .group (.cons hv (.cons (.wrap (.cons hb .nil)) .nil)) (by simp)
  | forSome vars body =>
    refine (Write.typedVars_portable _ vars).bind fun v v' => body.write_portable.bind_pure ?_
    intro us us' b b' hb hv
    exact .group (.cons hv (.cons (.wrap (.cons hb .nil)) .nil)) (by simp)
  | after s goal overflow =>
    refine s.write_portable.bind fun a a' => goal.write_portable.bind_pure ?_
    intro us us' b b' hb ha
    exact .group (.cons ha (.cons hb .nil)) (by simp)
  | possible s p =>
    refine s.write_portable.bind fun a a' => p.write_portable.bind_pure ?_
    intro us us' b b' hb ha
    exact .wrap (.cons (.wrap (.cons ha (.cons (.wrap (.cons hb .nil)) .nil))) .nil)
  | tagged tag goal =>
    refine goal.write_portable.bind_pure ?_
    intro us us' e e' he
    exact .group (.cons he .nil) (by simp)
  | letFresh name goal =>
    refine goal.write_portable.bind_pure ?_
    intro us us' e e' he
    exact .group (.cons he .nil) (by simp)

theorem Goal.writers_portable (gs : List Goal) :
    (Write.all (Goal.writers gs)).PortableAll (Goal.partsAll gs) (Goal.typesAll gs) := by
  cases gs with
  | nil => exact .pure fun us us' => .nil
  | cons g gs =>
    refine g.write_portable.bind fun e e' => (Goal.writers_portable gs).bind_pure ?_
    intro us us' es es' hes he
    exact .cons he hes
end

end BMethod
