import Mathlib
import BMethod.Proofs.Expr.Normal
import BMethod.Subst.Write

/-!
# Well-formed substitutions

Which substitutions a document can hold, what they become when they are written and read again, and
the types that are met while they are written. Witnesses are given under labels, so their order does
not matter; in normal form they are sorted by label.
-/

namespace BMethod

/-! ## Well-formedness -/

mutual
/-- A substitution whose parts are well formed and are there, but for a branch for when nothing else
applies or a precondition. As many values are assigned as there are variables, a call has as many
parameters as the operation declares, and every choice has a value. -/
def Subst.WellFormed : Subst → Prop
  | .absent => False
  | .skip => True
  | .block body => body.WellFormed
  | .assert guard body _ => guard.WellFormed ∧ body.WellFormed
  | .ifThen cond body otherwise =>
    cond.WellFormed ∧ body.WellFormed ∧ (otherwise = .absent ∨ otherwise.WellFormed)
  | .assign vars values =>
    TypedVar.AllWellFormed vars ∧ Expr.AllWellFormed values ∧ vars.length = values.length
  | .select whens otherwise =>
    Subst.WhensWellFormed whens ∧ (otherwise = .absent ∨ otherwise.WellFormed)
  | .case value choices otherwise =>
    value.WellFormed ∧ Subst.ChoicesWellFormed choices ∧
      (otherwise = .absent ∨ otherwise.WellFormed)
  | .any vars guard body => TypedVar.AllWellFormed vars ∧ guard.WellFormed ∧ body.WellFormed
  | .witness ws body => (ws.map (·.1)).Nodup ∧ Expr.ItemsWellFormed ws ∧ body.WellFormed
  | .call _ inputs outputs formalInputs formalOutputs pre body =>
    Expr.AllWellFormed inputs ∧ TypedVar.AllWellFormed outputs ∧
      TypedVar.AllWellFormed formalInputs ∧ TypedVar.AllWellFormed formalOutputs ∧
      (pre = .absent ∨ pre.WellFormed) ∧ body.WellFormed ∧
      formalInputs.length = inputs.length ∧ formalOutputs.length = outputs.length
  | .while cond body invariant variant =>
    cond.WellFormed ∧ body.WellFormed ∧ invariant.WellFormed ∧ variant.WellFormed
  | .nary op parts => op.Declared ∧ Subst.AllWellFormed parts

def Subst.WhensWellFormed : List (Pred × Subst) → Prop
  | [] => True
  | (guard, body) :: whens => guard.WellFormed ∧ body.WellFormed ∧ Subst.WhensWellFormed whens

def Subst.ChoicesWellFormed : List (List Expr × Subst) → Prop
  | [] => True
  | (values, body) :: choices =>
    values ≠ [] ∧ Expr.AllWellFormed values ∧ body.WellFormed ∧ Subst.ChoicesWellFormed choices

def Subst.AllWellFormed : List Subst → Prop
  | [] => True
  | s :: ss => s.WellFormed ∧ Subst.AllWellFormed ss
end

/-! ## Normal forms -/

mutual
/-- The substitution with its expressions and predicates in normal form, and with truth for a
precondition that is not given. -/
def Subst.norm : Subst → Subst
  | .absent => .absent
  | .skip => .skip
  | .block body => .block body.norm
  | .assert guard body precondition => .assert guard.norm body.norm precondition
  | .ifThen cond body otherwise => .ifThen cond.norm body.norm otherwise.norm
  | .assign vars values => .assign vars (Expr.normAll values)
  | .select whens otherwise => .select (Subst.normWhens whens) otherwise.norm
  | .case value choices otherwise =>
    .case value.norm (Subst.normChoices choices) otherwise.norm
  | .any vars guard body => .any vars guard.norm body.norm
  | .witness ws body => .witness (sortByLabel (Expr.normItems ws)) body.norm
  | .call name inputs outputs formalInputs formalOutputs pre body =>
    .call name (Expr.normAll inputs) outputs formalInputs formalOutputs (Subst.givenPre pre).norm
      body.norm
  | .while cond body invariant variant =>
    .while cond.norm body.norm invariant.norm variant.norm
  | .nary op parts => .nary op (Subst.normAll parts)

def Subst.normWhens : List (Pred × Subst) → List (Pred × Subst)
  | [] => []
  | (guard, body) :: whens => (guard.norm, body.norm) :: Subst.normWhens whens

def Subst.normChoices : List (List Expr × Subst) → List (List Expr × Subst)
  | [] => []
  | (values, body) :: choices => (Expr.normAll values, body.norm) :: Subst.normChoices choices

def Subst.normAll : List Subst → List Subst
  | [] => []
  | s :: ss => s.norm :: Subst.normAll ss
end

/-! ## Types -/

/-- The types in an equality between a variable and its witness: the variable has the type of the
witness, and it is met first. -/
def Expr.witnessTypes (x : Expr) : List Ty :=
  match x.info? with
  | some info => [info.ty] ++ x.types
  | none => []

mutual
/-- The types in a substitution, in the order in which they are met. -/
def Subst.types : Subst → List Ty
  | .absent => []
  | .skip => []
  | .block body => body.types
  | .assert guard body _ => guard.types ++ body.types
  | .ifThen cond body otherwise => cond.types ++ (body.types ++ otherwise.types)
  | .assign vars values => vars.map (·.ty) ++ Expr.typesAll values
  | .select whens otherwise => Subst.whenTypes whens ++ otherwise.types
  | .case value choices otherwise =>
    Subst.choiceTypes choices ++ (value.types ++ otherwise.types)
  | .any vars guard body => vars.map (·.ty) ++ (guard.types ++ body.types)
  | .witness ws body => ((sortByLabel ws).flatMap fun w => w.2.witnessTypes) ++ body.types
  | .call _ inputs outputs formalInputs formalOutputs pre body =>
    Expr.typesAll inputs ++ (outputs.map (·.ty) ++ (formalOutputs.map (·.ty) ++
      (formalInputs.map (·.ty) ++ (pre.types ++ body.types))))
  | .while cond body invariant variant =>
    cond.types ++ (body.types ++ (invariant.types ++ variant.types))
  | .nary _ parts => Subst.typesAll parts

def Subst.whenTypes : List (Pred × Subst) → List Ty
  | [] => []
  | (guard, body) :: whens => (guard.types ++ body.types) ++ Subst.whenTypes whens

def Subst.choiceTypes : List (List Expr × Subst) → List Ty
  | [] => []
  | (values, body) :: choices => (Expr.typesAll values ++ body.types) ++ Subst.choiceTypes choices

def Subst.typesAll : List Subst → List Ty
  | [] => []
  | s :: ss => s.types ++ Subst.typesAll ss
end

namespace Subst

/-! ## Witnesses -/

/-- The element that is written for the equalities of witnesses. -/
def witnessElement : List Element → Element
  | [e] => e
  | es => .node "Nary_Pred" [⟨"op", "&"⟩] es

theorem writeWitnesses_eq (ws : List (String × Expr)) :
    writeWitnesses ws = (do
      let es ← Write.all ((sortByLabel ws).map fun w => writeWitness w.1 w.2)
      pure (witnessElement es)) := by
  unfold writeWitnesses Write.byLabel
  rw [sortByLabel_map, List.map_map]
  refine congrArg _ (funext fun es => ?_)
  match es with
  | [] | [_] | _ :: _ :: _ => rfl

end Subst

end BMethod
