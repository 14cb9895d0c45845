import BMethod.Expr.Write
import BMethod.Subst.Basic

/-!
# Writing substitutions

Parts that a substitution does not have are left out, and so are a true precondition and empty lists
of parameters. Witnesses are written in the order of their labels. The choices of a case distinction
are met before the value that they are chosen by.
-/

namespace BMethod

namespace Subst

def optionalVars (tag : String) (vars : List TypedVar) : Write (List Element) :=
  if vars.isEmpty then pure []
  else do
    let e ← Write.typedVars tag vars
    pure [e]

/-- Writes the inputs of a call, unless there are none. -/
def optionalInputs (xs : List Expr) : Write (List Element) :=
  if xs.isEmpty then pure []
  else do
    let es ← Write.all (Expr.writers xs)
    pure [.wrap "Input_Parameters" es]

/-- Writes a precondition, unless it is absent or true. -/
def optionalPrecondition : Pred → Write (List Element)
  | .absent => pure []
  | .truth => pure []
  | p => do
    let e ← p.write
    pure [.wrap "Precondition" [e]]

/-- Writes the equality of a variable and its witness. The type of the witness is met first. -/
def writeWitness (label : String) (x : Expr) : Write Element :=
  match x.info? with
  | none => throw (.crash .absentValue)
  | some info => do
    let r ← Write.typeRef info.ty
    let e ← x.write
    pure (.node "Exp_Comparison" [⟨"op", "="⟩] [.node "Id" [⟨"value", label⟩, r] [], e])

/-- Writes witnesses: one equality as it is, otherwise a conjunction. -/
def writeWitnesses (ws : List (String × Expr)) : Write Element := do
  let es ← Write.byLabel (ws.map fun w => (w.1, writeWitness w.1 w.2))
  match es with
  | [e] => pure e
  | es => pure (.node "Nary_Pred" [⟨"op", "&"⟩] es)

def writeValues (xs : List Expr) : Write (List Element) := do
  let es ← Write.all (Expr.writers xs)
  pure (es.map fun e => .wrap "Value" [e])

def isAbsent : Subst → Bool
  | absent => true
  | _ => false

/-- Writes the branch for when nothing else applies, unless there is none. -/
def elsePart (none : Bool) (branch : Write Element) : Write (List Element) :=
  if none then pure []
  else do
    let e ← branch
    pure [.wrap "Else" [e]]

end Subst

mutual
def Subst.write : Subst → Write Element
  | .absent => throw .absentSubstitution
  | .skip => pure (.wrap "Skip" [])
  | .block body => do
    let body ← body.write
    pure (.wrap "Bloc_Sub" [body])
  | .assert guard body precondition => do
    let guard ← guard.write
    let body ← body.write
    if precondition then
      pure (.wrap "PRE_Sub" [.wrap "Precondition" [guard], .wrap "Body" [body]])
    else pure (.wrap "Assert_Sub" [.wrap "Guard" [guard], .wrap "Body" [body]])
  | .ifThen cond body otherwise => do
    let cond ← cond.write
    let body ← body.write
    let otherwise ← Subst.elsePart otherwise.isAbsent otherwise.write
    pure (.wrap "If_Sub" ([.wrap "Condition" [cond], .wrap "Then" [body]] ++ otherwise))
  | .assign vars values => do
    let vars ← Write.typedVars "Variables" vars
    let values ← Write.all (Expr.writers values)
    pure (.wrap "Simple_Assignement_Sub" [vars, .wrap "Values" values])
  | .select whens otherwise => do
    let whens ← Write.all (Subst.whenWriters whens)
    let otherwise ← Subst.elsePart otherwise.isAbsent otherwise.write
    pure (.wrap "Select" (.wrap "When_Clauses" whens :: otherwise))
  | .case value choices otherwise => do
    let choices ← Write.all (Subst.choiceWriters choices)
    let value ← value.write
    let otherwise ← Subst.elsePart otherwise.isAbsent otherwise.write
    pure (.wrap "Case_Sub" ([.wrap "Value" [value], .wrap "Choices" choices] ++ otherwise))
  | .any vars guard body => do
    let vars ← Write.typedVars "Variables" vars
    let guard ← guard.write
    let body ← body.write
    pure (.wrap "ANY_Sub" [vars, .wrap "Pred" [guard], .wrap "Then" [body]])
  | .witness ws body => do
    let ws ← Subst.writeWitnesses ws
    let body ← body.write
    pure (.wrap "Witness" [.wrap "Witnesses" [ws], .wrap "Body" [body]])
  | .call name inputs outputs formalInputs formalOutputs pre body => do
    let inputs ← Subst.optionalInputs inputs
    let outputs ← Subst.optionalVars "Output_Parameters" outputs
    let formalOutputs ← Subst.optionalVars "Output_Parameters" formalOutputs
    let formalInputs ← Subst.optionalVars "Input_Parameters" formalInputs
    let pre ← Subst.optionalPrecondition pre
    let body ← body.write
    pure (.wrap "Operation_Call"
      (.wrap "Name" [.node "Id" [⟨"value", name⟩] []] :: (inputs ++ outputs ++
        [.node "Operation" [⟨"name", name⟩]
          (formalOutputs ++ formalInputs ++ pre ++ [.wrap "Body" [body]])])))
  | .while cond body invariant variant => do
    let cond ← cond.write
    let body ← body.write
    let invariant ← invariant.write
    let variant ← variant.write
    pure (.wrap "While" [.wrap "Condition" [cond], .wrap "Body" [body],
      .wrap "Invariant" [invariant], .wrap "Variant" [variant]])
  | .nary op parts => do
    let parts ← Write.all (Subst.writers parts)
    pure (.node "Nary_Sub" [⟨"op", op.symbol⟩] parts)

/-- The actions that write the branches of a selection. -/
def Subst.whenWriters : List (Pred × Subst) → List (Write Element)
  | [] => []
  | (guard, body) :: whens =>
    (do
      let guard ← guard.write
      let body ← body.write
      pure (.wrap "When" [.wrap "Condition" [guard], .wrap "Then" [body]])) ::
    Subst.whenWriters whens

/-- The actions that write the choices of a case distinction. -/
def Subst.choiceWriters : List (List Expr × Subst) → List (Write Element)
  | [] => []
  | (values, body) :: choices =>
    (do
      let values ← Subst.writeValues values
      let body ← body.write
      pure (.wrap "Choice" (values ++ [.wrap "Then" [body]]))) ::
    Subst.choiceWriters choices

/-- The actions that write the substitutions of a list. -/
def Subst.writers : List Subst → List (Write Element)
  | [] => []
  | s :: ss => s.write :: Subst.writers ss
end

end BMethod
