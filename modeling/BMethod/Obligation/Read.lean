import BMethod.Expr.Read
import BMethod.Obligation.Basic

/-!
# Reading proof obligations

Every group of definitions and every obligation is read on its own. A document with faults is not
read; all its faults are reported, those of definitions first.
-/

namespace BMethod

namespace Obligations

def heading (e : Element) (name : String) : Except Fault String :=
  match e.attr? name with
  | some v => pure v
  | none => e.complain (.noHeading name)

def number (e : Element) : Except Fault Int := do
  let v ← heading e "num"
  match Text.readInt? v with
  | some i => pure i
  | none => e.complain (.badNumber v)

/-- The text of the first child with a tag, which must be there. -/
def textOf (e : Element) (tag : String) : Except Fault String :=
  match e.first? tag with
  | some c => pure c.text
  | none => e.lacks tag

def innerPred (t : Table) (e : Element) : Except Fault Pred := do
  let c ← e.needChild ""
  Pred.read t c.1

/-- The place of the type that an element refers to, after the types before it. -/
def collectType (t : Table) (e : Element) : StateT (List Ty) (Except Fault) String := do
  let ty ← t.typeOf e
  let types ← get
  set (types ++ [ty])
  pure (toString types.length)

def readSet (t : Table) (e : Element) : Except Fault SetDeclaration := do
  let (elem, types) ← (e.mapRefs (collectType t)).run []
  pure ⟨elem, types⟩

def readDefineItem (t : Table) (e : Element) : Except Fault DefineItem :=
  if e.tag = "Set" then .set <$> readSet t e else .pred <$> Pred.read t e

def readDefine (t : Table) (e : Element) : Except Fault Define := do
  let name ← heading e "name"
  let items ← e.children.mapM (readDefineItem t)
  pure ⟨name, items⟩

def readLocalHyp (t : Table) (e : Element) : Except Fault LocalHyp := do
  let num ← number e
  let p ← innerPred t e
  pure ⟨num, p⟩

def readGoal (t : Table) (e : Element) : Except Fault SimpleGoal := do
  let tag ← textOf e "Tag"
  let refs ← (e.childrenNamed "Ref_Hyp").mapM number
  let c ← e.needChild "Goal"
  let goal ← innerPred t c.1
  pure ⟨tag, refs, goal⟩

def readObligation (t : Table) (e : Element) : Except Fault Obligation := do
  let tag ← textOf e "Tag"
  let definitions ← (e.childrenNamed "Definition").mapM (heading · "name")
  let hypotheses ← (e.childrenNamed "Hypothesis").mapM (innerPred t)
  let localHyps ← (e.childrenNamed "Local_Hyp").mapM (readLocalHyp t)
  let goals ← (e.childrenNamed "Simple_Goal").mapM (readGoal t)
  pure ⟨tag, definitions, hypotheses, localHyps, goals⟩

end Obligations

def faultsOf {α : Type} (rs : List (Except Fault α)) : List Fault :=
  rs.filterMap fun
    | .error f => some f
    | .ok _ => none

def successesOf {α : Type} (rs : List (Except Fault α)) : List α :=
  rs.filterMap fun
    | .error _ => none
    | .ok a => some a

namespace Obligations

/-- Reads a document of proof obligations whose types are known. -/
def readBody (t : Table) (root : Element) : Except (List Fault) Obligations :=
  let defines := (root.childrenNamed "Define").map (readDefine t)
  let obligations := (root.childrenNamed "Proof_Obligation").map (readObligation t)
  match faultsOf defines ++ faultsOf obligations with
  | [] => pure ⟨successesOf defines, successesOf obligations⟩
  | fs => throw fs

def read (root : Element) : Except (List Fault) Obligations := do
  if root.tag ≠ rootTag then
    throw [(Complaint.notObligations rootTag root.tag).fault.locate root.position]
  else
    let t ← (Table.read root).mapError ([·])
    readBody t root

end Obligations

end BMethod
