import BMethod.Obligation.Read
import BMethod.Obligation.Write
import BMethod.Subst.Read

/-!
# Checking a document

A document of proof obligations is checked by reading it, and normalised by writing it again. Any
other document is a component, whose sections are read and which is kept as it is: some sections
hold predicates, the initialisation holds substitutions, and operations have a body and may have a
precondition.
-/

namespace BMethod.Check

def predicateSections : List String :=
  ["Constraints", "Properties", "Invariant", "Assertions", "Values"]

def operationSections : List String :=
  ["Operations", "Local_Operations"]

/-- The elements inside all sections with a tag. -/
def sectionContents (root : Element) (tag : String) : List Element :=
  (root.childrenNamed tag).flatMap (·.children)

def checked {α : Type} (r : Except Fault α) : Except Fault Unit :=
  r.map fun _ => ()

/-- Checks an operation: the predicates of its precondition, then its body. -/
def checkOperation (t : Table) (op : Element) : Except Fault Unit := do
  match op.first? "Precondition" with
  | some pre => pre.children.forM fun e => checked (Pred.read t e)
  | none => pure ()
  let body ← op.needChild "Body"
  let s ← body.1.needChild ""
  checked (Subst.read t s.1)

/-- The operations in the first section with a tag. -/
def operationsIn (root : Element) (tag : String) : List Element :=
  match root.first? tag with
  | some ops => ops.childrenNamed "Operation"
  | none => []

/-- Checks every item of a component whose types are known. -/
def checkItems (t : Table) (root : Element) : List (Except Fault Unit) :=
  (predicateSections.flatMap (sectionContents root)).map (fun e => checked (Pred.read t e)) ++
  (sectionContents root "Initialisation").map (fun e => checked (Subst.read t e)) ++
  (operationSections.flatMap (operationsIn root)).map (checkOperation t)

def checkComponent (root : Element) : Except (List Fault) Unit := do
  let t ← (Table.read root).mapError ([·])
  match faultsOf (checkItems t root) with
  | [] => pure ()
  | fs => throw fs

/-- Why a document is not passed on. -/
inductive Failure where
  | faults (fs : List Fault)
  | refused (r : Refusal)

def check (root : Element) : Except Failure Element := do
  if root.tag = Obligations.rootTag then
    let d ← (Obligations.read root).mapError .faults
    d.write.mapError .refused
  else
    (checkComponent root).mapError .faults
    pure root

end BMethod.Check
