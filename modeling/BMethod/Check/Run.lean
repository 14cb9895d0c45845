import BMethod.Check.Component
import BMethod.Check.FileSystem
import BMethod.Element.Decode
import BMethod.Element.Printer
import BMethod.Path

/-!
# Checking files

A file is read, checked and, if there is an output folder, written in its normal form under the last
name of its path. Each file has a report; a file that fails does not keep the others from being
checked.
-/

namespace BMethod.Check

/-- Why a file fails. -/
inductive Problem where
  | unread (f : SystemFault)
  | undecoded (f : Fault)
  | failed (f : Failure)
  | unwritten (f : SystemFault)

def Failure.message : Failure → String
  | faults fs => Fault.messages fs
  | refused r => r.message

/-- The wording of a problem. A file that was opened is a document that cannot be decoded. -/
def Problem.message : Problem → String
  | unread f =>
    if f.operation = .reading then "cannot decode XML document: " ++ f.text else f.text
  | undecoded f => f.message
  | failed f => f.message
  | unwritten f => f.text

/-- The result for a file. -/
structure Report where
  path : String
  outcome : Except Problem Unit

namespace Report

def problem? (r : Report) : Option Problem :=
  match r.outcome with
  | .ok _ => none
  | .error p => some p

def isFailed (r : Report) : Bool :=
  r.problem?.isSome

/-- The wording of the problem of a file, after its path. -/
def message? (r : Report) : Option String :=
  r.problem?.map fun p => r.path ++ ": " ++ p.message

end Report

/-- The normal form of a document that passes the check. -/
def examine (content : List Text.Scalar) : Except Problem Element := do
  let root ← (Element.decode content).mapError .undecoded
  (check root).mapError .failed

/-- The normal form of a file, as far as it can be read. -/
def examineRead : Except SystemFault (List Text.Scalar) → Except Problem Element
  | .ok content => examine content
  | .error f => throw (.unread f)

def targetPath (output path : String) : String :=
  Path.join output (Path.base path)

def checkFile {m : Type → Type} [Monad m] (fs : FileSystem m) (output path : String) :
    m (Except Problem Unit) := do
  let content ← fs.read path
  match examineRead content with
  | .error p => pure (.error p)
  | .ok e =>
    if output = "" then pure (.ok ())
    else
      let written ← fs.write (targetPath output path) e.encode
      pure (written.mapError .unwritten)

def run {m : Type → Type} [Monad m] (fs : FileSystem m) (output : String) :
    List String → m (List Report)
  | [] => pure []
  | path :: paths => do
    let outcome ← checkFile fs output path
    let reports ← run fs output paths
    pure (⟨path, outcome⟩ :: reports)

end BMethod.Check
