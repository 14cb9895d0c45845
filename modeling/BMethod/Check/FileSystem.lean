import BMethod.Text.Scalar

/-!
# Access to files

What checking needs from a file system, whatever it is, and how the system says that it cannot do
what it is asked.
-/

namespace BMethod.Check

/-- Why the system refuses an operation. -/
inductive Obstacle where
  | missing
  | isFolder
  | notFolder
  | other (text : String)
deriving DecidableEq

def Obstacle.text : Obstacle → String
  | missing => "no such file or directory"
  | isFolder => "is a directory"
  | notFolder => "not a directory"
  | other text => text

/-- The operations of the system. Reading comes after opening. -/
inductive Operation where
  | opening
  | reading
  | makingFolder
deriving DecidableEq

def Operation.word : Operation → String
  | opening => "open"
  | reading => "read"
  | makingFolder => "mkdir"

/-- An operation on a path that the system refuses. -/
structure SystemFault where
  operation : Operation
  path : String
  obstacle : Obstacle
deriving DecidableEq

def SystemFault.text (f : SystemFault) : String :=
  f.operation.word ++ " " ++ f.path ++ ": " ++ f.obstacle.text

structure FileSystem (m : Type → Type) where
  /-- What a file holds. -/
  read : String → m (Except SystemFault (List Text.Scalar))
  /-- Makes a file that holds a text, in place of a file that is there. -/
  write : String → String → m (Except SystemFault Unit)
  /-- Makes a folder and those above it, unless they are there. -/
  makeFolder : String → m (Except SystemFault Unit)

/-- What there is to read and to change in a value that holds files. A change that is refused leaves
the value as it is. -/
structure Storage (σ : Type) where
  read : σ → String → Except SystemFault (List Text.Scalar)
  write : σ → String → String → Except SystemFault σ
  makeFolder : σ → String → Except SystemFault σ

namespace Storage

variable {σ : Type}

/-- Runs a change that can fail; a failure changes nothing. -/
def change (f : σ → Except SystemFault σ) : StateM σ (Except SystemFault Unit) := do
  let d ← get
  match f d with
  | .ok d =>
    set d
    pure (.ok ())
  | .error e => pure (.error e)

def fileSystem (s : Storage σ) : FileSystem (StateM σ) where
  read path := do
    let d ← get
    pure (s.read d path)
  write path text := change (s.write · path text)
  makeFolder path := change (s.makeFolder · path)

end Storage

end BMethod.Check
