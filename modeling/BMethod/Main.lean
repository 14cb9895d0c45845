import BMethod.Check.Command

/-!
# The command line

Runs the command on the files of the machine.
-/

namespace BMethod

def obstacleOf : IO.Error → Check.Obstacle
  | .noFileOrDirectory .. => .missing
  | .inappropriateType .. => .isFolder
  | e => .other (toString e)

/-- The result of an action on a path, or why it was refused. -/
def attempt {α : Type} (operation : Check.Operation) (path : String) (action : IO α) :
    IO (Except Check.SystemFault α) := do
  try
    let a ← action
    pure (.ok a)
  catch e => pure (.error ⟨operation, path, obstacleOf e⟩)

def machineFiles : Check.FileSystem IO where
  read path := do
    match ← attempt .opening path (IO.FS.Handle.mk path .read) with
    | .error f => pure (.error f)
    | .ok handle => attempt .reading path do
      let bytes ← handle.readBinToEnd
      pure (Text.scalars bytes.toList)
  write path text := attempt .opening path (IO.FS.writeFile path text)
  makeFolder path := attempt .makingFolder path (IO.FS.createDirAll path)

end BMethod

def main (args : List String) : IO UInt32 := do
  let stdout ← IO.getStdout
  let terminal ← stdout.isTty
  let ending ← BMethod.Check.command BMethod.machineFiles terminal args
  for note in ending.notes do
    IO.eprintln note
  IO.print ending.output
  pure ending.status.toUInt32
