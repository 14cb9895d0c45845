import BMethod.Check.FileSystem
import BMethod.Path

/-!
# Files by their paths

The plainest file system: a map from clean paths to the contents of files. There are no links, every
folder is there, and only a path that does not end in a name is refused.
-/

namespace BMethod.Check

/-- The contents of files, by clean path. -/
@[ext] structure FileMap where
  content : String → Option (List Text.Scalar)

namespace FileMap

def read (m : FileMap) (path : String) : Except SystemFault (List Text.Scalar) :=
  if Path.isFolder (Path.clean path) then throw ⟨.reading, path, .isFolder⟩
  else
    match m.content (Path.clean path) with
    | none => throw ⟨.opening, path, .missing⟩
    | some content => pure content

def put (m : FileMap) (path : String) (content : List Text.Scalar) : FileMap :=
  ⟨fun p => if p = path then some content else m.content p⟩

def write (m : FileMap) (path text : String) : Except SystemFault FileMap :=
  if Path.isFolder (Path.clean path) then throw ⟨.opening, path, .isFolder⟩
  else pure (m.put (Path.clean path) (Text.Scalar.ofString text))

/-- Access to the files of a map, in which all folders are there. -/
def storage : Storage FileMap :=
  ⟨read, write, fun m _ => pure m⟩

end FileMap

end BMethod.Check
