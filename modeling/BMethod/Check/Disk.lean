import BMethod.Check.FileSystem
import BMethod.Text.Split

/-!
# A file system as a value

A disk is a finite map from places to files and folders. Paths are followed name by name from the
working folder or from the root, and every place on the way must be a folder. Folders above the
working folder and the root are always there.
-/

namespace BMethod.Check

/-- A place: the names that lead to it from the root, or from a number of folders above the working
folder. -/
structure Location where
  rooted : Bool
  above : Nat
  names : List String
deriving DecidableEq

namespace Location

def here : Location :=
  ⟨false, 0, []⟩

def root : Location :=
  ⟨true, 0, []⟩

/-- The folder that a place is in. The root is in itself. -/
def parent (l : Location) : Location :=
  if l.names ≠ [] then { l with names := l.names.dropLast }
  else if l.rooted then l
  else { l with above := l.above + 1 }

def enter (l : Location) (name : String) : Location :=
  if name = "" ∨ name = "." then l
  else if name = ".." then l.parent
  else { l with names := l.names ++ [name] }

def start (names : List String) : Location :=
  match names with
  | "" :: _ => root
  | _ => here

end Location

/-- What a place holds. -/
inductive Entry where
  | file (content : List Text.Scalar)
  | folder

structure Disk where
  entries : List (Location × Entry)

namespace Disk

def empty : Disk :=
  ⟨[]⟩

def entry? (d : Disk) (l : Location) : Option Entry :=
  if l.names = [] then some .folder else d.entries.lookup l

/-- Puts something at a place, instead of what was there. -/
def put (d : Disk) (l : Location) (e : Entry) : Disk :=
  ⟨d.entries.filter (·.1 ≠ l) ++ [(l, e)]⟩

/-- Fails unless there is a folder at a place. -/
def needFolder (d : Disk) (l : Location) : Except Obstacle Unit :=
  match d.entry? l with
  | some .folder => pure ()
  | some (.file _) => throw .notFolder
  | none => throw .missing

/-- The place that names lead to. Only the last one may lead to nothing. -/
def follow (d : Disk) (l : Location) : List String → Except Obstacle Location
  | [] => pure l
  | name :: names => do
    d.needFolder l
    d.follow (l.enter name) names

/-- The place of a path. The empty path leads nowhere. -/
def locate (d : Disk) (path : String) : Except Obstacle Location :=
  if path = "" then throw .missing
  else d.follow (.start (Text.split '/' path)) (Text.split '/' path)

def read (d : Disk) (path : String) : Except SystemFault (List Text.Scalar) :=
  match d.locate path with
  | .error o => throw ⟨.opening, path, o⟩
  | .ok l =>
    match d.entry? l with
    | none => throw ⟨.opening, path, .missing⟩
    | some .folder => throw ⟨.reading, path, .isFolder⟩
    | some (.file content) => pure content

def write (d : Disk) (path text : String) : Except SystemFault Disk :=
  match d.locate path with
  | .error o => throw ⟨.opening, path, o⟩
  | .ok l =>
    match d.entry? l with
    | some .folder => throw ⟨.opening, path, .isFolder⟩
    | _ => pure (d.put l (.file (Text.Scalar.ofString text)))

/-- Makes the folders on the way along names that are not there. -/
def makeAlong (d : Disk) (l : Location) : List String → Except Obstacle Disk
  | [] => pure d
  | name :: names =>
    let l := l.enter name
    match d.entry? l with
    | some .folder => d.makeAlong l names
    | some (.file _) => throw .notFolder
    | none => (d.put l .folder).makeAlong l names

/-- Makes the folder at a path and those above it. -/
def makeFolder (d : Disk) (path : String) : Except SystemFault Disk :=
  match d.makeAlong (.start (Text.split '/' path)) (Text.split '/' path) with
  | .ok d => pure d
  | .error o => throw ⟨.makingFolder, path, o⟩

/-- The files in the working folder and below it, with their paths. -/
def files (d : Disk) : List (String × List Text.Scalar) :=
  d.entries.filterMap fun
    | (⟨false, 0, names⟩, .file content) => some ("/".intercalate names, content)
    | _ => none

def newFiles (before after : Disk) : List (String × List Text.Scalar) :=
  after.files.filter fun f => !(before.files.any (·.1 = f.1))

def storage : Storage Disk :=
  ⟨read, write, makeFolder⟩

def fileSystem : FileSystem (StateM Disk) :=
  storage.fileSystem

end Disk

end BMethod.Check
