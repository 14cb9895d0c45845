import BMethod.Path
import BMethod.Yaml.Number

/-!
# Configurations

A configuration names the documents to check, how many of them to check at the same time, and the
folder to write them to. It comes from a file, from the command line, or from both. Written documents
are named after the last name of their path, so these names must differ.
-/

namespace BMethod.Check

/-- A configuration. No output folder is the empty path. -/
structure Config where
  files : List String := []
  workers : Int := 0
  output : String := ""
deriving DecidableEq

/-- How many documents are checked at the same time: a number, or as many as there are processors. -/
inductive Workers where
  | fixed (n : Nat)
  | processors
deriving DecidableEq

def Workers.count (processors : Nat) : Workers → Nat
  | fixed n => n
  | .processors => processors

/-- What to check, once all configurations are known. -/
structure Plan where
  files : List String
  workers : Workers
  output : String
deriving DecidableEq

/-- Why there is nothing to check. -/
inductive ConfigProblem where
  | unreadable
  | negativeWorkers (n : Int)
  | collision (first second target : String)
  | noDocuments
deriving DecidableEq

def ConfigProblem.message : ConfigProblem → String
  | unreadable => "cannot parse configuration"
  | negativeWorkers n => "invalid number of workers: " ++ toString n
  | collision first second target =>
    "documents " ++ first ++ " and " ++ second ++ " would both be written to " ++ target
  | noDocuments => "no document to check: please use --files or --config"

namespace Config

open Yaml (Value)

/-! ## Reading -/

/-- The documents in a list. Entries that are nothing are left out. -/
def readEntries? : List Value → Option (List String)
  | [] => some []
  | .scalar s :: vs =>
    if Value.isNothing s then readEntries? vs else (readEntries? vs).map (s.text :: ·)
  | _ :: _ => none

def readFiles? : Value → Option (List String)
  | .list items => readEntries? items
  | .scalar s => if Value.isNothing s then some [] else none
  | .map _ => none

def readWorkers? : Value → Option Int
  | .scalar s => if Value.isNothing s then some 0 else s.number?
  | _ => none

def readOutput? : Value → Option String
  | .scalar s => if Value.isNothing s then some "" else some s.text
  | _ => none

/-- Adds an entry of a mapping to a configuration. Other keys do not matter. -/
def addEntry? (c : Config) (key value : Value) : Option Config := do
  let name ← key.text?
  if name = "files" then (readFiles? value).map fun files => { c with files := files }
  else if name = "workers" then (readWorkers? value).map fun n => { c with workers := n }
  else if name = "output" then (readOutput? value).map fun path => { c with output := path }
  else some c

/-- Adds the entries of a mapping to a configuration. Of entries with the same key, the first counts. -/
def addEntries? (c : Config) (seen : List String) : List (Value × Value) → Option Config
  | [] => some c
  | (key, value) :: entries => do
    let name ← key.text?
    let c ← if seen.contains name then some c else c.addEntry? key value
    addEntries? c (name :: seen) entries

/-- Whether the value of a key holds entries for keys that are not there. -/
def isDefaults : Value → Bool
  | .scalar s => s = ⟨"<<", false⟩
  | _ => false

mutual
/-- The entries of a mapping, and after them its defaults. No key may be given twice. -/
def entries? : Value → Option (List (Value × Value))
  | .map entries =>
    if (entries.filterMap (·.1.text?)).Nodup then
      (defaults? entries).map (entries.filter (!isDefaults ·.1) ++ ·)
    else none
  | _ => none

/-- The defaults among the entries of a mapping: those of a mapping or of a list of mappings. -/
def defaults? : List (Value × Value) → Option (List (Value × Value))
  | [] => some []
  | (key, value) :: entries =>
    if isDefaults key then
      match value with
      | .list items => allEntries? items
      | value => entries? value
    else defaults? entries

def allEntries? : List Value → Option (List (Value × Value))
  | [] => some []
  | value :: values => do
    let entries ← entries? value
    let more ← allEntries? values
    pure (entries ++ more)
end

def ofValue? : Value → Option Config
  | .map entries => (entries? (.map entries)).bind (addEntries? {} [])
  | .scalar s => if Value.isNothing s then some {} else none
  | .list _ => none

/-- A configuration whose paths are seen from a folder. -/
def inFolder (folder : String) (c : Config) : Config :=
  { c with
    files := c.files.map (Path.within folder)
    output := if c.output = "" then "" else Path.within folder c.output }

def parse (text folder : String) : Except ConfigProblem Config :=
  match (Value.read? text).bind ofValue? with
  | none => throw .unreadable
  | some c => if c.workers < 0 then throw (.negativeWorkers c.workers) else pure (c.inFolder folder)

/-! ## Merging -/

/-- The first two documents that would be written to one place, when `seen` come before the list. -/
def collisionAfter (seen : List String) : List String → Option (String × String)
  | [] => none
  | path :: paths =>
    match seen.find? (Path.base · = Path.base path) with
    | some first => some (first, path)
    | none => collisionAfter (seen ++ [path]) paths

/-- The first two documents that would be written to one place. -/
def collision? (paths : List String) : Option (String × String) :=
  collisionAfter [] paths

/-- The number of workers that was asked for; a number that is not positive is none. -/
def workersOf (n : Int) : Workers :=
  if n ≤ 0 then .processors else .fixed n.toNat

/-- What a file and the command line ask for together: all their documents, and the settings of the
command line before those of the file. -/
def overlay (file : Option Config) (flags : Config) : Config :=
  match file with
  | none => flags
  | some file =>
    { files := file.files ++ flags.files
      workers := if flags.workers = 0 then file.workers else flags.workers
      output := if flags.output = "" then file.output else flags.output }

def merge (file : Option Config) (flags : Config) : Except ConfigProblem Plan :=
  let c := overlay file flags
  match if c.output = "" then none else collision? c.files with
  | some (first, second) =>
    throw (.collision first second (Path.join c.output (Path.base second)))
  | none => pure ⟨c.files, workersOf c.workers, c.output⟩

end Config

end BMethod.Check
