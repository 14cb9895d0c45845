import BMethod.Check.Config
import BMethod.Check.FileList
import BMethod.Check.Flag
import BMethod.Check.Summary

/-!
# The command

The command takes documents from its arguments and from a configuration file, checks them, and ends
with a summary. Its status tells whether all documents passed; arguments that make no sense have a
status of their own.
-/

namespace BMethod.Check

/-- What the options of the command set. -/
structure Settings where
  config : Config := {}
  configPath : String := ""
  noColor : Bool := false

def filesFlag {σ : Type} (note : String) (add : String → σ → σ) : Flag σ :=
  ⟨"files", .more add, note⟩

def commandFlags : List (Flag Settings) :=
  [filesFlag "comma separated list of documents to check" fun v s =>
      { s with config := { s.config with files := addEntries s.config.files v } },
   ⟨"config", .text fun v s => { s with configPath := v }, "YAML file with the documents to check"⟩,
   ⟨"workers", .number fun n s => { s with config := { s.config with workers := n } },
    "number of documents checked simultaneously (default to the number of CPUs)"⟩,
   ⟨"output", .text fun v s => { s with config := { s.config with output := v } },
    "folder where normalized documents are written"⟩,
   ⟨"no_color", .switch fun b s => { s with noColor := b }, "disable colors in the summary"⟩]

/-- How a run of the command ends: its status, what it prints, and what it says on the side. -/
structure Ending where
  status : Nat
  output : String
  notes : List String

namespace Ending

/-- The end of a run whose arguments are not accepted. Asking for help is no mistake. -/
def ofFlagProblem : FlagProblem → Ending
  | .help => ⟨0, "", [flagNotes commandFlags]⟩
  | p => ⟨2, "", [p.message, flagNotes commandFlags]⟩

def failed (note : String) : Ending :=
  ⟨1, "", [note]⟩

def ofReports (coloured : Bool) (reports : List Report) : Ending where
  status := if reports.any (·.isFailed) then 1 else 0
  output := summary coloured reports
  notes := reports.filterMap (·.message?)

end Ending

/-- The characters of a file, if there is nothing else in it. -/
def characters? : List Text.Scalar → Option (List Char)
  | [] => some []
  | .char c :: us => (characters? us).map (c :: ·)
  | .stray _ :: _ => none

def Config.ofRead (path : String) : Except SystemFault (List Text.Scalar) → Except String Config
  | .error f => throw ("cannot read configuration: " ++ f.text)
  | .ok content =>
    match characters? content with
    | none => throw ConfigProblem.unreadable.message
    | some cs => (Config.parse (String.ofList cs) (Path.folder path)).mapError (·.message)

/-- The plan for a file and the command line, which must name a document. -/
def Config.plan (file : Option Config) (flags : Config) : Except ConfigProblem Plan := do
  let plan ← Config.merge file flags
  if plan.files.isEmpty then throw .noDocuments else pure plan

section

variable {m : Type → Type} [Monad m]

def loadConfig (fs : FileSystem m) (path : String) : m (Except String (Option Config)) := do
  if path = "" then pure (.ok none)
  else
    let content ← fs.read path
    pure ((Config.ofRead path content).map some)

def makeOutput (fs : FileSystem m) (output : String) : m (Except SystemFault Unit) :=
  if output = "" then pure (.ok ()) else fs.makeFolder output

def execute (fs : FileSystem m) (coloured : Bool) (plan : Plan) : m Ending := do
  match ← makeOutput fs plan.output with
  | .error f => pure (.failed f.text)
  | .ok _ => .ofReports coloured <$> run fs plan.output plan.files

/-- Runs the command with settings and further documents. -/
def commandWith (fs : FileSystem m) (terminal : Bool) (s : Settings) (documents : List String) :
    m Ending := do
  match ← loadConfig fs s.configPath with
  | .error note => pure (.failed note)
  | .ok file =>
    match Config.plan file { s.config with files := s.config.files ++ documents } with
    | .error p => pure (.failed p.message)
    | .ok plan => execute fs (terminal && !s.noColor) plan

/-- Runs the command with its arguments. Colours are used only on a terminal. -/
def command (fs : FileSystem m) (terminal : Bool) (args : List String) : m Ending :=
  let parsed := parseFlags commandFlags {} args
  match parsed.problem with
  | some p => pure (.ofFlagProblem p)
  | none => commandWith fs terminal parsed.settings parsed.rest

end

end BMethod.Check
