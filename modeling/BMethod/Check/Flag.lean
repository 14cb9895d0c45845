import BMethod.Text.Integer
import BMethod.Text.Quoted

/-!
# Options of a command line

An option starts with one dash or two. Its value follows an equals sign or is the next argument; a
switch takes a value only after an equals sign. The options end at the first argument that is not
one, at a single dash, or after two dashes.
-/

namespace BMethod.Check

/-- How an option changes the settings `σ`. -/
inductive Setter (σ : Type) where
  /-- An option that can stand without a value, and then is on. -/
  | switch (set : Bool → σ → σ)
  | number (set : Int → σ → σ)
  | text (set : String → σ → σ)
  /-- An option with a value that is added to the ones before. -/
  | more (set : String → σ → σ)

/-- An option: its name, what it does and a note for the user. -/
structure Flag (σ : Type) where
  name : String
  setter : Setter σ
  note : String

/-- Why arguments are not accepted. -/
inductive FlagProblem where
  | help
  | malformed (argument : String)
  | undefined (name : String)
  | noValue (name : String)
  | notNumber (name value : String)
  | notSwitch (name value : String)
deriving DecidableEq

def FlagProblem.message : FlagProblem → String
  | help => "flag: help requested"
  | malformed argument => "bad flag syntax: " ++ argument
  | undefined name => "flag provided but not defined: -" ++ name
  | noValue name => "flag needs an argument: -" ++ name
  | notNumber name value =>
    "invalid value " ++ Text.quote value ++ " for flag -" ++ name ++ ": parse error"
  | notSwitch name value =>
    "invalid boolean value " ++ Text.quote value ++ " for -" ++ name ++ ": parse error"

def readSwitch? (value : String) : Option Bool :=
  if value ∈ ["1", "t", "T", "TRUE", "true", "True"] then some true
  else if value ∈ ["0", "f", "F", "FALSE", "false", "False"] then some false
  else none

/-- An argument: what follows the options, their end, or an option with its value if it has one. -/
inductive Argument where
  | operand
  | terminator
  | malformed
  | option (name : String) (value : Option String)
deriving DecidableEq

/-- Divides the text of an option at its first equals sign. -/
def divideOption (cs : List Char) : Argument :=
  .option (String.ofList (cs.takeWhile (· != '=')))
    (match cs.dropWhile (· != '=') with
      | [] => none
      | _ :: value => some (String.ofList value))

def afterDashes : List Char → Argument
  | [] => .malformed
  | c :: cs => if c = '-' ∨ c = '=' then .malformed else divideOption (c :: cs)

def Argument.ofText (argument : String) : Argument :=
  match argument.toList with
  | ['-'] => .operand
  | ['-', '-'] => .terminator
  | '-' :: '-' :: cs => afterDashes cs
  | '-' :: cs => afterDashes cs
  | _ => .operand

/-- The settings after some options, the arguments after them, and what stopped them early. -/
structure Parsed (σ : Type) where
  settings : σ
  rest : List String
  problem : Option FlagProblem

/-- Whether an option can stand without a value. -/
def Setter.isSwitch {σ : Type} : Setter σ → Bool
  | switch _ => true
  | _ => false

/-- Sets an option, which without a value only a switch allows. -/
def Flag.set {σ : Type} (flag : Flag σ) (value : Option String) (s : σ) : Except FlagProblem σ :=
  match flag.setter, value with
  | .switch set, none => pure (set true s)
  | .switch set, some v =>
    match readSwitch? v with
    | some b => pure (set b s)
    | none => throw (.notSwitch flag.name v)
  | .number set, some v =>
    match Text.readLiteral? v with
    | some n => pure (set n s)
    | none => throw (.notNumber flag.name v)
  | .text set, some v => pure (set v s)
  | .more set, some v => pure (set v s)
  | _, none => throw (.noValue flag.name)

/-- The problem of an option that is not among the flags. Everybody may ask for help. -/
def unknownOption (name : String) : FlagProblem :=
  if name = "help" ∨ name = "h" then .help else .undefined name

/-- Reads options; `open?` is an option whose value is the next argument. -/
def parseFrom {σ : Type} (flags : List (Flag σ)) (s : σ) (open? : Option (Flag σ)) :
    List String → Parsed σ
  | [] => ⟨s, [], open?.map (.noValue ·.name)⟩
  | arg :: args =>
    match open? with
    | some flag =>
      match flag.set (some arg) s with
      | .ok s => parseFrom flags s none args
      | .error p => ⟨s, args, some p⟩
    | none =>
      match Argument.ofText arg with
      | .operand => ⟨s, arg :: args, none⟩
      | .terminator => ⟨s, args, none⟩
      | .malformed => ⟨s, arg :: args, some (.malformed arg)⟩
      | .option name value =>
        match flags.find? (·.name = name) with
        | none => ⟨s, args, some (unknownOption name)⟩
        | some flag =>
          if value.isNone ∧ !flag.setter.isSwitch then parseFrom flags s (some flag) args
          else
            match flag.set value s with
            | .ok s => parseFrom flags s none args
            | .error p => ⟨s, args, some p⟩

def parseFlags {σ : Type} (flags : List (Flag σ)) (s : σ) (args : List String) : Parsed σ :=
  parseFrom flags s none args

def Setter.placeholder {σ : Type} : Setter σ → String
  | switch _ => ""
  | number _ => " int"
  | text _ => " string"
  | more _ => " value"

/-- The notes on options, in the order of their names. -/
def flagNotes {σ : Type} (flags : List (Flag σ)) : String :=
  "".intercalate ((flags.mergeSort fun x y => decide (x.name ≤ y.name)).map fun flag =>
    "  -" ++ flag.name ++ flag.setter.placeholder ++ "\n    \t" ++ flag.note ++ "\n")

end BMethod.Check
