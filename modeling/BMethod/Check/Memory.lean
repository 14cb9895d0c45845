import BMethod.Check.Config

/-!
# Configurations in memory

The documents of a configuration stand in a row of places in memory, of which the configuration knows
a part. Several configurations may know parts of one row. More documents are put into the places
behind a part if they are free for it, whoever else knows these places; otherwise the part moves to a
new row. Merging makes a configuration of its own, whose documents it first copies.
-/

namespace BMethod.Check

/-- A part of a row: where it starts, how long it is, and how long it can become in that row. -/
structure Slice where
  row : Nat
  start : Nat
  length : Nat
  capacity : Nat

def Slice.nowhere : Slice :=
  ⟨0, 0, 0, 0⟩

/-- A configuration whose documents stand in memory. -/
structure ConfigCell where
  files : Slice
  workers : Int
  output : String

/-- Rows of places, and configurations, each in the order in which they were made. -/
structure Memory where
  rows : List (List String)
  configs : List ConfigCell

namespace Memory

def row (m : Memory) (n : Nat) : List String :=
  (m.rows[n]?).getD []

def read (m : Memory) (s : Slice) : List String :=
  ((m.row s.row).drop s.start).take s.length

def config (m : Memory) (n : Nat) : ConfigCell :=
  (m.configs[n]?).getD ⟨.nowhere, 0, ""⟩

def value (m : Memory) (c : ConfigCell) : Config :=
  ⟨m.read c.files, c.workers, c.output⟩

def overwrite (place : Nat) (entries row : List String) : List String :=
  row.take place ++ entries ++ row.drop (place + entries.length)

/-- Adds texts behind a part of a row, or behind a copy of it in a new row. How many places are left
over there may depend on how long the part could become and how long it has to be. -/
def append (spare : Nat → Nat → Nat) (m : Memory) (s : Slice) (entries : List String) :
    Memory × Slice :=
  let length := s.length + entries.length
  if length ≤ s.capacity then
    ({ m with rows := m.rows.modify s.row (overwrite (s.start + s.length) entries) },
      { s with length := length })
  else
    let room := spare s.capacity length
    ({ m with rows := m.rows ++ [m.read s ++ entries ++ List.replicate room ""] },
      ⟨m.rows.length, 0, length, length + room⟩)

/-- The documents of two configurations in a row of their own. -/
def join (spare : Nat → Nat → Nat) (m : Memory) (first second : Slice) : Memory × Slice :=
  let copied := m.append spare .nowhere (m.read first)
  copied.1.append spare copied.2 (copied.1.read second)

def overlay (spare : Nat → Nat → Nat) (m : Memory) (file : Option Nat) (flags : Nat) :
    Memory × ConfigCell :=
  let c := m.config flags
  match file with
  | none => (m, c)
  | some file =>
    let f := m.config file
    let joined := m.join spare f.files c.files
    (joined.1,
      { files := joined.2
        workers := if c.workers = 0 then f.workers else c.workers
        output := if c.output = "" then f.output else c.output })

/-- Makes the configuration for a file and the command line, on a machine with some processors. -/
def merge (spare : Nat → Nat → Nat) (processors : Nat) (m : Memory) (file : Option Nat)
    (flags : Nat) : Memory × Except ConfigProblem Nat :=
  let laid := m.overlay spare file flags
  let c := laid.2
  let c := { c with workers := if c.workers ≤ 0 then processors else c.workers }
  match if c.output = "" then none else Config.collision? (laid.1.read c.files) with
  | some (first, second) =>
    (laid.1, throw (.collision first second (Path.join c.output (Path.base second))))
  | none => ({ laid.1 with configs := laid.1.configs ++ [c] }, pure laid.1.configs.length)

end Memory

end BMethod.Check
