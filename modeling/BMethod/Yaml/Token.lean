import BMethod.Yaml.Scalar

/-!
# Tokens of configuration files

Scalars, brackets and marks, together with tokens for what indentation and position tell: where a
list or a mapping starts and ends, and which scalars are keys. That a scalar is a key shows only at
the colon after it, so its place is kept until then. A key is on one line with its colon and not more
than 1024 characters before it.
-/

namespace BMethod.Yaml

/-- The tokens of a file. -/
inductive Token where
  | scalar (s : Scalar)
  | documentStart
  | documentEnd
  /-- The start of a list by indentation. -/
  | listStart
  /-- The start of a mapping by indentation. -/
  | mapStart
  /-- The end of a list or mapping by indentation. -/
  | blockEnd
  | openList
  | closeList
  | openMap
  | closeMap
  | comma
  /-- The dash before an entry of a list. -/
  | entry
  /-- What stands before a key, written or not. -/
  | key
  /-- The colon before a value. -/
  | value
  /-- The end of the file. -/
  | finish
deriving DecidableEq

/-! ## Gaps and comments -/

/-- What gaps are skipped: those before a token, the rest of a comment, and those between comments. -/
inductive Skipping where
  | gap
  | comment
  | between

/-- Skips blanks, line ends and comments. A tabulator is no blank where a key may start, except in
brackets and between comments. After a line end outside brackets, a key may start. -/
def skipGaps (inBrackets : Bool) (mode : Skipping) (keyable : Bool) (line column : Nat) :
    List Char → Bool × Cursor
  | [] => (keyable, ⟨line, column, []⟩)
  | c :: cs =>
    if isBreak c then
      let mode : Skipping :=
        match mode with
        | .comment => if (cs.dropWhile isGap).head? = some '#' then .between else .gap
        | mode => mode
      skipGaps inBrackets mode (keyable || !inBrackets) (line + 1) 0 cs
    else
      match mode with
      | .comment => skipGaps inBrackets .comment keyable line (column + 1) cs
      | mode =>
        let loose : Bool :=
          match mode with
          | .between => true
          | _ => inBrackets || !keyable
        if c = '#' then skipGaps inBrackets .comment keyable line (column + 1) cs
        else if c = ' ' ∨ (c = '\t' ∧ loose) then
          skipGaps inBrackets mode keyable line (column + 1) cs
        else (keyable, ⟨line, column, c :: cs⟩)

def Cursor.skip (p : Cursor) (n : Nat) : Cursor :=
  ⟨p.line, p.column + n, p.rest.drop n⟩

def Cursor.skipComment (p : Cursor) : Cursor :=
  let blanks := p.rest.takeWhile isBlank
  if (p.rest.drop blanks.length).head? = some '#' then
    p.skip (p.rest.takeWhile (!isBreak ·)).length
  else p

/-! ## Scanning -/

/-- A token that is a key if a colon follows it. -/
structure Candidate where
  line : Nat
  column : Nat
  /-- The number of tokens before it. -/
  number : Nat
  /-- Whether nothing but a key can stand here. -/
  required : Bool
  /-- Whether what follows is awaited before the token is taken for a value. Empty brackets are
  taken for one as soon as the two tokens after the first bracket are there. -/
  awaited : Bool

/-- What is known of keys inside brackets, or outside of all. -/
structure Level where
  /-- The last candidate for a key. -/
  candidate : Option Candidate
  /-- Whether there has been no candidate yet. -/
  untouched : Bool

/-- What is known of keys after brackets that are closed. -/
def Level.after (inner outer : Level) : Level :=
  { outer with
    candidate := outer.candidate.map fun k => { k with awaited := k.awaited && !inner.untouched } }

/-- How far a file has been scanned. -/
structure Scanner where
  cursor : Cursor
  /-- The columns of the lists and mappings by indentation that are open, the innermost first. -/
  blocks : List Nat
  /-- Whether a key may start here. -/
  keyable : Bool
  /-- The keys inside the innermost brackets. -/
  level : Level
  /-- The keys around each of the brackets that are open, the innermost first. -/
  outer : List Level
  /-- The tokens so far, the last one first. -/
  tokens : List Token
  /-- How many tokens there are so far. -/
  count : Nat

namespace Scanner

def start (cs : List Char) : Scanner :=
  ⟨⟨0, 0, cs⟩, [], true, ⟨none, true⟩, [], [], 0⟩

def maxDepth : Nat :=
  10000

def inBrackets (s : Scanner) : Bool :=
  !s.outer.isEmpty

/-- The first column that is inside the innermost list or mapping by indentation. -/
def indent (s : Scanner) : Nat :=
  match s.blocks with
  | [] => 0
  | column :: _ => column + 1

def emit (s : Scanner) (t : Token) : Scanner :=
  { s with tokens := t :: s.tokens, count := s.count + 1 }

/-- Puts a token after the first `number` ones. -/
def insert (s : Scanner) (number : Nat) (t : Token) : Scanner :=
  { s with tokens := s.tokens.insertIdx (s.count - number) t, count := s.count + 1 }

/-- Adds a token of one character, after which a key may start or not. -/
def mark (s : Scanner) (t : Token) (keyable : Bool) : Scanner :=
  { s.emit t with cursor := (s.cursor.skip 1).skipComment, keyable := keyable }

def isOpen (s : Scanner) (k : Candidate) : Bool :=
  k.line = s.cursor.line && s.cursor.column ≤ k.column + 1024

def forget (s : Scanner) : Scanner :=
  { s with level := { s.level with candidate := none } }

/-- Gives up the candidate, unless nothing but a key can stand there. -/
def dropCandidate (s : Scanner) : Option Scanner :=
  if s.level.candidate.any (·.required) then none else some s.forget

/-- Makes the next token a candidate, if a key may start here. -/
def saveCandidate (s : Scanner) : Option Scanner :=
  if s.keyable then
    let required := !s.inBrackets && s.blocks.head? = some s.cursor.column
    s.dropCandidate.map fun s =>
      { s with level := ⟨some ⟨s.cursor.line, s.cursor.column, s.count, required, true⟩, false⟩ }
  else some s

/-- Whether an earlier token is held back until it is clear whether it is a key. -/
def isHeldBack (s : Scanner) : Bool :=
  s.outer.any fun l => l.candidate.any fun k => k.awaited && s.isOpen k

/-- Where the mark before a key is put: in front of the candidate, unless that has been taken for a
value. -/
def keyPlace (s : Scanner) (k : Candidate) : Nat :=
  if k.awaited || s.count ≤ k.number + 2 || s.isHeldBack then k.number else s.count

/-- Ends the lists and mappings by indentation whose columns fail a test. In brackets, indentation
does not count. -/
def closeBlocks (inside : Nat → Bool) (s : Scanner) : Scanner :=
  if s.inBrackets then s
  else
    let ended := (s.blocks.takeWhile (!inside ·)).length
    { s with
      blocks := s.blocks.drop ended
      tokens := List.replicate ended .blockEnd ++ s.tokens
      count := s.count + ended }

/-- Starts a list or mapping by indentation at a column, with its token after the first `number` ones,
unless it goes on there. -/
def openBlock (s : Scanner) (column number : Nat) (t : Token) : Option Scanner :=
  if s.inBrackets ∨ column < s.indent then some s
  else if maxDepth ≤ s.blocks.length then none
  else some { s.insert number t with blocks := column :: s.blocks }

/-! ### Marks -/

def scanMarker (s : Scanner) (t : Token) : Option Scanner :=
  (closeBlocks (fun _ => false) s).dropCandidate.map fun s =>
    { s.emit t with cursor := s.cursor.skip 3, keyable := false }

def scanOpen (s : Scanner) (t : Token) : Option Scanner :=
  if maxDepth ≤ s.outer.length then none
  else
    s.saveCandidate.map fun s =>
      { s.mark t true with level := ⟨none, true⟩, outer := s.level :: s.outer }

def scanClose (s : Scanner) (t : Token) : Option Scanner :=
  s.dropCandidate.map fun s =>
    match s.outer with
    | [] => s.mark t false
    | l :: outer => { s.mark t false with level := s.level.after l, outer := outer }

def scanComma (s : Scanner) : Option Scanner :=
  s.dropCandidate.map (·.mark .comma true)

def scanEntry (s : Scanner) : Option Scanner :=
  if !s.inBrackets ∧ !s.keyable then none
  else do
    let s ← s.openBlock s.cursor.column s.count .listStart
    let s ← s.dropCandidate
    pure { s.emit .entry with cursor := s.cursor.skip 1, keyable := true }

def scanKey (s : Scanner) : Option Scanner :=
  if !s.inBrackets ∧ !s.keyable then none
  else do
    let s ← s.openBlock s.cursor.column s.count .mapStart
    let s ← s.dropCandidate
    pure (s.mark .key !s.inBrackets)

def scanKeyValue (s : Scanner) (k : Candidate) : Option Scanner := do
  let place := s.keyPlace k
  let t := s.insert place .key
  let t ← t.openBlock k.column (if place = s.count then t.count else place) .mapStart
  pure (t.mark .value false).forget

/-- Scans a colon that no candidate is before. -/
def scanLoneValue (s : Scanner) : Option Scanner :=
  if !s.inBrackets ∧ !s.keyable then none
  else do
    let s ← s.openBlock s.cursor.column s.count .mapStart
    pure (s.mark .value !s.inBrackets)

def scanValue (s : Scanner) : Option Scanner :=
  match s.level.candidate with
  | some k => if s.isOpen k then s.scanKeyValue k else s.dropCandidate.bind scanLoneValue
  | none => s.scanLoneValue

/-! ### Scalars -/

def scalar (s : Scanner) (x : Scalar) (keyable : Bool) (after : Cursor) : Scanner :=
  { s.emit (.scalar x) with cursor := after, keyable := keyable }

def scanQuoted (s : Scanner) (read : Nat → Nat → List Char → Option (List Piece × Cursor)) :
    Option Scanner := do
  let s ← s.saveCandidate
  let (ps, after) ← read s.cursor.line (s.cursor.column + 1) (s.cursor.rest.drop 1)
  pure (s.scalar ⟨fold ps, true⟩ false after.skipComment)

/-- Scans a plain scalar. After a line end, a key may start. -/
def scanPlain (s : Scanner) : Option Scanner := do
  let s ← s.saveCandidate
  let (text, broken, after) ←
    plainFrom s.inBrackets s.indent [] s.cursor.line s.cursor.column s.cursor.rest
  let after := if broken then after else after.skipComment
  pure (s.scalar ⟨String.ofList text, false⟩ broken after)

/-- The marks that start no plain scalar, even before a letter. -/
def notPlain : List Char :=
  [',', '[', ']', '\x7b', '\x7d', '#', '&', '*', '!', '|', '>', '\x27', '"', '%', '@', '\x60']

/-! ### Files -/

def scanFinish (s : Scanner) : Option Scanner :=
  (closeBlocks (fun _ => false) s).dropCandidate.map (·.emit .finish)

def scanToken (s : Scanner) (c : Char) (cs : List Char) : Option Scanner :=
  let lone := s.inBrackets || atGap cs
  if s.cursor.column = 0 ∧ atMarker (c :: cs) then
    s.scanMarker (if c = '-' then .documentStart else .documentEnd)
  else if c = '[' then s.scanOpen .openList
  else if c = '\x7b' then s.scanOpen .openMap
  else if c = ']' then s.scanClose .closeList
  else if c = '\x7d' then s.scanClose .closeMap
  else if c = ',' then s.scanComma
  else if c = '-' ∧ atGap cs then s.scanEntry
  else if c = '?' ∧ lone then s.scanKey
  else if c = ':' ∧ lone then s.scanValue
  else if c = '\x27' then s.scanQuoted singleQuoted
  else if c = '"' then s.scanQuoted doubleQuoted
  else if notPlain.contains c ∨ isBlank c then none
  else s.scanPlain

def next (s : Scanner) : Option Scanner :=
  let (keyable, cursor) :=
    skipGaps s.inBrackets .gap s.keyable s.cursor.line s.cursor.column s.cursor.rest
  let s := closeBlocks (· ≤ cursor.column) { s with cursor := cursor, keyable := keyable }
  match cursor.rest with
  | [] => s.scanFinish
  | c :: cs => s.scanToken c cs

/-- The tokens that are known although the file cannot be scanned further. A token is known once the
two after it are there and it is not held back. -/
def known (s : Scanner) : List Token :=
  let candidates := (s.level :: s.outer).filterMap (·.candidate)
  let heldBack := candidates.filter fun k => k.awaited && s.isOpen k
  s.tokens.reverse.take (min (s.count - 2) ((heldBack.map (·.number)).min?.getD s.count))

def run : Nat → Scanner → List Token
  | 0, s => s.known
  | bound + 1, s =>
    match s.next with
    | none => s.known
    | some t => if t.tokens.head? = some .finish then t.tokens.reverse else run bound t

end Scanner

/-- The tokens of a text, up to where it cannot be scanned further. Every step takes a character,
except for the last one. -/
def tokens (text : String) : List Token :=
  let cs := plainLines (dropMark text.toList)
  if text.toList.all isAllowed then (Scanner.start cs).run (cs.length + 1) else []

end BMethod.Yaml
