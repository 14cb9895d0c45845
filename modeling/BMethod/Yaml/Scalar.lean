import BMethod.Text.Integer

/-!
# Scalars of configuration files

Configuration files are written in the plain part of YAML: mappings and lists, by indentation or in
brackets, of plain and quoted scalars. A scalar may go on over several lines, whose ends are then
folded: one line end becomes a blank, and of several the first is left out.
-/

namespace BMethod.Yaml

/-- A text, and whether it stands in quotes. -/
structure Scalar where
  text : String
  quoted : Bool
deriving DecidableEq

/-- What is left to read, with its line and column, which are counted from zero. -/
structure Cursor where
  line : Nat
  column : Nat
  rest : List Char

/-! ## Characters -/

def isAllowed (c : Char) : Bool :=
  let n := c.toNat
  n = 0x09 || n = 0x0a || n = 0x0d || (0x20 ≤ n && n ≤ 0x7e) || n = 0x85 || (0xa0 ≤ n && n ≤ 0xfffd) ||
    0x10000 ≤ n

/-- The text with its usual line ends as line feeds. -/
def plainLines : List Char → List Char
  | [] => []
  | '\r' :: '\n' :: cs => '\n' :: plainLines cs
  | c :: cs => (if c = '\r' ∨ c = '\x85' then '\n' else c) :: plainLines cs

/-- The text without the mark that may stand in front of it. -/
def dropMark : List Char → List Char
  | '\ufeff' :: cs => cs
  | cs => cs

def isBlank (c : Char) : Bool :=
  c = ' ' || c = '\t'

def isBreak (c : Char) : Bool :=
  c = '\n' || c = '\u2028' || c = '\u2029'

/-- Whether a character is a blank or ends a line. -/
def isGap (c : Char) : Bool :=
  isBlank c || isBreak c

def atGap : List Char → Bool
  | [] => true
  | c :: _ => isGap c

/-- Whether a mark between documents is next, given that a line starts here. -/
def atMarker (cs : List Char) : Bool :=
  (['-', '-', '-'].isPrefixOf cs || ['.', '.', '.'].isPrefixOf cs) && atGap (cs.drop 3)

def isFlowMark (c : Char) : Bool :=
  c = ',' || c = '?' || c = '[' || c = ']' || c = '\x7b' || c = '\x7d'

/-- The text of the blanks and line ends between words. Blanks alone are kept; blanks beside line
ends do not count. -/
def gapText (gap : List Char) : List Char :=
  match gap.filter isBreak with
  | [] => gap
  | ['\n'] => [' ']
  | '\n' :: breaks => breaks
  | breaks => breaks

/-! ## Plain scalars -/

/-- Whether a plain scalar ends in front of a character. After a gap, it ends at a comment, at a mark
between documents, and by indentation at a column before `indent`; anywhere, at a colon before a gap
and in brackets at their marks. -/
def endsPlain (inBrackets : Bool) (indent : Nat) (gap : List Char) (column : Nat) (c : Char)
    (cs : List Char) : Bool :=
  (!gap.isEmpty &&
    (c = '#' || (column = 0 && atMarker (c :: cs)) || (!inBrackets && column < indent))) ||
  (c = ':' && atGap cs) || (inBrackets && isFlowMark c)

/-- The text of a plain scalar after a gap, whether there is a line end behind it, and what follows.
A tabulator cannot stand for indentation. -/
def plainFrom (inBrackets : Bool) (indent : Nat) (gap : List Char) (line column : Nat) :
    List Char → Option (List Char × Bool × Cursor)
  | [] => some ([], gap.any isBreak, ⟨line, column, []⟩)
  | c :: cs =>
    if isBreak c then plainFrom inBrackets indent (gap ++ [c]) (line + 1) 0 cs
    else if isBlank c then
      if gap.any isBreak ∧ column < indent ∧ c = '\t' then none
      else plainFrom inBrackets indent (gap ++ [c]) line (column + 1) cs
    else if endsPlain inBrackets indent gap column c cs then
      some ([], gap.any isBreak, ⟨line, column, c :: cs⟩)
    else
      (plainFrom inBrackets indent [] line (column + 1) cs).map fun (text, after) =>
        (gapText gap ++ c :: text, after)

/-! ## Quoted scalars -/

/-- What quotes hold: characters, blanks and line ends as they are written, and characters that are
written as escapes. -/
inductive Piece where
  | written (c : Char)
  | escaped (c : Char)
  /-- A line end that joins two lines without a blank. -/
  | joint

/-- The text of a gap in quotes. After a joint, blanks do not count and all line ends are kept. -/
def quotedGap (joined : Bool) (gap : List Char) : List Char :=
  if joined then gap.filter isBreak else gapText gap

def foldFrom (joined : Bool) (gap : List Char) : List Piece → List Char
  | [] => quotedGap joined gap
  | .joint :: ps => quotedGap joined gap ++ foldFrom true [] ps
  | .escaped c :: ps => quotedGap joined gap ++ c :: foldFrom false [] ps
  | .written c :: ps =>
    if isGap c then foldFrom joined (gap ++ [c]) ps
    else quotedGap joined gap ++ c :: foldFrom false [] ps

def fold (ps : List Piece) : String :=
  String.ofList (foldFrom false [] ps)

/-- What single quotes hold, and what follows them. A quote is written twice, and no mark between
documents may stand inside. -/
def singleQuoted (line column : Nat) : List Char → Option (List Piece × Cursor)
  | [] => none
  | '\x27' :: '\x27' :: cs =>
    (singleQuoted line (column + 2) cs).map fun (ps, after) => (.escaped '\x27' :: ps, after)
  | '\x27' :: cs => some ([], ⟨line, column + 1, cs⟩)
  | c :: cs =>
    if isBreak c then
      if atMarker cs then none
      else (singleQuoted (line + 1) 0 cs).map fun (ps, after) => (.written c :: ps, after)
    else (singleQuoted line (column + 1) cs).map fun (ps, after) => (.written c :: ps, after)

/-- The characters that an escape with one letter stands for. -/
def simpleEscapes : List (Char × Char) :=
  [('0', '\x00'), ('a', '\x07'), ('b', '\x08'), ('t', '\t'), ('\t', '\t'), ('n', '\n'),
   ('v', '\x0b'), ('f', '\x0c'), ('r', '\r'), ('e', '\x1b'), (' ', ' '), ('"', '"'),
   ('\x27', '\x27'), ('\\', '\\'), ('N', '\x85'), ('_', '\xa0'), ('L', '\u2028'), ('P', '\u2029')]

/-- The number of hexadecimal digits after the letter of an escape. -/
def hexEscapes : List (Char × Nat) :=
  [('x', 2), ('u', 4), ('U', 8)]

def hexCharacter? (ds : List Char) : Option Char :=
  match Text.digits? 16 ds with
  | some n => if n.isValidChar then some (Char.ofNat n) else none
  | none => none

/-- What an escape stands for, and how many characters it has. -/
def readEscape : List Char → Option (Char × Nat)
  | [] => none
  | c :: cs =>
    match simpleEscapes.lookup c, hexEscapes.lookup c with
    | some e, _ => some (e, 1)
    | none, some n =>
      if cs.length < n then none else (hexCharacter? (cs.take n)).map fun e => (e, n + 1)
    | none, none => none

/-- What double quotes hold, and what follows them. No mark between documents may stand inside. -/
def doubleQuoted (line column : Nat) (cs : List Char) : Option (List Piece × Cursor) :=
  match cs with
  | [] => none
  | '"' :: cs => some ([], ⟨line, column + 1, cs⟩)
  | '\\' :: cs =>
    if cs.head?.any isBreak then
      if atMarker (cs.drop 1) then none
      else (doubleQuoted (line + 1) 0 (cs.drop 1)).map fun (ps, after) => (.joint :: ps, after)
    else
      match readEscape cs with
      | none => none
      | some (c, n) =>
        (doubleQuoted line (column + 1 + n) (cs.drop n)).map fun (ps, after) =>
          (.escaped c :: ps, after)
  | c :: cs =>
    if isBreak c then
      if atMarker cs then none
      else (doubleQuoted (line + 1) 0 cs).map fun (ps, after) => (.written c :: ps, after)
    else (doubleQuoted line (column + 1) cs).map fun (ps, after) => (.written c :: ps, after)
termination_by cs.length
decreasing_by all_goals simp only [List.length_cons, List.length_drop]; omega

end BMethod.Yaml
