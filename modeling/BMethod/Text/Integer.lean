/-!
# Integers in text

Numbers of a document are decimal and fit a signed 64-bit word. Numbers on a command line may also
carry a base and separate their digits by underscores.
-/

namespace BMethod.Text

/-- Whether `n` fits a signed 64-bit word. -/
def inWord (n : Int) : Bool :=
  -9223372036854775808 ≤ n && n ≤ 9223372036854775807

def digitValue? (c : Char) : Option Nat :=
  if '0' ≤ c ∧ c ≤ '9' then some (c.toNat - '0'.toNat)
  else if 'a' ≤ c ∧ c ≤ 'f' then some (c.toNat - 'a'.toNat + 10)
  else if 'A' ≤ c ∧ c ≤ 'F' then some (c.toNat - 'A'.toNat + 10)
  else none

/-- One more digit of a number in `base`. -/
def pushDigit? (base n : Nat) (c : Char) : Option Nat :=
  match digitValue? c with
  | some d => if d < base then some (base * n + d) else none
  | none => none

/-- The value of the digits in `base`, after digits worth `n`. -/
def digitsFrom? (base n : Nat) : List Char → Option Nat
  | [] => some n
  | c :: cs => (pushDigit? base n c).bind (digitsFrom? base · cs)

/-- The value of a list of at least one digit. -/
def digits? (base : Nat) (cs : List Char) : Option Nat :=
  if cs.isEmpty then none else digitsFrom? base 0 cs

/-- Splits a sign off; the flag says whether it was a minus. -/
def splitSign : List Char → Bool × List Char
  | '+' :: cs => (false, cs)
  | '-' :: cs => (true, cs)
  | cs => (false, cs)

def signed? (negative : Bool) (n : Nat) : Option Int :=
  let i : Int := if negative then -(n : Int) else n
  if inWord i then some i else none

/-- Reads a decimal integer: an optional sign, then digits only, within a signed 64-bit word. -/
def readInt? (s : String) : Option Int :=
  let (negative, ds) := splitSign s.toList
  (digits? 10 ds).bind (signed? negative)

/-- Splits the mark of a base off an unsigned literal. A leading zero alone marks octal. -/
def splitBase : List Char → Nat × List Char
  | '0' :: m :: c :: cs =>
    if m.toLower = 'b' then (2, c :: cs)
    else if m.toLower = 'o' then (8, c :: cs)
    else if m.toLower = 'x' then (16, c :: cs)
    else (8, m :: c :: cs)
  | '0' :: cs => (8, cs)
  | cs => (10, cs)

/-- Whether each underscore stands between two digits. `digit` says whether a digit, or the mark of
a base, stands just before. -/
def separatorsOk (digit : Bool) : List Char → Bool
  | [] => true
  | '_' :: c :: cs => digit && c != '_' && (digitValue? c).isSome && separatorsOk true cs
  | ['_'] => false
  | _ :: cs => separatorsOk true cs

/-- Reads an integer literal with an optional sign, an optional base mark (`0b`, `0o`, `0x` or a
plain leading zero for octal) and underscores between digits. -/
def readLiteral? (s : String) : Option Int :=
  let (negative, cs) := splitSign s.toList
  let (base, ds) := splitBase cs
  let marked := cs.head? == some '0'
  if cs.isEmpty ∨ !separatorsOk marked ds then none
  else (digitsFrom? base 0 (ds.filter (· != '_'))).bind (signed? negative)

end BMethod.Text
