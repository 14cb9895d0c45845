import BMethod.Text.Integer

/-!
# Decimal numbers

Decimal numbers with a point and an exponent stand for the nearest number with 53 binary digits; of
two that are as near, for the one whose last binary digit is zero. A number that is made an integer
loses what is behind the point after that.
-/

namespace BMethod.Text

/-- A decimal number: its digits as a whole number, and the power of ten that this is multiplied
with. -/
structure Decimal where
  negative : Bool
  digits : Nat
  exponent : Int

namespace Decimal

/-! ## Reading -/

def readExponent? : List Char → Option Int
  | [] => some 0
  | c :: cs =>
    if c = 'e' ∨ c = 'E' then
      let (negative, ds) := splitSign cs
      (digits? 10 ds).map fun n => if negative then -(n : Int) else n
    else none

/-- Reads a decimal number: an optional sign, digits with an optional point among them or at one of
their ends, and an optional exponent. -/
def read? (cs : List Char) : Option Decimal := do
  let (negative, cs) := splitSign cs
  let (whole, rest) := cs.span Char.isDigit
  let (fraction, rest) :=
    match rest with
    | '.' :: rest => rest.span Char.isDigit
    | rest => ([], rest)
  let n ← digits? 10 (whole ++ fraction)
  let e ← readExponent? rest
  pure ⟨negative, n, e - fraction.length⟩

/-! ## Rounding -/

/-- The quotient of two numbers as a whole number. A half goes to the even neighbour. -/
def roundDiv (n d : Nat) : Nat :=
  let q := n / d
  if 2 * (n % d) < d then q
  else if d < 2 * (n % d) then q + 1
  else q + q % 2

/-- The number of binary digits in front of the point of a quotient. -/
def wholeBits (n d : Nat) : Nat :=
  if n < d then 0 else Nat.log2 (n / d) + 1

/-- The whole part of a quotient that is rounded to 53 binary digits. A quotient below a half has
none, and one between a half and one has its first digit behind the point. -/
def wholeOfNearest (n d : Nat) : Nat :=
  let bits := wholeBits n d
  if bits ≤ 53 then
    if 2 * n < d then 0
    else
      let scale := Nat.pow 2 (53 - bits)
      roundDiv (n * scale) d / scale
  else
    let scale := Nat.pow 2 (bits - 53)
    roundDiv n (d * scale) * scale

def places (x : Decimal) : Int :=
  (Nat.toDigits 10 x.digits).length + x.exponent

/-- The magnitude of a number, rounded and without what is behind the point, unless it is beyond all
numbers with 53 binary digits and an exponent below 1024. -/
def magnitude? (x : Decimal) : Option Nat :=
  if x.digits = 0 ∨ x.places < 0 then some 0
  else if 310 < x.places then none
  else
    let n :=
      match x.exponent with
      | .ofNat e => wholeOfNearest (x.digits * Nat.pow 10 e) 1
      | .negSucc e => wholeOfNearest x.digits (Nat.pow 10 (e + 1))
    if n < Nat.pow 2 1024 then some n else none

def lowest : Int :=
  -9223372036854775808

/-- The number as a signed 64-bit word, if it is not too large. What is below all words becomes the
lowest one, and so does the first number above them. -/
def word? (x : Decimal) : Option Int :=
  match x.magnitude? with
  | none => none
  | some n =>
    if x.negative then some (max lowest (-(n : Int)))
    else if (n : Int) < -lowest then some n
    else if (n : Int) = -lowest then some lowest
    else none

end Decimal

end BMethod.Text
