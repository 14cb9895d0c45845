import BMethod.Text.Printable
import BMethod.Text.Scalar

/-!
# Quoted text

Values are shown in messages between double quotes. A quote and a backslash are written after a
backslash, control characters by their usual letters, and every other character that is not
printable by its code point in hexadecimal. A stray byte is written as two hexadecimal digits.
-/

namespace BMethod.Text

/-- The hexadecimal digits of `n`, at least `width` of them, in lower case. -/
def hexDigits (width n : Nat) : List Char :=
  let ds := Nat.toDigits 16 n
  List.replicate (width - ds.length) '0' ++ ds

/-- The letter that stands for a control character after a backslash. -/
def controlLetter? (c : Char) : Option Char :=
  match c.toNat with
  | 7 => some 'a'
  | 8 => some 'b'
  | 12 => some 'f'
  | 10 => some 'n'
  | 13 => some 'r'
  | 9 => some 't'
  | 11 => some 'v'
  | _ => none

def quotedChar (c : Char) : List Char :=
  if c = '"' ∨ c = '\\' then ['\\', c]
  else if isPrintable c then [c]
  else
    match controlLetter? c with
    | some l => ['\\', l]
    | none =>
      if c.toNat < 0x20 ∨ c.toNat = 0x7f then '\\' :: 'x' :: hexDigits 2 c.toNat
      else if c.toNat < 0x10000 then '\\' :: 'u' :: hexDigits 4 c.toNat
      else '\\' :: 'U' :: hexDigits 8 c.toNat

/-- One unit of a document between quotes. -/
def quotedScalar : Scalar → List Char
  | .char c => quotedChar c
  | .stray b => '\\' :: 'x' :: hexDigits 2 b.toNat

def quoteScalars (us : List Scalar) : String :=
  String.ofList ('"' :: (us.flatMap quotedScalar ++ ['"']))

def quote (s : String) : String :=
  quoteScalars (Scalar.ofString s)

end BMethod.Text
