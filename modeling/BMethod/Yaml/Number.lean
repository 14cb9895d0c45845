import BMethod.Text.Decimal
import BMethod.Yaml.Value

/-!
# Numbers in configuration files

A plain scalar can stand for a number. Whole numbers may carry a base, and underscores do not count.
Other decimal numbers are rounded and lose what is behind the point.
-/

namespace BMethod.Yaml

/-- Whether a whole number without a sign fits an unsigned 64-bit word. -/
def isUnsigned (cs : List Char) : Bool :=
  let (base, ds) := Text.splitBase cs
  match Text.digitsFrom? base 0 ds with
  | some n => n < Nat.pow 2 64
  | none => false

/-- A whole number whose sign stands behind the mark of its base. -/
def readInnerSign? : List Char → Option Int
  | '0' :: 'b' :: cs =>
    let (negative, ds) := Text.splitSign cs
    (Text.digits? 2 ds).bind (Text.signed? negative)
  | '0' :: 'o' :: cs =>
    let (negative, ds) := Text.splitSign cs
    (Text.digits? 8 ds).bind (Text.signed? negative)
  | _ => none

/-- A number that starts with a digit or a sign. A whole number that only fits an unsigned word is
none. -/
def readNumber? (cs : List Char) : Option Int :=
  match Text.readLiteral? (String.ofList cs) with
  | some n => some n
  | none =>
    if isUnsigned cs then none
    else
      match Text.Decimal.read? cs with
      | some x => x.word?
      | none => readInnerSign? cs

def belowAll : List String :=
  ["-.inf", "-.Inf", "-.INF"]

def Scalar.number? (s : Scalar) : Option Int :=
  if s.quoted then none
  else if s.text ∈ belowAll then some Text.Decimal.lowest
  else
    match s.text.toList with
    | [] => none
    | c :: cs =>
      if c = '.' then (Text.Decimal.read? (c :: cs)).bind (·.word?)
      else if c.isDigit ∨ c = '+' ∨ c = '-' then readNumber? ((c :: cs).filter (· != '_'))
      else none

end BMethod.Yaml
