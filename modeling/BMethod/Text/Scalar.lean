/-!
# Bytes as text

A document is a sequence of bytes that is meant to be UTF-8. Reading it gives characters and, where
the bytes are no character, the stray bytes one by one, so that a reader can say where they are.
-/

namespace BMethod.Text

/-- One unit of a document: a character, or a byte that belongs to none. -/
inductive Scalar where
  | char (c : Char)
  | stray (b : UInt8)
deriving DecidableEq

namespace Scalar

/-- The character shown for a unit: a stray byte is shown as the replacement character. -/
def shown : Scalar → Char
  | char c => c
  | stray _ => '\ufffd'

/-- The units of a text that is known to be characters. -/
def ofString (s : String) : List Scalar :=
  s.toList.map char

def toText (us : List Scalar) : String :=
  String.ofList (us.map shown)

end Scalar

/-- The low six bits of a continuation byte. -/
def continuation? (b : UInt8) : Option Nat :=
  if 0x80 ≤ b.toNat ∧ b.toNat < 0xc0 then some (b.toNat - 0x80) else none

/-- The character with code point `n`, unless a shorter form would do or `n` is no code point. -/
def codePoint? (least n : Nat) : Option Char :=
  if h : n.isValidChar then
    if least ≤ n then some (Char.ofNatAux n h) else none
  else none

/-- The character that a lead byte and the bytes after it spell, and how many bytes after the lead
byte it takes. -/
def leadingChar? (lead : UInt8) (rest : List UInt8) : Option (Char × Nat) :=
  let b := lead.toNat
  if b < 0x80 then
    (codePoint? 0 b).map (·, 0)
  else if 0xc0 ≤ b ∧ b < 0xe0 then
    match rest with
    | x :: _ => do
      let x ← continuation? x
      let c ← codePoint? 0x80 ((b - 0xc0) * 64 + x)
      pure (c, 1)
    | _ => none
  else if 0xe0 ≤ b ∧ b < 0xf0 then
    match rest with
    | x :: y :: _ => do
      let x ← continuation? x
      let y ← continuation? y
      let c ← codePoint? 0x800 (((b - 0xe0) * 64 + x) * 64 + y)
      pure (c, 2)
    | _ => none
  else if 0xf0 ≤ b ∧ b < 0xf8 then
    match rest with
    | x :: y :: z :: _ => do
      let x ← continuation? x
      let y ← continuation? y
      let z ← continuation? z
      let c ← codePoint? 0x10000 ((((b - 0xf0) * 64 + x) * 64 + y) * 64 + z)
      pure (c, 3)
    | _ => none
  else none

/-- Reads bytes after `skip` bytes that an earlier character has taken. -/
def scalarsAfter (skip : Nat) : List UInt8 → List Scalar
  | [] => []
  | b :: rest =>
    match skip with
    | n + 1 => scalarsAfter n rest
    | 0 =>
      match leadingChar? b rest with
      | some (c, n) => .char c :: scalarsAfter n rest
      | none => .stray b :: scalarsAfter 0 rest

def scalars (bytes : List UInt8) : List Scalar :=
  scalarsAfter 0 bytes

end BMethod.Text
