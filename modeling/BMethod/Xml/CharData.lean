import BMethod.Text.Integer
import BMethod.Xml.Character
import BMethod.Xml.Name

/-!
# Character data

Text between tags, attribute values and literal sections. References stand for characters, both
kinds of line end are read as a line feed, and once a run of character data has been read all its
characters have to be allowed in a document.
-/

namespace BMethod.Xml

open Text (Scalar)

/-- The characters that have a name of their own in references. -/
def namedChar? (name : List Char) : Option Char :=
  match name with
  | ['l', 't'] => some '<'
  | ['g', 't'] => some '>'
  | ['a', 'm', 'p'] => some '&'
  | ['a', 'p', 'o', 's'] => some '\x27'
  | ['q', 'u', 'o', 't'] => some '"'
  | _ => none

/-- The character with a given number. A number that is no character gives the replacement
character, unless it is beyond all characters. -/
def numberedChar? (n : Nat) : Option Char :=
  if 0x10ffff < n then none
  else if h : n.isValidChar then some (Char.ofNatAux n h)
  else some '\ufffd'

def isDigitUnit (base : Nat) : Scalar → Bool
  | .char c => (Text.pushDigit? base 0 c).isSome
  | .stray _ => false

/-- Ends a reference whose units are `spelling`, and which means `meaning`, at its semicolon. -/
def closeReference (spelling : List Scalar) (meaning : Option Char) (p : Place) : Scan Char :=
  match p.rest with
  | [] => endsEarly p.line
  | u :: rest =>
    if u = .char ';' then
      match meaning with
      | some c => .ok (c, ⟨p.line, rest⟩)
      | none => .error (p.line, .badEntity (.char '&' :: spelling ++ [u]) true)
    else .error (p.line, .badEntity (.char '&' :: spelling) false)

/-- Reads the digits of a reference by number, after `mark`. -/
def scanNumber (base : Nat) (mark : List Scalar) (p : Place) : Scan Char :=
  let digits := p.rest.takeWhile (isDigitUnit base)
  let meaning := ((chars? digits).bind (Text.digits? base)).bind numberedChar?
  closeReference (mark ++ digits) meaning ⟨p.line, p.rest.dropWhile (isDigitUnit base)⟩

/-- Reads a reference after its ampersand: by name, by decimal or by hexadecimal number. -/
def scanReference (p : Place) : Scan Char :=
  match p.rest with
  | .char '#' :: .char 'x' :: rest => scanNumber 16 [.char '#', .char 'x'] ⟨p.line, rest⟩
  | .char '#' :: rest => scanNumber 10 [.char '#'] ⟨p.line, rest⟩
  | us =>
    let name := us.takeWhile isNameUnit
    closeReference name ((chars? name).bind namedChar?) ⟨p.line, us.dropWhile isNameUnit⟩

theorem length_closeReference_lt {spelling : List Scalar} {meaning : Option Char} {p q : Place}
    {c : Char} (h : closeReference spelling meaning p = .ok (c, q)) :
    q.rest.length < p.rest.length := by
  rw [closeReference] at h
  split at h
  · simp [endsEarly] at h
  · rename_i u rest hrest
    split at h
    · split at h
      · simp only [Except.ok.injEq, Prod.mk.injEq] at h
        simp [← h.2, hrest]
      · simp at h
    · simp at h

theorem length_scanNumber_lt {base : Nat} {mark : List Scalar} {p q : Place} {c : Char}
    (h : scanNumber base mark p = .ok (c, q)) : q.rest.length < p.rest.length :=
  Nat.lt_of_lt_of_le (length_closeReference_lt h) (length_dropWhile_le ..)

theorem length_scanReference_lt {p q : Place} {c : Char} (h : scanReference p = .ok (c, q)) :
    q.rest.length < p.rest.length := by
  rw [scanReference] at h
  split at h
  · rename_i rest hrest
    have := length_scanNumber_lt h
    simp only [hrest, List.length_cons] at this ⊢
    omega
  · rename_i rest _ hrest
    have := length_scanNumber_lt h
    simp only [hrest, List.length_cons] at this ⊢
    omega
  · exact Nat.lt_of_lt_of_le (length_closeReference_lt h) (length_dropWhile_le ..)

/-- Puts a unit before the character data read after it. -/
def Scan.push (u : Scalar) : Scan (List Scalar) → Scan (List Scalar)
  | .ok (us, q) => .ok (u :: us, q)
  | .error e => .error e

/-- Text up to the next tag, or to the end of the document. -/
def scanText (line : Nat) : List Scalar → Scan (List Scalar)
  | [] => .ok ([], ⟨line, []⟩)
  | .char '<' :: rest => .ok ([], ⟨line, .char '<' :: rest⟩)
  | .char ']' :: .char ']' :: .char '>' :: _ => .error (line, .unescapedCDataEnd)
  | .char '&' :: rest =>
    match _h : scanReference ⟨line, rest⟩ with
    | .ok (c, q) => .push (.char c) (scanText q.line q.rest)
    | .error e => .error e
  | .char '\r' :: .char '\n' :: rest => .push (.char '\n') (scanText (line + 1) rest)
  | .char '\r' :: rest => .push (.char '\n') (scanText line rest)
  | u :: rest => .push u (scanText (line + lineFeed u) rest)
termination_by us => us.length
decreasing_by
  · have := length_scanReference_lt _h
    simp only [List.length_cons] at this ⊢
    omega
  all_goals simp only [List.length_cons]; omega

/-- An attribute value up to the quote that ends it. A value that the end of the document cuts off
is given as it is: whatever reads on meets the end. -/
def scanQuoted (quote : Char) (line : Nat) : List Scalar → Scan (List Scalar)
  | [] => .ok ([], ⟨line, []⟩)
  | .char '<' :: _ => .error (line, .unescapedLess)
  | .char '&' :: rest =>
    match _h : scanReference ⟨line, rest⟩ with
    | .ok (c, q) => .push (.char c) (scanQuoted quote q.line q.rest)
    | .error e => .error e
  | .char '\r' :: .char '\n' :: rest => .push (.char '\n') (scanQuoted quote (line + 1) rest)
  | .char '\r' :: rest => .push (.char '\n') (scanQuoted quote line rest)
  | u :: rest =>
    if u = .char quote then .ok ([], ⟨line, rest⟩)
    else .push u (scanQuoted quote (line + lineFeed u) rest)
termination_by us => us.length
decreasing_by
  · have := length_scanReference_lt _h
    simp only [List.length_cons] at this ⊢
    omega
  all_goals simp only [List.length_cons]; omega

def scanLiteral (line : Nat) : List Scalar → Scan (List Scalar)
  | [] => .error (line, .unexpectedEndOfCData)
  | .char ']' :: .char ']' :: .char '>' :: rest => .ok ([], ⟨line, rest⟩)
  | .char '\r' :: .char '\n' :: rest => .push (.char '\n') (scanLiteral (line + 1) rest)
  | .char '\r' :: rest => .push (.char '\n') (scanLiteral line rest)
  | u :: rest => .push u (scanLiteral (line + lineFeed u) rest)

/-- The characters of a run of character data; each has to be allowed in a document. -/
def checkChars : List Scalar → Except Problem (List Char)
  | [] => .ok []
  | .stray _ :: _ => .error .notUtf8
  | .char c :: us =>
    if isAllowed c then
      match checkChars us with
      | .ok cs => .ok (c :: cs)
      | .error e => .error e
    else .error (.illegalChar c)

/-- The text of a run of character data, checked once the run has been read. -/
def Scan.checked : Scan (List Scalar) → Scan String
  | .error e => .error e
  | .ok (us, q) =>
    match checkChars us with
    | .ok cs => .ok (String.ofList cs, q)
    | .error problem => .error (q.line, problem)

end BMethod.Xml
