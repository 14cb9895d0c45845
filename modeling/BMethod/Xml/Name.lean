import BMethod.Xml.NameTable
import BMethod.Xml.Place

/-!
# Names

The names of elements, attributes and instruction targets. A name is read as the longest run of
units that could be in one, and then has to be a name. One colon with text on both sides separates
a name space from the name proper.
-/

namespace BMethod.Xml

open Text (Scalar)

def isAsciiNameChar (c : Char) : Bool :=
  c.isAlphanum || c = '_' || c = ':' || c = '.' || c = '-'

/-- Whether a unit is taken to belong to a name while one is read. -/
def isNameUnit : Scalar → Bool
  | .char c => 0x80 ≤ c.toNat || isAsciiNameChar c
  | .stray _ => true

def isName : List Char → Bool
  | [] => false
  | c :: cs => isNameStart c && cs.all isNameChar

/-- The characters of a list of units without stray bytes. -/
def chars? : List Scalar → Option (List Char)
  | [] => some []
  | .char c :: us => (chars? us).map (c :: ·)
  | .stray _ :: _ => none

def nameOf? (us : List Scalar) : Option (List Char) :=
  match chars? us with
  | some cs => if isName cs then some cs else none
  | none => none

/-- Reads a name. When none starts here, the problem is `absent`. -/
def scanName (absent : Problem) (p : Place) : Scan (List Char) :=
  let run := p.rest.takeWhile isNameUnit
  let rest := p.rest.dropWhile isNameUnit
  if rest.isEmpty then endsEarly p.line
  else if run.isEmpty then .error (p.line, absent)
  else
    match nameOf? run with
    | some cs => .ok (cs, ⟨p.line, rest⟩)
    | none => .error (p.line, .badName run)

/-- The name of an element or attribute: a name space, possibly empty, and the name in it. -/
structure QName where
  space : String
  name : String
deriving DecidableEq

/-- Splits a name at its colon. A colon without text on both sides belongs to the name; a name
cannot have two colons. -/
def QName.ofChars? (cs : List Char) : Option QName :=
  if 1 < cs.count ':' then none
  else
    let space := cs.takeWhile (· != ':')
    let name := (cs.dropWhile (· != ':')).drop 1
    if space.isEmpty || name.isEmpty then some ⟨"", String.ofList cs⟩
    else some ⟨String.ofList space, String.ofList name⟩

def scanQName (absent : Problem) (p : Place) : Scan QName :=
  match scanName absent p with
  | .error e => .error e
  | .ok (cs, q) =>
    match QName.ofChars? cs with
    | some n => .ok (n, q)
    | none => .error (q.line, absent)

theorem length_scanName_lt {absent : Problem} {p q : Place} {cs : List Char}
    (h : scanName absent p = .ok (cs, q)) : q.rest.length < p.rest.length := by
  have hsplit := congrArg List.length (List.takeWhile_append_dropWhile (p := isNameUnit) (l := p.rest))
  rw [List.length_append] at hsplit
  simp only [scanName, endsEarly] at h
  split at h
  · simp at h
  · split at h
    · simp at h
    · rename_i hrun
      split at h
      · simp only [Except.ok.injEq, Prod.mk.injEq] at h
        rw [← h.2]
        have : 0 < (p.rest.takeWhile isNameUnit).length := by
          rw [List.length_pos_iff]
          intro h0
          simp [h0] at hrun
        simp only
        omega
      · simp at h

theorem length_scanQName_lt {absent : Problem} {p q : Place} {n : QName}
    (h : scanQName absent p = .ok (n, q)) : q.rest.length < p.rest.length := by
  rw [scanQName] at h
  split at h
  · simp at h
  · rename_i cs r hr
    split at h
    · simp only [Except.ok.injEq, Prod.mk.injEq] at h
      rw [← h.2]
      exact length_scanName_lt hr
    · simp at h

end BMethod.Xml
