import BMethod.Xml.Problem

/-!
# Places in a document

A place is what is left to read of a document, together with the line reached. Lines are counted
from one by the line feeds read so far.
-/

namespace BMethod.Xml

open Text (Scalar)

/-- A place in a document. -/
structure Place where
  line : Nat
  rest : List Scalar

/-- What reading some markup gives: its meaning and the place after it, or a problem with the line
on which reading stopped. -/
abbrev Scan (α : Type) := Except (Nat × Problem) (α × Place)

def lineFeed (u : Scalar) : Nat :=
  if u = .char '\n' then 1 else 0

def lineFeeds (us : List Scalar) : Nat :=
  us.countP (· = .char '\n')

def isSpace (u : Scalar) : Bool :=
  u = .char ' ' || u = .char '\t' || u = .char '\n' || u = .char '\r'

def Place.skipSpace (p : Place) : Place :=
  ⟨p.line + lineFeeds (p.rest.takeWhile isSpace), p.rest.dropWhile isSpace⟩

def endsEarly {α : Type} (line : Nat) : Scan α :=
  .error (line, .unexpectedEnd)

/-- Splits a list at the first occurrence of a pattern: what stands before it and after it. -/
def breakOn (pattern : List Scalar) : List Scalar → Option (List Scalar × List Scalar)
  | [] => if pattern.isEmpty then some ([], []) else none
  | u :: us =>
    if pattern.isPrefixOf (u :: us) then some ([], (u :: us).drop pattern.length)
    else (breakOn pattern us).map fun s => (u :: s.1, s.2)

theorem length_dropWhile_le {α : Type} (p : α → Bool) (l : List α) :
    (l.dropWhile p).length ≤ l.length :=
  (List.dropWhile_sublist p).length_le

theorem Place.length_skipSpace_le (p : Place) : p.skipSpace.rest.length ≤ p.rest.length :=
  length_dropWhile_le ..

theorem length_breakOn_le {pattern us before after : List Scalar}
    (h : breakOn pattern us = some (before, after)) : after.length ≤ us.length := by
  induction us generalizing before after with
  | nil => grind [breakOn]
  | cons u us ih =>
    rw [breakOn] at h
    split at h
    · simp only [Option.some.injEq, Prod.mk.injEq] at h
      rw [← h.2, List.length_drop]
      omega
    · obtain ⟨s, hs, he⟩ := Option.map_eq_some_iff.1 h
      have := ih hs
      simp only [Prod.mk.injEq] at he
      simp only [List.length_cons, ← he.2]
      omega

end BMethod.Xml
