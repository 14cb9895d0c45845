import BMethod.Text.Fold
import BMethod.Xml.Tag

/-!
# What stands beside elements

Comments, processing instructions and declarations are read and skipped. Only the declaration of
the document itself has a meaning: it may ask for a version or an encoding.
-/

namespace BMethod.Xml

open Text (Scalar)

def ascii (s : String) : List Scalar :=
  Scalar.ofString s

/-! ## Comments -/

/-- Skips a comment after its opening mark. Two dashes can only stand at its end. -/
def skipComment (line : Nat) : List Scalar → Scan Unit
  | [] => endsEarly line
  | .char '-' :: .char '-' :: .char '>' :: rest => .ok ((), ⟨line, rest⟩)
  | [.char '-', .char '-'] => endsEarly line
  | .char '-' :: .char '-' :: u :: _ => .error (line + lineFeed u, .dashesInComment)
  | u :: rest => skipComment (line + lineFeed u) rest

/-! ## Processing instructions -/

/-- The value given to `key` in a list of settings: what stands in quotes after the key and an
equals sign, or nothing. A key without a quoted value is passed over. -/
def setting (key : List Scalar) (us : List Scalar) : List Scalar :=
  match _h : breakOn (key ++ [.char '=']) us with
  | none => []
  | some (_, []) => []
  | some (_, mark :: rest) =>
    if mark = .char '"' ∨ mark = .char '\x27' then
      match breakOn [mark] rest with
      | some (value, _) => value
      | none => []
    else setting key rest
termination_by us.length
decreasing_by
  have := length_breakOn_le _h
  simp only [List.length_cons] at this
  omega

/-- What the declaration of a document may ask for: version 1.0 and the encoding UTF-8. -/
def checkDeclaration (content : List Scalar) : Except Problem Unit :=
  let version := setting (ascii "version") content
  let encoding := setting (ascii "encoding") content
  if !version.isEmpty && version != ascii "1.0" then .error (.unsupportedVersion version)
  else if !encoding.isEmpty && !Text.isWord "utf-8" (Scalar.toText encoding) then
    .error (.unsupportedEncoding encoding)
  else .ok ()

/-- Skips a processing instruction after its opening mark. -/
def skipInstruction (p : Place) : Scan Unit :=
  match scanName .noTarget p with
  | .error e => .error e
  | .ok (target, q) =>
    match breakOn (ascii "?>") q.skipSpace.rest with
    | none => endsEarly (q.skipSpace.line + lineFeeds q.skipSpace.rest)
    | some (content, rest) =>
      let line := q.skipSpace.line + lineFeeds content
      match if target = ['x', 'm', 'l'] then checkDeclaration content else .ok () with
      | .ok () => .ok ((), ⟨line, rest⟩)
      | .error problem => .error (line, problem)

/-! ## Declarations -/

/-- What a declaration is inside of while it is skipped. -/
inductive Enclosure where
  | none
  | quotes (mark : Char)
  | comment

def Enclosure.opened (u : Scalar) : Enclosure :=
  if u = .char '"' then .quotes '"'
  else if u = .char '\x27' then .quotes '\x27'
  else .none

/-- Skips a declaration up to the bracket that closes it. Brackets nest, except in quotes and in
comments. -/
def skipDeclaration (depth : Nat) : Enclosure → Nat → List Scalar → Scan Unit
  | _, line, [] => endsEarly line
  | .quotes mark, line, u :: rest =>
    skipDeclaration depth (if u = .char mark then .none else .quotes mark) (line + lineFeed u) rest
  | .comment, line, .char '-' :: .char '-' :: .char '>' :: rest =>
    skipDeclaration depth .none line rest
  | .comment, line, u :: rest => skipDeclaration depth .comment (line + lineFeed u) rest
  | .none, line, .char '>' :: rest =>
    if depth = 0 then .ok ((), ⟨line, rest⟩) else skipDeclaration (depth - 1) .none line rest
  | .none, line, .char '<' :: .char '!' :: .char '-' :: .char '-' :: rest =>
    skipDeclaration depth .comment line rest
  | .none, line, .char '<' :: rest => skipDeclaration (depth + 1) .none line rest
  | .none, line, u :: rest => skipDeclaration depth (.opened u) (line + lineFeed u) rest

/-- Reads `word` unit by unit; the first other unit shows that no literal section starts here. -/
def expectCData (word : List Char) (p : Place) : Scan Unit :=
  match word, p.rest with
  | [], _ => .ok ((), p)
  | _ :: _, [] => endsEarly p.line
  | c :: cs, u :: rest =>
    if u = .char c then expectCData cs ⟨p.line, rest⟩
    else .error (p.line + lineFeed u, .noCData)

/-! ## Reading on makes progress -/

theorem length_skipComment_le {line : Nat} {us : List Scalar} {q : Place}
    (h : skipComment line us = .ok ((), q)) : q.rest.length ≤ us.length := by
  fun_induction skipComment line us with
  | case1 => simp [endsEarly] at h
  | case2 =>
    simp only [Except.ok.injEq, Prod.mk.injEq, true_and] at h
    simp only [← h, List.length_cons]
    omega
  | case3 => simp [endsEarly] at h
  | case4 => simp at h
  | case5 line u rest _ _ _ ih =>
    have := ih h
    simp only [List.length_cons]
    omega

theorem length_skipInstruction_le {p q : Place} (h : skipInstruction p = .ok ((), q)) :
    q.rest.length ≤ p.rest.length := by
  rw [skipInstruction] at h
  split at h
  · simp at h
  · rename_i target r hr
    have hname := length_scanName_lt hr
    have hspace := r.length_skipSpace_le
    split at h
    · simp [endsEarly] at h
    · rename_i content rest hrest
      have hafter := length_breakOn_le hrest
      split at h
      · simp only [Except.ok.injEq, Prod.mk.injEq, true_and] at h
        rw [← h]
        simp only
        omega
      · simp at h

theorem length_skipDeclaration_le {depth : Nat} {within : Enclosure} {line : Nat}
    {us : List Scalar} {q : Place} (h : skipDeclaration depth within line us = .ok ((), q)) :
    q.rest.length ≤ us.length := by
  fun_induction skipDeclaration depth within line us with
  | case1 => simp [endsEarly] at h
  | case5 =>
    simp only [Except.ok.injEq, Prod.mk.injEq, true_and] at h
    simp [← h]
  | _ => grind

theorem length_expectCData_le {word : List Char} {p q : Place}
    (h : expectCData word p = .ok ((), q)) : q.rest.length ≤ p.rest.length := by
  fun_induction expectCData word p with
  | case1 => simp_all
  | case2 => simp [endsEarly] at h
  | case3 => grind
  | case4 => simp at h

theorem length_scanLiteral_le {line : Nat} {us vs : List Scalar} {q : Place}
    (h : scanLiteral line us = .ok (vs, q)) : q.rest.length ≤ us.length := by
  fun_induction scanLiteral line us generalizing vs q with
  | case1 => simp at h
  | case2 =>
    simp only [Except.ok.injEq, Prod.mk.injEq] at h
    simp only [← h.2, List.length_cons]
    omega
  | case3 line rest ih | case4 line rest _ ih | case5 line u rest _ _ _ ih =>
    have := length_push_le (fun _ _ => ih) h
    simp only [List.length_cons] at *
    omega

end BMethod.Xml
