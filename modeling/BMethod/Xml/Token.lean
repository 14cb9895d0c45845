import BMethod.Xml.Aside

/-!
# Tokens

A document as a sequence of start tags, end tags, runs of text and what stands beside elements, in
order. An element that ends with its start tag gives both tokens. Comments, instructions and
declarations give tokens that say nothing more.
-/

namespace BMethod.Xml

open Text (Scalar)

/-- A token of a document. Tags carry the line reached at their end. Comments, instructions and
declarations stand aside. -/
inductive Token where
  | start (line : Nat) (name : QName) (attrs : List TagAttr)
  | stop (line : Nat) (name : QName)
  | text (s : String)
  | aside
deriving DecidableEq

/-- The tokens of a document, and how reading them ended: at the end of the document on some line,
or at a problem. -/
structure TokenStream where
  tokens : List Token
  ending : Except (Nat × Problem) Nat

def TokenStream.after (ts : List Token) (s : TokenStream) : TokenStream :=
  ⟨ts ++ s.tokens, s.ending⟩

/-- The tokens of a start tag that was read up to a line. -/
def StartTag.tokens (line : Nat) (t : StartTag) : List Token :=
  .start line t.name t.attrs :: if t.closed then [.stop line t.name] else []

def Scan.tokens {α : Type} (meaning : Nat → α → List Token) : Scan α → Scan (List Token)
  | .ok (a, q) => .ok (meaning q.line a, q)
  | .error e => .error e

def scanCData (p : Place) : Scan String :=
  match expectCData ['C', 'D', 'A', 'T', 'A', '['] p with
  | .ok ((), q) => (scanLiteral q.line q.rest).checked
  | .error e => .error e

/-- Reads what follows an opening bracket and an exclamation mark: a comment, a literal section or
a declaration, whose first unit is not looked at. -/
def scanBang (p : Place) : Scan (List Token) :=
  match p.rest with
  | [] => endsEarly p.line
  | .char '-' :: .char '-' :: rest => (skipComment p.line rest).tokens fun _ _ => [.aside]
  | [.char '-'] => endsEarly p.line
  | .char '-' :: u :: _ => .error (p.line + lineFeed u, .noComment)
  | .char '[' :: rest => (scanCData ⟨p.line, rest⟩).tokens fun _ s => [.text s]
  | u :: rest => (skipDeclaration 0 .none (p.line + lineFeed u) rest).tokens fun _ _ => [.aside]

def scanMarkup (p : Place) : Scan (List Token) :=
  match p.rest with
  | [] => endsEarly p.line
  | .char '/' :: rest => (scanEnd ⟨p.line, rest⟩).tokens fun line n => [.stop line n]
  | .char '?' :: rest => (skipInstruction ⟨p.line, rest⟩).tokens fun _ _ => [.aside]
  | .char '!' :: rest => scanBang ⟨p.line, rest⟩
  | _ => (scanStart p).tokens StartTag.tokens

/-! ## Reading on makes progress -/

theorem length_tokens_le {α : Type} {meaning : Nat → α → List Token} {s : Scan α}
    {ts : List Token} {q : Place} {n : Nat}
    (ih : ∀ a r, s = .ok (a, r) → r.rest.length ≤ n) (h : s.tokens meaning = .ok (ts, q)) :
    q.rest.length ≤ n := by
  match s with
  | .ok (a, r) =>
    simp only [Scan.tokens, Except.ok.injEq, Prod.mk.injEq] at h
    rw [← h.2]
    exact ih a r rfl
  | .error e => simp [Scan.tokens] at h

theorem length_scanCData_le {p q : Place} {s : String} (h : scanCData p = .ok (s, q)) :
    q.rest.length ≤ p.rest.length := by
  rw [scanCData] at h
  split at h
  · rename_i r hr
    exact Nat.le_trans (length_checked_le (fun _ _ => length_scanLiteral_le) h)
      (length_expectCData_le hr)
  · simp at h

theorem length_scanBang_le {p q : Place} {ts : List Token} (h : scanBang p = .ok (ts, q)) :
    q.rest.length ≤ p.rest.length := by
  rw [scanBang] at h
  split at h
  · simp [endsEarly] at h
  · rename_i rest hrest
    have := length_tokens_le (fun _ _ => length_skipComment_le) h
    simp only [hrest, List.length_cons]
    omega
  · simp [endsEarly] at h
  · simp at h
  · rename_i rest hrest
    have := length_tokens_le (fun _ _ => length_scanCData_le) h
    simp only [hrest, List.length_cons] at *
    omega
  · rename_i u rest _ _ _ _ hrest
    have := length_tokens_le (fun _ _ => length_skipDeclaration_le) h
    simp only [hrest, List.length_cons]
    omega

theorem length_scanMarkup_le {p q : Place} {ts : List Token} (h : scanMarkup p = .ok (ts, q)) :
    q.rest.length ≤ p.rest.length := by
  rw [scanMarkup] at h
  split at h
  · simp [endsEarly] at h
  · rename_i rest hrest
    have := length_tokens_le (fun _ _ hs => Nat.le_of_lt (length_scanEnd_lt hs)) h
    simp only [hrest, List.length_cons] at *
    omega
  · rename_i rest hrest
    have := length_tokens_le (fun _ _ => length_skipInstruction_le) h
    simp only [hrest, List.length_cons] at *
    omega
  · rename_i rest hrest
    have := length_scanBang_le h
    simp only [hrest, List.length_cons] at *
    omega
  · exact length_tokens_le (fun _ _ hs => Nat.le_of_lt (length_scanStart_lt hs)) h

theorem length_scanText_le {line : Nat} {us vs : List Scalar} {q : Place}
    (h : scanText line us = .ok (vs, q)) : q.rest.length ≤ us.length := by
  fun_induction scanText line us generalizing vs q with
  | case1 =>
    simp only [Except.ok.injEq, Prod.mk.injEq] at h
    simp [← h.2]
  | case2 =>
    simp only [Except.ok.injEq, Prod.mk.injEq] at h
    simp [← h.2]
  | case3 => simp at h
  | case4 line rest c r hr ih =>
    have := length_scanReference_lt hr
    have := length_push_le (fun _ _ => ih) h
    simp only [List.length_cons] at *
    omega
  | case5 => simp at h
  | case6 line rest ih | case7 line rest _ ih | case8 line u rest _ _ _ _ _ ih =>
    have := length_push_le (fun _ _ => ih) h
    simp only [List.length_cons] at *
    omega

theorem length_scanText_lt {line : Nat} {u : Scalar} {us vs : List Scalar} {q : Place}
    (hu : u ≠ .char '<') (h : scanText line (u :: us) = .ok (vs, q)) :
    q.rest.length < (u :: us).length := by
  rw [scanText.eq_def] at h
  split at h
  · simp_all
  · simp_all
  · simp at h
  · split at h
    · rename_i hus _ _ hr
      have := length_scanReference_lt hr
      have := length_push_le (fun _ _ => length_scanText_le) h
      simp only [List.length_cons] at *
      have := congrArg List.length hus
      simp only [List.length_cons] at this
      omega
    · simp at h
  all_goals
    have hle := length_push_le (fun _ _ => length_scanText_le) h
    simp_all only [List.cons.injEq, List.length_cons]
    omega

def scanTokens (p : Place) : TokenStream :=
  match _hp : p.rest with
  | [] => ⟨[], .ok p.line⟩
  | u :: rest =>
    if _hu : u = .char '<' then
      match _h : scanMarkup ⟨p.line, rest⟩ with
      | .error e => ⟨[], .error e⟩
      | .ok (ts, q) => (scanTokens q).after ts
    else
      match _h : (scanText p.line (u :: rest)).checked with
      | .error e => ⟨[], .error e⟩
      | .ok (s, q) => (scanTokens q).after [.text s]
termination_by p.rest.length
decreasing_by
  · have := length_scanMarkup_le _h
    simp only [_hp, List.length_cons] at *
    omega
  · rw [_hp]
    have := length_checked_le (n := rest.length)
      (fun _ _ hs => Nat.le_of_lt_succ (length_scanText_lt _hu hs)) _h
    simp only [List.length_cons]
    omega

def tokens (document : List Scalar) : TokenStream :=
  scanTokens ⟨1, document⟩

end BMethod.Xml
