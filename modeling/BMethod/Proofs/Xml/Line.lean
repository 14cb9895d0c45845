import Mathlib
import BMethod.Xml.Token

/-!
# Lines are counted

Whatever is read of a document, the line reached is further by the line feeds that were read. So
the line of a tag is the line on which the tag ends, counted from one.
-/

namespace BMethod.Xml

open Text (Scalar)

/-! ## From place to place -/

/-- The second place is reached from the first by reading on, and its line is further by the line
feeds in between. -/
def Place.Reaches (p q : Place) : Prop :=
  ∃ us, p.rest = us ++ q.rest ∧ q.line = p.line + lineFeeds us

namespace Place.Reaches

variable {p q r : Place} {line : Nat} {u : Scalar} {rest : List Scalar}

theorem refl (p : Place) : p.Reaches p :=
  ⟨[], rfl, rfl⟩

theorem trans (h : p.Reaches q) (h' : q.Reaches r) : p.Reaches r := by
  obtain ⟨us, hrest, hline⟩ := h
  obtain ⟨vs, hrest', hline'⟩ := h'
  refine ⟨us ++ vs, by rw [hrest, hrest', List.append_assoc], ?_⟩
  rw [hline', hline, lineFeeds, lineFeeds, lineFeeds, List.countP_append, Nat.add_assoc]

theorem le (h : p.Reaches q) : p.line ≤ q.line := by
  obtain ⟨us, -, hline⟩ := h
  omega

theorem unit (line : Nat) (u : Scalar) (rest : List Scalar) :
    Reaches ⟨line, u :: rest⟩ ⟨line + lineFeed u, rest⟩ := by
  refine ⟨[u], rfl, ?_⟩
  simp [lineFeeds, lineFeed, List.countP_cons]

theorem skip (us : List Scalar) (hrest : p.rest = us ++ rest) (hnone : lineFeeds us = 0) :
    p.Reaches ⟨p.line, rest⟩ :=
  ⟨us, hrest, by rw [hnone]; rfl⟩

end Place.Reaches

/-- Every place that reading ends at is reached from a place. -/
def Scan.From {α : Type} (p : Place) (s : Scan α) : Prop :=
  ∀ a q, s = .ok (a, q) → p.Reaches q

namespace Scan.From

variable {α β : Type} {p q : Place} {s : Scan α}

theorem error {e : Nat × Problem} : Scan.From p (.error e : Scan α) := by
  intro a q h
  cases h

theorem ok {a : α} (h : p.Reaches q) : Scan.From p (.ok (a, q) : Scan α) := by
  intro b r hr
  cases hr
  exact h

theorem before (h : Scan.From q s) (hpq : p.Reaches q) : s.From p :=
  fun a r hr => hpq.trans (h a r hr)

theorem push {s : Scan (List Scalar)} (h : s.From p) (u : Scalar) : (s.push u).From p := by
  cases s with
  | error => exact error
  | ok r => exact ok (h r.1 r.2 rfl)

theorem checked {s : Scan (List Scalar)} (h : s.From p) : s.checked.From p := by
  unfold Scan.checked
  split
  · exact error
  · split
    · exact ok (h _ _ rfl)
    · exact error

theorem tokens {meaning : Nat → α → List Token} (h : s.From p) : (s.tokens meaning).From p := by
  cases s with
  | error => exact error
  | ok r => exact ok (h r.1 r.2 rfl)

end Scan.From

/-! ## Spaces and names -/

theorem reaches_takeWhile {f : Scalar → Bool} (hf : f (.char '\n') = false) (p : Place) :
    p.Reaches ⟨p.line, p.rest.dropWhile f⟩ := by
  refine ⟨p.rest.takeWhile f, (List.takeWhile_append_dropWhile).symm, ?_⟩
  have hnone : lineFeeds (p.rest.takeWhile f) = 0 := by
    refine List.countP_eq_zero.2 fun u hu => ?_
    have hu := List.mem_takeWhile_imp hu
    simp only [decide_eq_true_eq]
    rintro rfl
    rw [hf] at hu
    cases hu
  rw [hnone]
  rfl

theorem reaches_skipSpace (p : Place) : p.Reaches p.skipSpace :=
  ⟨p.rest.takeWhile isSpace, (List.takeWhile_append_dropWhile).symm, rfl⟩

theorem from_scanName (absent : Problem) (p : Place) : (scanName absent p).From p := by
  unfold scanName
  dsimp only
  split_ifs
  · exact .error
  · exact .error
  · split
    · exact .ok (reaches_takeWhile (by decide) p)
    · exact .error

theorem from_scanQName (absent : Problem) (p : Place) : (scanQName absent p).From p := by
  unfold scanQName
  split
  · exact .error
  · rename_i hname
    split
    · exact .ok (from_scanName _ _ _ _ hname)
    · exact .error

/-! ## Character data -/

theorem from_closeReference (spelling : List Scalar) (meaning : Option Char) (p : Place) :
    (closeReference spelling meaning p).From p := by
  obtain ⟨line, rest⟩ := p
  unfold closeReference
  split
  · exact .error
  · rename_i u rest hrest
    obtain rfl := hrest
    split
    · rename_i hu
      split
      · subst hu
        exact .ok (.unit line _ rest)
      · exact .error
    · exact .error

theorem from_scanNumber (base : Nat) (mark : List Scalar) (p : Place) :
    (scanNumber base mark p).From p :=
  (from_closeReference _ _ _).before (reaches_takeWhile (by rfl) p)

theorem from_scanReference (p : Place) : (scanReference p).From p := by
  obtain ⟨line, rest⟩ := p
  unfold scanReference
  split
  · rename_i rest hrest
    obtain rfl := hrest
    exact (from_scanNumber _ _ _).before (.skip [.char '#', .char 'x'] rfl rfl)
  · rename_i rest _ hrest
    obtain rfl := hrest
    exact (from_scanNumber _ _ _).before (.skip [.char '#'] rfl rfl)
  · exact (from_closeReference _ _ _).before (reaches_takeWhile (by decide) _)

theorem from_scanText (line : Nat) (us : List Scalar) :
    (scanText line us).From ⟨line, us⟩ := by
  fun_induction scanText line us with
  | case1 | case2 => exact .ok (.refl _)
  | case3 | case5 => exact .error
  | case4 line rest c q hq ih =>
    exact ((ih.before (from_scanReference _ _ _ hq)).before (.unit line _ rest)).push _
  | case6 line rest ih =>
    exact ((ih.before (.unit line (.char '\n') rest)).before (.unit line (.char '\r') _)).push _
  | case7 line rest _ ih => exact (ih.before (.unit line (.char '\r') rest)).push _
  | case8 line u rest _ _ _ _ _ ih => exact (ih.before (.unit line u rest)).push _

theorem from_scanQuoted (quote : Char) (line : Nat) (us : List Scalar) (hquote : quote ≠ '\n') :
    (scanQuoted quote line us).From ⟨line, us⟩ := by
  fun_induction scanQuoted quote line us with
  | case1 => exact .ok (.refl _)
  | case2 | case4 => exact .error
  | case3 line rest c q hq ih =>
    exact ((ih.before (from_scanReference _ _ _ hq)).before (.unit line _ rest)).push _
  | case5 line rest ih =>
    exact ((ih.before (.unit line (.char '\n') rest)).before (.unit line (.char '\r') _)).push _
  | case6 line rest _ ih => exact (ih.before (.unit line (.char '\r') rest)).push _
  | case7 line rest => exact .ok (.skip [.char quote] rfl (by simp [lineFeeds, hquote]))
  | case8 line u rest _ _ _ _ _ ih => exact (ih.before (.unit line u rest)).push _

theorem from_scanLiteral (line : Nat) (us : List Scalar) :
    (scanLiteral line us).From ⟨line, us⟩ := by
  fun_induction scanLiteral line us with
  | case1 => exact .error
  | case2 line rest => exact .ok (.skip [.char ']', .char ']', .char '>'] rfl rfl)
  | case3 line rest ih =>
    exact ((ih.before (.unit line (.char '\n') rest)).before (.unit line (.char '\r') _)).push _
  | case4 line rest _ ih => exact (ih.before (.unit line (.char '\r') rest)).push _
  | case5 line u rest _ _ _ ih => exact (ih.before (.unit line u rest)).push _

/-! ## Tags -/

theorem from_scanValue (p : Place) : (scanValue p).From p := by
  obtain ⟨line, rest⟩ := p
  unfold scanValue
  split
  · exact .error
  · rename_i rest hrest
    obtain rfl := hrest
    exact ((from_scanQuoted _ _ _ (by decide)).before (.unit line (.char '"') rest)).checked
  · rename_i rest hrest
    obtain rfl := hrest
    exact ((from_scanQuoted _ _ _ (by decide)).before (.unit line (.char '\x27') rest)).checked
  · exact .error

theorem from_scanAttr (p : Place) : (scanAttr p).From p := by
  unfold scanAttr
  split
  · exact .error
  · rename_i name q hname
    have hspace := (from_scanQName _ _ _ _ hname).trans (reaches_skipSpace q)
    split
    · exact .error
    · rename_i line rest hrest
      rw [hrest] at hspace
      have hequals := hspace.trans (.unit line (.char '=') rest)
      split
      · exact .error
      · rename_i value r hvalue
        exact .ok ((hequals.trans (reaches_skipSpace _)).trans (from_scanValue _ _ _ hvalue))
    · exact .error

theorem from_scanAttrs (p : Place) : (scanAttrs p).From p := by
  fun_induction scanAttrs p with
  | case1 | case4 | case5 | case6 | case7 => exact .error
  | case2 p rest hrest =>
    exact .ok ((reaches_skipSpace p).trans (.skip [.char '>'] hrest rfl))
  | case3 p rest hrest =>
    exact .ok ((reaches_skipSpace p).trans (.skip [.char '/', .char '>'] hrest rfl))
  | case8 p a s ha bs closed r hbs _ _ _ _ _ ih =>
    exact .ok (((reaches_skipSpace p).trans (from_scanAttr _ _ _ ha)).trans (ih _ _ hbs))

theorem from_scanStart (p : Place) : (scanStart p).From p := by
  unfold scanStart
  split
  · exact .error
  · rename_i name q hname
    split
    · exact .error
    · rename_i hattrs
      exact .ok ((from_scanQName _ _ _ _ hname).trans (from_scanAttrs _ _ _ hattrs))

theorem from_scanEnd (p : Place) : (scanEnd p).From p := by
  unfold scanEnd
  split
  · exact .error
  · rename_i name q hname
    have hspace := (from_scanQName _ _ _ _ hname).trans (reaches_skipSpace q)
    split
    · exact .error
    · rename_i line rest hrest
      rw [hrest] at hspace
      exact .ok (hspace.trans (.unit line (.char '>') rest))
    · exact .error

/-! ## What stands beside elements -/

theorem from_skipComment (line : Nat) (us : List Scalar) :
    (skipComment line us).From ⟨line, us⟩ := by
  fun_induction skipComment line us with
  | case1 | case3 | case4 => exact .error
  | case2 => exact .ok (.skip [.char '-', .char '-', .char '>'] rfl rfl)
  | case5 line u rest _ _ _ ih => exact ih.before (.unit line u rest)

/-- What was found is where it was found. -/
theorem eq_of_breakOn {pattern us before after : List Scalar}
    (h : breakOn pattern us = some (before, after)) : us = before ++ (pattern ++ after) := by
  induction us generalizing before with
  | nil =>
    rw [breakOn] at h
    split_ifs at h with hempty
    cases h
    simpa using hempty
  | cons u us ih =>
    rw [breakOn] at h
    split_ifs at h with hprefix
    · cases h
      obtain ⟨rest, hrest⟩ := List.isPrefixOf_iff_prefix.1 hprefix
      simp [← hrest]
    · obtain ⟨found, hfound, h⟩ := Option.map_eq_some_iff.1 h
      cases h
      rw [List.cons_append, ← ih hfound]

theorem from_skipInstruction (p : Place) : (skipInstruction p).From p := by
  unfold skipInstruction
  split
  · exact .error
  · rename_i target q hname
    have hspace := (from_scanName _ _ _ _ hname).trans (reaches_skipSpace q)
    split
    · exact .error
    · -- The mark at the end is not part of what was found before it.
      rename_i content rest hbreak
      have hcontent : q.skipSpace.Reaches
          ⟨q.skipSpace.line + lineFeeds content, ascii "?>" ++ rest⟩ :=
        ⟨content, eq_of_breakOn hbreak, rfl⟩
      have hmark := hcontent.trans (.skip (ascii "?>") rfl rfl)
      split
      · exact .ok (hspace.trans hmark)
      · exact .error

theorem from_skipDeclaration (depth : Nat) (within : Enclosure) (line : Nat) (us : List Scalar) :
    (skipDeclaration depth within line us).From ⟨line, us⟩ := by
  fun_induction skipDeclaration depth within line us with
  | case1 => exact .error
  | case2 depth mark line u rest ih => exact ih.before (.unit line u rest)
  | case3 depth line rest ih => exact ih.before (.skip [.char '-', .char '-', .char '>'] rfl rfl)
  | case4 depth line u rest _ ih => exact ih.before (.unit line u rest)
  | case5 line rest => exact .ok (.skip [.char '>'] rfl rfl)
  | case6 depth line rest _ ih => exact ih.before (.skip [.char '>'] rfl rfl)
  | case7 depth line rest ih => exact ih.before (.skip (ascii "<!--") rfl rfl)
  | case8 depth line rest _ ih => exact ih.before (.skip [.char '<'] rfl rfl)
  | case9 depth line u rest _ _ _ ih => exact ih.before (.unit line u rest)

theorem from_expectCData {word : List Char} (p : Place) (hword : '\n' ∉ word) :
    (expectCData word p).From p := by
  fun_induction expectCData word p with
  | case1 => exact .ok (.refl _)
  | case2 | case4 => exact .error
  | case3 p c cs rest hrest ih =>
    obtain ⟨hc, hcs⟩ : '\n' ≠ c ∧ '\n' ∉ cs := by simpa using hword
    exact (ih hcs).before (.skip [.char c] hrest (by simp [lineFeeds, hc.symm]))

theorem from_scanCData (p : Place) : (scanCData p).From p := by
  unfold scanCData
  split
  · rename_i q hq
    exact ((from_scanLiteral _ _).before (from_expectCData p (by decide) _ _ hq)).checked
  · exact .error

/-! ## Tokens -/

theorem from_scanBang (p : Place) : (scanBang p).From p := by
  obtain ⟨line, rest⟩ := p
  unfold scanBang
  split
  · exact .error
  · rename_i rest hrest
    exact ((from_skipComment line rest).before (.skip [.char '-', .char '-'] hrest rfl)).tokens
  · exact .error
  · exact .error
  · rename_i rest hrest
    exact ((from_scanCData _).before (.skip [.char '['] hrest rfl)).tokens
  · rename_i u rest _ _ _ _ hrest
    obtain rfl := hrest
    exact ((from_skipDeclaration _ _ _ _).before (.unit line u rest)).tokens

theorem from_scanMarkup (p : Place) : (scanMarkup p).From p := by
  unfold scanMarkup
  split
  · exact .error
  · rename_i rest hrest
    exact ((from_scanEnd _).before (.skip [.char '/'] hrest rfl)).tokens
  · rename_i rest hrest
    exact ((from_skipInstruction _).before (.skip [.char '?'] hrest rfl)).tokens
  · rename_i rest hrest
    exact (from_scanBang _).before (.skip [.char '!'] hrest rfl)
  · exact (from_scanStart p).tokens

theorem Scan.tokens_eq_ok {α : Type} {meaning : Nat → α → List Token} {s : Scan α}
    {ts : List Token} {q : Place} (h : s.tokens meaning = .ok (ts, q)) :
    ∃ a, s = .ok (a, q) ∧ meaning q.line a = ts := by
  cases s with
  | error => cases h
  | ok r =>
    obtain ⟨a, r⟩ := r
    cases h
    exact ⟨a, rfl, rfl⟩

def startLines (ts : List Token) : List Nat :=
  ts.filterMap fun
    | .start line _ _ => some line
    | .stop _ _ | .text _ | .aside => none

theorem startLines_append (ts us : List Token) :
    startLines (ts ++ us) = startLines ts ++ startLines us :=
  List.filterMap_append

theorem startLines_scanBang {p q : Place} {ts : List Token} (h : scanBang p = .ok (ts, q)) :
    startLines ts = [] := by
  unfold scanBang at h
  split at h
  all_goals first
    | cases h
    | obtain ⟨a, -, rfl⟩ := Scan.tokens_eq_ok h
      rfl

theorem startLines_scanMarkup {p q : Place} {ts : List Token} (h : scanMarkup p = .ok (ts, q)) :
    startLines ts = [] ∨ startLines ts = [q.line] := by
  unfold scanMarkup at h
  split at h
  · cases h
  · obtain ⟨n, -, rfl⟩ := Scan.tokens_eq_ok h
    exact .inl rfl
  · obtain ⟨_, -, rfl⟩ := Scan.tokens_eq_ok h
    exact .inl rfl
  · exact .inl (startLines_scanBang h)
  · obtain ⟨t, -, rfl⟩ := Scan.tokens_eq_ok h
    rw [StartTag.tokens]
    cases t.closed <;> exact .inr rfl

/-- The lines of start tags do not decrease, from the line on which reading begins. -/
theorem startLines_scanTokens (p : Place) :
    (p.line :: startLines (scanTokens p).tokens).Pairwise (· ≤ ·) := by
  have hlater : ∀ {p q : Place} {ls : List Nat}, p.Reaches q →
      (q.line :: ls).Pairwise (· ≤ ·) → (p.line :: ls).Pairwise (· ≤ ·) := by
    intro p q ls hpq h
    obtain ⟨hall, hrest⟩ := List.pairwise_cons.1 h
    exact List.pairwise_cons.2 ⟨fun l hl => hpq.le.trans (hall l hl), hrest⟩
  -- The invariant: no start tag that follows is on a line before the place that is reached.
  fun_induction scanTokens p with
  | case1 | case2 | case4 => simp [startLines]
  | case3 p rest ts q hmarkup hp ih =>
    have hreaches : p.Reaches q := Place.Reaches.trans (.skip [.char '<'] hp rfl)
      (from_scanMarkup _ _ _ hmarkup)
    rw [TokenStream.after, startLines_append]
    rcases startLines_scanMarkup hmarkup with hts | hts
    · rw [hts]
      exact hlater hreaches ih
    · rw [hts]
      refine hlater hreaches (List.pairwise_cons.2 ⟨?_, ih⟩)
      intro l hl
      rcases List.mem_cons.1 hl with rfl | hl
      · exact le_rfl
      · exact (List.pairwise_cons.1 ih).1 l hl
  | case5 p u rest hp _ s q htext ih =>
    have htext := (from_scanText p.line (u :: rest)).checked _ _ htext
    have hreaches : p.Reaches q := by
      rwa [← hp] at htext
    exact hlater hreaches ih

theorem start_of_mem_scanMarkup {p q : Place} {ts : List Token} {line : Nat} {name : QName}
    {attrs : List TagAttr} (h : scanMarkup p = .ok (ts, q)) (ht : .start line name attrs ∈ ts) :
    ∃ closed, scanStart p = .ok (⟨name, attrs, closed⟩, q) ∧ line = q.line := by
  have hmem : line ∈ startLines ts := List.mem_filterMap.2 ⟨_, ht, rfl⟩
  unfold scanMarkup at h
  split at h
  · cases h
  · obtain ⟨n, -, rfl⟩ := Scan.tokens_eq_ok h
    simp at ht
  · obtain ⟨_, -, rfl⟩ := Scan.tokens_eq_ok h
    simp at ht
  · rw [startLines_scanBang h] at hmem
    cases hmem
  · obtain ⟨t, hstart, rfl⟩ := Scan.tokens_eq_ok h
    rw [StartTag.tokens] at ht
    obtain ⟨rfl, rfl, rfl⟩ : line = q.line ∧ name = t.name ∧ attrs = t.attrs := by
      cases t.closed <;> simpa using ht
    exact ⟨t.closed, hstart, rfl⟩

theorem start_of_mem_scanTokens {p : Place} {line : Nat} {name : QName} {attrs : List TagAttr}
    (h : .start line name attrs ∈ (scanTokens p).tokens) :
    ∃ q closed rest, p.Reaches q ∧ scanStart q = .ok (⟨name, attrs, closed⟩, ⟨line, rest⟩) := by
  fun_induction scanTokens p with
  | case1 | case2 | case4 => simp at h
  | case3 p rest ts q hmarkup hp ih =>
    have hmark : p.Reaches ⟨p.line, rest⟩ := .skip [.char '<'] hp rfl
    rcases List.mem_append.1 h with h | h
    · obtain ⟨closed, hstart, rfl⟩ := start_of_mem_scanMarkup hmarkup h
      exact ⟨_, closed, q.rest, hmark, hstart⟩
    · obtain ⟨r, closed, after, hreaches, hstart⟩ := ih h
      exact ⟨r, closed, after,
        (hmark.trans (from_scanMarkup _ _ _ hmarkup)).trans hreaches, hstart⟩
  | case5 p u rest hp _ s q htext ih =>
    have htext := (from_scanText p.line (u :: rest)).checked _ _ htext
    rw [← hp] at htext
    obtain ⟨r, closed, after, hreaches, hstart⟩ := ih (by simpa [TokenStream.after] using h)
    exact ⟨r, closed, after, htext.trans hreaches, hstart⟩

/-- The line of a start tag is the line on which the tag ends, counted from one. -/
theorem line_of_start {document : List Scalar} {line : Nat} {name : QName} {attrs : List TagAttr}
    (h : .start line name attrs ∈ (tokens document).tokens) :
    ∃ before after p closed, document = before ++ after ∧ line = 1 + lineFeeds before ∧
      scanStart p = .ok (⟨name, attrs, closed⟩, ⟨line, after⟩) := by
  obtain ⟨p, closed, after, hreaches, hstart⟩ := start_of_mem_scanTokens h
  obtain ⟨before, hdocument, hline⟩ := hreaches.trans (from_scanStart _ _ _ hstart)
  exact ⟨before, after, p, closed, hdocument, hline, hstart⟩

end BMethod.Xml
