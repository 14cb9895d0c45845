import Mathlib
import BMethod.Proofs.Text.Spelling
import BMethod.Xml.CharData

/-!
# Character data is read back

Every character that may stand in a document is read back from its spelling, in text and in
attribute values, and reading the spelling does not reach another line. White space between tags
stands for itself.
-/

namespace BMethod.Xml

open Text (Scalar)

def units (cs : List Char) : List Scalar :=
  cs.map .char

@[simp] theorem units_nil : units [] = [] := rfl

@[simp] theorem units_cons (c : Char) (cs : List Char) :
    units (c :: cs) = .char c :: units cs := rfl

@[simp] theorem units_append (cs ds : List Char) : units (cs ++ ds) = units cs ++ units ds :=
  List.map_append

def Allowed (cs : List Char) : Prop :=
  ∀ c ∈ cs, isAllowed c = true

instance (cs : List Char) : Decidable (Allowed cs) :=
  List.decidableBAll (isAllowed · = true) cs

theorem allowed_toString (n : Nat) : Allowed (toString n).toList := by
  intro c hc
  rw [Nat.toString_eq_ofList_toDigits, String.toList_ofList] at hc
  have hdigit := Text.toNat_of_isDigit (Nat.isDigit_of_mem_toDigits (by omega) (by omega) hc)
  simp only [isAllowed, Text.inRanges, allowedRanges, List.any_cons, Bool.or_eq_true,
    Bool.and_eq_true, decide_eq_true_eq]
  omega

/-- Puts characters before the character data read after them. -/
def Scan.pushAll (cs : List Char) (s : Scan (List Scalar)) : Scan (List Scalar) :=
  cs.foldr (fun c s => s.push (.char c)) s

@[simp] theorem pushAll_nil (s : Scan (List Scalar)) : s.pushAll [] = s := rfl

@[simp] theorem pushAll_cons (c : Char) (cs : List Char) (s : Scan (List Scalar)) :
    s.pushAll (c :: cs) = (s.pushAll cs).push (.char c) := rfl

theorem pushAll_append (cs ds : List Char) (s : Scan (List Scalar)) :
    s.pushAll (cs ++ ds) = (s.pushAll ds).pushAll cs := by
  simp [Scan.pushAll]

theorem pushAll_ok (cs : List Char) (us : List Scalar) (q : Place) :
    Scan.pushAll cs (.ok (us, q)) = .ok (units cs ++ us, q) := by
  induction cs with
  | nil => rfl
  | cons c cs ih => rw [pushAll_cons, ih]; rfl

theorem checkChars_units {cs : List Char} (h : Allowed cs) : checkChars (units cs) = .ok cs := by
  induction cs with
  | nil => rfl
  | cons c cs ih =>
    rw [units_cons, checkChars, if_pos (h c List.mem_cons_self),
      ih fun d hd => h d (List.mem_cons_of_mem _ hd)]

/-- The spelling of a reference, and the character it stands for. -/
def references : List (List Char × Char) :=
  [(['#', '3', '4', ';'], '"'), (['#', '3', '9', ';'], '\x27'), (['a', 'm', 'p', ';'], '&'),
   (['l', 't', ';'], '<'), (['g', 't', ';'], '>'), (['#', 'x', '9', ';'], '\t'),
   (['#', 'x', 'A', ';'], '\n'), (['#', 'x', 'D', ';'], '\r')]

theorem scanReference_spelled {line : Nat} {rest : List Scalar} {r : List Char × Char}
    (h : r ∈ references) : scanReference ⟨line, units r.1 ++ rest⟩ = .ok (r.2, ⟨line, rest⟩) := by
  simp only [references, List.mem_cons, List.not_mem_nil, or_false] at h
  rcases h with rfl | rfl | rfl | rfl | rfl | rfl | rfl | rfl
  · rfl
  · rfl
  · rfl
  · rfl
  · rfl
  · rfl
  · rfl
  · rfl

def special : List Char :=
  ['"', '\x27', '&', '<', '>', '\t', '\n', '\r']

theorem escapeChar_cases {c : Char} (h : isAllowed c = true) :
    (∃ r ∈ references, r.2 = c ∧ escapeChar c = '&' :: r.1) ∨
      (escapeChar c = [c] ∧ c ∉ special) := by
  by_cases hmem : c ∈ special
  · left
    simp only [special, List.mem_cons, List.not_mem_nil, or_false] at hmem
    rcases hmem with rfl | rfl | rfl | rfl | rfl | rfl | rfl | rfl <;> decide
  · refine .inr ⟨?_, hmem⟩
    simp only [special, List.mem_cons, List.not_mem_nil, or_false, not_or] at hmem
    obtain ⟨hquote, hapos, hamp, hlt, hgt, htab, hnl, hcr⟩ := hmem
    simp [escapeChar, hquote, hapos, hamp, hlt, hgt, htab, hnl, hcr, h]

/-! ## Attribute values -/

theorem scanQuoted_reference {quote : Char} {line : Nat} {rest : List Scalar} {r : List Char × Char}
    (h : r ∈ references) : scanQuoted quote line (.char '&' :: (units r.1 ++ rest)) =
      (scanQuoted quote line rest).push (.char r.2) := by
  rw [scanQuoted]
  split
  · rename_i c q hq
    rw [scanReference_spelled h] at hq
    cases hq
    rfl
  · rename_i e he
    rw [scanReference_spelled h] at he
    cases he

theorem lineFeed_of_ne {c : Char} (h : c ≠ '\n') : lineFeed (.char c) = 0 := by
  simp [lineFeed, h]

theorem scanQuoted_plain {line : Nat} {rest : List Scalar} {c : Char} (h : c ∉ special) :
    scanQuoted '"' line (.char c :: rest) = (scanQuoted '"' line rest).push (.char c) := by
  simp only [special, List.mem_cons, List.not_mem_nil, or_false, not_or] at h
  obtain ⟨hquote, -, hamp, hlt, -, -, hnl, hcr⟩ := h
  rw [scanQuoted, lineFeed_of_ne hnl, if_neg]
  all_goals simp_all

theorem scanQuoted_escape {line : Nat} {rest : List Scalar} {cs : List Char} (h : Allowed cs) :
    scanQuoted '"' line (units (cs.flatMap escapeChar) ++ .char '"' :: rest) =
      .ok (units cs, ⟨line, rest⟩) := by
  induction cs with
  | nil => simp [scanQuoted]
  | cons c cs ih =>
    have ih := ih fun d hd => h d (List.mem_cons_of_mem _ hd)
    rw [List.flatMap_cons, units_append, List.append_assoc]
    rcases escapeChar_cases (h c List.mem_cons_self) with ⟨r, hr, rfl, heq⟩ | ⟨heq, hplain⟩
    · rw [heq, units_cons, List.cons_append, scanQuoted_reference hr, ih]
      rfl
    · rw [heq, units_cons, units_nil, List.singleton_append, scanQuoted_plain hplain, ih]
      rfl

/-! ## Text -/

theorem scanText_reference {line : Nat} {rest : List Scalar} {r : List Char × Char}
    (h : r ∈ references) : scanText line (.char '&' :: (units r.1 ++ rest)) =
      (scanText line rest).push (.char r.2) := by
  rw [scanText]
  split
  · rename_i c q hq
    rw [scanReference_spelled h] at hq
    cases hq
    rfl
  · rename_i e he
    rw [scanReference_spelled h] at he
    cases he

/-- Units that cannot complete the end mark of a literal section. -/
def Quiet (us : List Scalar) : Prop :=
  us.head? ≠ some (.char '>') ∧ ∀ vs, us ≠ .char ']' :: .char '>' :: vs

theorem scanText_plain {line : Nat} {rest : List Scalar} {c : Char} (hlt : c ≠ '<') (hamp : c ≠ '&')
    (hcr : c ≠ '\r') (hquiet : c = ']' → Quiet rest) :
    scanText line (.char c :: rest) =
      (scanText (line + lineFeed (.char c)) rest).push (.char c) := by
  rw [scanText]
  all_goals simp_all
  rintro rest rfl rfl
  exact (hquiet rfl).2 rest rfl

theorem quiet_escape {cs : List Char} {rest : List Scalar} (h : Allowed cs) (hrest : Quiet rest) :
    Quiet (units (cs.flatMap escapeChar) ++ rest) := by
  induction cs with
  | nil => exact hrest
  | cons c cs ih =>
    have ih := ih fun d hd => h d (List.mem_cons_of_mem _ hd)
    rw [List.flatMap_cons, units_append, List.append_assoc]
    rcases escapeChar_cases (h c List.mem_cons_self) with ⟨r, -, -, heq⟩ | ⟨heq, hplain⟩
    · rw [heq, units_cons, List.cons_append]
      exact ⟨by simp, by simp⟩
    · rw [heq, units_cons, units_nil, List.singleton_append]
      have hgt : c ≠ '>' := fun heq => hplain (by rw [heq]; decide)
      refine ⟨by simpa using hgt, ?_⟩
      intro vs hvs
      simp only [List.cons.injEq] at hvs
      exact ih.1 (by rw [hvs.2]; rfl)

theorem scanText_escape {line : Nat} {cs : List Char} {rest : List Scalar} (h : Allowed cs)
    (hrest : Quiet rest) : scanText line (units (cs.flatMap escapeChar) ++ rest) =
      Scan.pushAll cs (scanText line rest) := by
  induction cs with
  | nil => rfl
  | cons c cs ih =>
    have htail : Allowed cs := fun d hd => h d (List.mem_cons_of_mem _ hd)
    rw [List.flatMap_cons, units_append, List.append_assoc]
    rcases escapeChar_cases (h c List.mem_cons_self) with ⟨r, hr, rfl, heq⟩ | ⟨heq, hplain⟩
    · rw [heq, units_cons, List.cons_append, scanText_reference hr, ih htail]
      rfl
    · have hquiet := quiet_escape htail hrest
      simp only [special, List.mem_cons, List.not_mem_nil, or_false, not_or] at hplain
      obtain ⟨-, -, hamp, hlt, -, -, hnl, hcr⟩ := hplain
      rw [heq, units_cons, units_nil, List.singleton_append,
        scanText_plain hlt hamp hcr fun _ => hquiet, lineFeed_of_ne hnl, Nat.add_zero, ih htail]
      rfl

/-- The white space that is written between tags. -/
def Layout (cs : List Char) : Prop :=
  ∀ c ∈ cs, c = '\n' ∨ c = '\t'

theorem scanText_layout {line : Nat} {cs : List Char} {rest : List Scalar} (h : Layout cs) :
    scanText line (units cs ++ rest) = Scan.pushAll cs (scanText (line + cs.count '\n') rest) := by
  induction cs generalizing line with
  | nil => rfl
  | cons c cs ih =>
    have htail : Layout cs := fun d hd => h d (List.mem_cons_of_mem _ hd)
    have hc := h c List.mem_cons_self
    have hne : c ≠ '<' ∧ c ≠ '&' ∧ c ≠ '\r' ∧ c ≠ ']' := by
      rcases hc with rfl | rfl <;> decide
    have hline : line + lineFeed (.char c) + cs.count '\n' = line + (c :: cs).count '\n' := by
      rcases hc with rfl | rfl
      · simp [lineFeed]
        omega
      · simp [lineFeed]
    rw [units_cons, List.cons_append, scanText_plain hne.1 hne.2.1 hne.2.2.1 fun heq =>
      absurd heq hne.2.2.2, ih htail, hline]
    rfl

theorem Layout.allowed {cs : List Char} (h : Layout cs) : Allowed cs := by
  intro c hc
  rcases h c hc with rfl | rfl <;> decide

/-- Units at which text ends: a tag, or the end of the document. -/
def AtTag (us : List Scalar) : Prop :=
  us = [] ∨ ∃ vs, us = .char '<' :: vs

theorem scanText_atTag {line : Nat} {rest : List Scalar} (h : AtTag rest) :
    scanText line rest = .ok ([], ⟨line, rest⟩) := by
  rcases h with rfl | ⟨vs, rfl⟩ <;> rw [scanText]

theorem Layout.quiet {cs : List Char} {rest : List Scalar} (h : Layout cs) (hrest : AtTag rest) :
    Quiet (units cs ++ rest) := by
  cases cs with
  | nil => rcases hrest with rfl | ⟨vs, rfl⟩ <;> simp [Quiet]
  | cons c cs => rcases h c List.mem_cons_self with rfl | rfl <;> simp [Quiet]

theorem scanText_run {line : Nat} {before cs after : List Char} {rest : List Scalar}
    (hbefore : Layout before) (hcs : Allowed cs) (hafter : Layout after) (hrest : AtTag rest) :
    (scanText line (units (before ++ (cs.flatMap escapeChar ++ after)) ++ rest)).checked =
      .ok (String.ofList (before ++ (cs ++ after)),
        ⟨line + before.count '\n' + after.count '\n', rest⟩) := by
  have hall : Allowed (before ++ (cs ++ after)) := by
    simp only [Allowed, List.mem_append]
    rintro c (hc | hc | hc)
    · exact hbefore.allowed c hc
    · exact hcs c hc
    · exact hafter.allowed c hc
  rw [units_append, List.append_assoc, scanText_layout hbefore, units_append, List.append_assoc,
    scanText_escape hcs (hafter.quiet hrest), scanText_layout hafter, scanText_atTag hrest,
    ← pushAll_append, ← pushAll_append, pushAll_ok, List.append_nil, Scan.checked,
    List.append_assoc, checkChars_units hall]

end BMethod.Xml
