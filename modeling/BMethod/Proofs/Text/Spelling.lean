import Mathlib
import BMethod.Text.Blank
import BMethod.Text.Integer
import BMethod.Text.Split

/-!
# Numbers and lists in text

What is written as text is read back: a number that fits a word, and a list of entries with a
separator between them. Trimming takes away the blanks around a text and nothing of the text.
-/

namespace BMethod.Text

/-! ## Numbers -/

theorem pushDigit?_digitChar (n d : Nat) (hd : d < 10) :
    pushDigit? 10 n (Nat.digitChar d) = some (10 * n + d) := by
  have hv : digitValue? (Nat.digitChar d) = some d := by
    interval_cases d <;> rfl
  rw [pushDigit?, hv]
  simp [hd]

theorem digitsFrom?_append (base n : Nat) (cs ds : List Char) :
    digitsFrom? base n (cs ++ ds) = (digitsFrom? base n cs).bind (digitsFrom? base · ds) := by
  induction cs generalizing n with
  | nil => rfl
  | cons c cs ih =>
    simp only [List.cons_append, digitsFrom?]
    cases pushDigit? base n c with
    | none => rfl
    | some m => exact ih m

theorem digitsFrom?_toDigits (n : Nat) : digitsFrom? 10 0 (Nat.toDigits 10 n) = some n := by
  induction n using Nat.strong_induction_on with
  | _ n ih =>
    by_cases hn : n < 10
    · rw [Nat.toDigits_of_lt_base hn]
      simp [digitsFrom?, pushDigit?_digitChar 0 n hn]
    · rw [Nat.toDigits_of_base_le (by omega) (by omega), digitsFrom?_append, ih (n / 10) (by omega)]
      simp only [Option.bind_some, digitsFrom?, pushDigit?_digitChar _ _ (Nat.mod_lt n (by omega))]
      rw [Nat.div_add_mod]

theorem splitSign_digits {cs : List Char} (h : ∀ c ∈ cs, c.isDigit = true) :
    splitSign cs = (false, cs) := by
  unfold splitSign
  split
  · exact absurd (h '+' List.mem_cons_self) (by decide)
  · exact absurd (h '-' List.mem_cons_self) (by decide)
  · rfl

theorem digits?_toDigits (n : Nat) : digits? 10 (Nat.toDigits 10 n) = some n := by
  simp [digits?, Nat.toDigits_ne_nil, digitsFrom?_toDigits]

theorem toList_toString_negSucc (n : Nat) :
    (toString (Int.negSucc n)).toList = '-' :: Nat.toDigits 10 (n + 1) := by
  change ("-" ++ toString (n + 1)).toList = _
  rw [String.toList_append, Nat.toString_eq_ofList_toDigits]
  simp

theorem readInt?_toString_nat (n : Nat) :
    readInt? (toString n) = if inWord n then some (n : Int) else none := by
  have hdigits : ∀ c ∈ Nat.toDigits 10 n, c.isDigit = true :=
    fun c hc => Nat.isDigit_of_mem_toDigits (by omega) (by omega) hc
  unfold readInt?
  rw [Nat.toString_eq_ofList_toDigits, String.toList_ofList, splitSign_digits hdigits]
  simp [digits?_toDigits, signed?]

theorem readInt?_toString_negSucc (n : Nat) : readInt? (toString (Int.negSucc n)) =
    if inWord (Int.negSucc n) then some (Int.negSucc n) else none := by
  have hneg : -((n + 1 : Nat) : Int) = Int.negSucc n := rfl
  have hsigned : signed? true (n + 1) =
      if inWord (Int.negSucc n) then some (Int.negSucc n) else none := by
    simp only [signed?, if_true, hneg]
  unfold readInt?
  rw [toList_toString_negSucc, splitSign]
  dsimp only
  rw [digits?_toDigits, Option.bind_some, hsigned]

theorem readInt?_toString_eq (i : Int) :
    readInt? (toString i) = if inWord i then some i else none := by
  cases i with
  | ofNat n => exact readInt?_toString_nat n
  | negSucc n => exact readInt?_toString_negSucc n

theorem readInt?_toString_int {i : Int} (h : inWord i = true) : readInt? (toString i) = some i := by
  rw [readInt?_toString_eq, if_pos h]

theorem readInt?_toString {n : Nat} (h : n ≤ 9223372036854775807) :
    readInt? (toString n) = some (n : Int) := by
  rw [readInt?_toString_nat, if_pos]
  unfold inWord
  simp only [Bool.and_eq_true, decide_eq_true_eq]
  omega

theorem inWord_of_signed? {negative : Bool} {n : Nat} {i : Int} (h : signed? negative n = some i) :
    inWord i = true := by
  simp only [signed?, Option.ite_none_right_eq_some, Option.some.injEq] at h
  obtain ⟨hword, rfl⟩ := h
  exact hword

theorem inWord_of_readInt? {s : String} {i : Int} (h : readInt? s = some i) : inWord i = true := by
  obtain ⟨n, -, hn⟩ := Option.bind_eq_some_iff.1 h
  exact inWord_of_signed? hn

theorem readInt?_le {s : String} {i : Int} (h : readInt? s = some i) : i ≤ 9223372036854775807 := by
  have hword := inWord_of_readInt? h
  unfold inWord at hword
  simp only [Bool.and_eq_true, decide_eq_true_eq] at hword
  exact hword.2

/-! ## White space -/

theorem trimChars_append_left {bs : List Char} (hbs : ∀ c ∈ bs, isBlank c = true) (cs : List Char) :
    trimChars (bs ++ cs) = trimChars cs := by
  unfold trimChars
  rw [List.dropWhile_append_of_pos hbs]

theorem trimChars_append_right {bs : List Char} (hbs : ∀ c ∈ bs, isBlank c = true)
    (cs : List Char) :
    trimChars (cs ++ bs) = trimChars cs := by
  unfold trimChars
  by_cases h : ∀ c ∈ cs, isBlank c = true
  · have hcs : cs.dropWhile isBlank = [] := List.dropWhile_eq_nil_iff.2 h
    have hbs' : bs.dropWhile isBlank = [] := List.dropWhile_eq_nil_iff.2 hbs
    rw [List.dropWhile_append_of_pos h, hcs, hbs']
  · -- Some character stops the first pass, so only the second one meets the blanks at the end.
    have hstop : (cs.dropWhile isBlank).isEmpty = false := by
      simpa [List.dropWhile_eq_nil_iff] using h
    have hrev : ∀ c ∈ bs.reverse, isBlank c = true := fun c hc => hbs c (List.mem_reverse.1 hc)
    rw [List.dropWhile_append, if_neg (by simp [hstop]), List.reverse_append,
      List.dropWhile_append_of_pos hrev]

theorem trimChars_of_not_blank {cs : List Char} (h : ∀ c ∈ cs, isBlank c = false) :
    trimChars cs = cs := by
  have hdrop : ∀ ds : List Char, (∀ c ∈ ds, isBlank c = false) → ds.dropWhile isBlank = ds := by
    intro ds hds
    cases ds with
    | nil => rfl
    | cons d ds => rw [List.dropWhile_cons_of_neg (by simp [hds d List.mem_cons_self])]
  unfold trimChars
  rw [hdrop cs h, hdrop cs.reverse fun c hc => h c (List.mem_reverse.1 hc), List.reverse_reverse]

theorem mem_of_mem_trimChars {c : Char} {cs : List Char} (h : c ∈ trimChars cs) : c ∈ cs := by
  have h := (List.dropWhile_sublist _).subset (List.mem_reverse.1 h)
  exact (List.dropWhile_sublist _).subset (List.mem_reverse.1 h)

theorem dropWhile_trimChars (cs : List Char) :
    (trimChars cs).dropWhile isBlank = trimChars cs := by
  have htrim : trimChars cs <+: cs.dropWhile isBlank := List.rdropWhile_prefix _ _
  cases hcs : trimChars cs with
  | nil => rfl
  | cons c rest =>
    rw [hcs] at htrim
    obtain ⟨after, hafter⟩ := htrim
    have hhead := List.head_dropWhile_not isBlank (l := cs) (by rw [← hafter]; simp)
    simp only [← hafter, List.cons_append, List.head_cons] at hhead
    exact List.dropWhile_cons_of_neg (by simp [hhead])

theorem trim_trim (s : String) : trim (trim s) = trim s := by
  have hchars : trimChars (trimChars s.toList) = (trimChars s.toList).rdropWhile isBlank := by
    rw [trimChars, dropWhile_trimChars]
    rfl
  rw [trim, trim, String.toList_ofList, hchars]
  exact congrArg String.ofList (List.rdropWhile_idempotent _ _)

theorem toNat_of_isDigit {c : Char} (h : c.isDigit = true) : 48 ≤ c.toNat ∧ c.toNat ≤ 57 := by
  simp only [Char.isDigit, Bool.and_eq_true, decide_eq_true_eq, ge_iff_le,
    UInt32.le_iff_toNat_le] at h
  exact h

theorem isBlank_of_isDigit {c : Char} (h : c.isDigit = true) : isBlank c = false := by
  have hdigit := toNat_of_isDigit h
  simp [isBlank, inRanges, blankRanges]
  omega

theorem isBlank_of_mem_toDigits {n : Nat} {c : Char} (h : c ∈ Nat.toDigits 10 n) :
    isBlank c = false :=
  isBlank_of_isDigit (Nat.isDigit_of_mem_toDigits (by omega) (by omega) h)

theorem trim_toString (n : Nat) : trim (toString n) = toString n := by
  unfold trim
  rw [Nat.toString_eq_ofList_toDigits, String.toList_ofList, trimChars_of_not_blank]
  exact fun c => isBlank_of_mem_toDigits

theorem trim_toString_int (i : Int) : trim (toString i) = toString i := by
  cases i with
  | ofNat n => exact trim_toString n
  | negSucc n =>
    unfold trim
    rw [toList_toString_negSucc, trimChars_of_not_blank, ← toList_toString_negSucc,
      String.ofList_toList]
    intro c hc
    rcases List.mem_cons.1 hc with rfl | hc
    · decide
    · exact isBlank_of_mem_toDigits hc

/-! ## Lists of entries -/

theorem splitChars_of_not_mem {sep : Char} {cs : List Char} (h : sep ∉ cs) :
    splitChars sep cs = [cs] := by
  induction cs with
  | nil => rfl
  | cons c cs ih =>
    rw [List.mem_cons, not_or] at h
    rw [splitChars, if_neg (Ne.symm h.1), ih h.2]

theorem splitChars_ne_nil (sep : Char) (cs : List Char) : splitChars sep cs ≠ [] := by
  cases cs with
  | nil => simp [splitChars]
  | cons c cs =>
    rw [splitChars]
    split
    · simp
    · split <;> simp

theorem splitChars_append (sep : Char) (cs ds : List Char) :
    splitChars sep (cs ++ sep :: ds) = splitChars sep cs ++ splitChars sep ds := by
  induction cs with
  | nil => simp [splitChars]
  | cons c cs ih =>
    rw [List.cons_append, splitChars, splitChars, ih]
    split
    · rw [List.cons_append]
    · cases h : splitChars sep cs with
      | nil => exact absurd h (splitChars_ne_nil sep cs)
      | cons part parts => rfl

theorem splitChars_intercalate {sep : Char} {parts : List (List Char)} (hne : parts ≠ [])
    (h : ∀ cs ∈ parts, sep ∉ cs) : splitChars sep ([sep].intercalate parts) = parts := by
  induction parts with
  | nil => exact absurd rfl hne
  | cons cs parts ih =>
    have hcs := splitChars_of_not_mem (h cs List.mem_cons_self)
    by_cases hparts : parts = []
    · rw [hparts, List.intercalate_singleton, hcs]
    · rw [List.intercalate_cons_of_ne_nil hparts, List.append_assoc, List.singleton_append,
        splitChars_append, hcs, ih hparts fun ds hds => h ds (List.mem_cons_of_mem _ hds),
        List.singleton_append]

theorem split_intercalate {sep : Char} {text : String} (hsep : text.toList = [sep])
    {entries : List String} (hne : entries ≠ []) (h : ∀ s ∈ entries, sep ∉ s.toList) :
    split sep (text.intercalate entries) = entries := by
  have hparts : ∀ cs ∈ entries.map String.toList, sep ∉ cs := by
    intro cs hcs
    obtain ⟨s, hs, rfl⟩ := List.mem_map.1 hcs
    exact h s hs
  unfold split
  rw [String.toList_intercalate, hsep, splitChars_intercalate (by simpa using hne) hparts,
    List.map_map]
  simp

theorem splitChars_spec (sep : Char) (cs : List Char) :
    ∀ part ∈ splitChars sep cs, sep ∉ part ∧ part ⊆ cs := by
  induction cs with
  | nil => simp [splitChars]
  | cons c cs ih =>
    rw [splitChars]
    split
    · rintro part (_ | ⟨_, hpart⟩)
      · simp
      · obtain ⟨hsep, hsub⟩ := ih part hpart
        exact ⟨hsep, List.subset_cons_of_subset c hsub⟩
    · rename_i hc
      split
      · rintro part (_ | ⟨_, ⟨⟩⟩)
        exact ⟨by simpa using Ne.symm hc, by simp⟩
      · rename_i first parts hparts
        rw [hparts] at ih
        rintro part (_ | ⟨_, hpart⟩)
        · obtain ⟨hsep, hsub⟩ := ih first List.mem_cons_self
          exact ⟨by simpa using ⟨Ne.symm hc, hsep⟩, List.cons_subset_cons c hsub⟩
        · obtain ⟨hsep, hsub⟩ := ih part (List.mem_cons_of_mem _ hpart)
          exact ⟨hsep, List.subset_cons_of_subset c hsub⟩

end BMethod.Text
