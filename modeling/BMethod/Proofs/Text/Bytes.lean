import Mathlib
import BMethod.Text.Scalar

/-!
# Text as bytes

The bytes of a text are read back as its characters, without a stray byte among them.
-/

namespace BMethod.Text

/-! ## One character -/

theorem continuation?_ofNat (n : Nat) (h : n < 64) :
    continuation? (UInt8.ofNat (n + 128)) = some n := by
  have hsize : n + 128 < UInt8.size := by
    unfold UInt8.size
    omega
  have hbyte : (UInt8.ofNat (n + 128)).toNat = n + 128 := UInt8.toNat_ofNat_of_lt' hsize
  unfold continuation?
  rw [hbyte, if_pos (by omega)]
  simp

theorem codePoint?_toNat (c : Char) (least : Nat) (h : least ≤ c.toNat) :
    codePoint? least c.toNat = some c := by
  have hvalid : c.toNat.isValidChar := c.valid
  unfold codePoint?
  rw [dif_pos hvalid, if_pos h]
  rfl

theorem toNat_lt (c : Char) : c.toNat < 0x110000 := by
  have hvalid : c.toNat.isValidChar := c.valid
  unfold Nat.isValidChar at hvalid
  omega

/-- The first byte of a character and the ones after it spell the character. -/
theorem leadingChar?_encode (c : Char) (rest : List UInt8) :
    ∃ lead more, String.utf8EncodeChar c = lead :: more ∧
      leadingChar? lead (more ++ rest) = some (c, more.length) := by
  have hmax : c.toNat < 0x110000 := toNat_lt c
  have hval : c.val.toNat = c.toNat := rfl
  have hlead : ∀ n, n < 256 → (UInt8.ofNat n).toNat = n := fun n hn => UInt8.toNat_ofNat_of_lt' hn
  rw [String.utf8EncodeChar, hval]
  -- The four lengths of a character; in each the digits of base 64 are put together again.
  split_ifs with h1 h2 h3
  · refine ⟨_, _, rfl, ?_⟩
    simp only [leadingChar?, hlead c.toNat (by omega)]
    rw [if_pos (by omega), codePoint?_toNat c 0 (by omega)]
    rfl
  · refine ⟨_, _, rfl, ?_⟩
    have hsum : c.toNat / 64 % 32 * 64 + c.toNat % 64 = c.toNat := by omega
    simp only [leadingChar?, hlead (c.toNat / 64 % 32 + 192) (by omega), List.cons_append]
    rw [if_neg (by omega), if_pos (by omega), continuation?_ofNat _ (by omega)]
    simp [hsum, codePoint?_toNat c 128 (by omega)]
  · refine ⟨_, _, rfl, ?_⟩
    have hsum : (c.toNat / 4096 % 16 * 64 + c.toNat / 64 % 64) * 64 + c.toNat % 64 =
        c.toNat := by omega
    simp only [leadingChar?, hlead (c.toNat / 4096 % 16 + 224) (by omega), List.cons_append]
    rw [if_neg (by omega), if_neg (by omega), if_pos (by omega), continuation?_ofNat _ (by omega),
      continuation?_ofNat _ (by omega)]
    simp [hsum, codePoint?_toNat c 2048 (by omega)]
  · refine ⟨_, _, rfl, ?_⟩
    have hsum : ((c.toNat / 262144 % 8 * 64 + c.toNat / 4096 % 64) * 64 +
        c.toNat / 64 % 64) * 64 + c.toNat % 64 = c.toNat := by omega
    simp only [leadingChar?, hlead (c.toNat / 262144 % 8 + 240) (by omega), List.cons_append]
    rw [if_neg (by omega), if_neg (by omega), if_neg (by omega), if_pos (by omega),
      continuation?_ofNat _ (by omega), continuation?_ofNat _ (by omega),
      continuation?_ofNat _ (by omega)]
    simp [hsum, codePoint?_toNat c 65536 (by omega)]

/-! ## Texts -/

theorem scalarsAfter_append (taken rest : List UInt8) :
    scalarsAfter taken.length (taken ++ rest) = scalarsAfter 0 rest := by
  induction taken with
  | nil => rfl
  | cons b bs ih => exact ih

theorem scalarsAfter_encode (cs : List Char) :
    scalarsAfter 0 (cs.flatMap String.utf8EncodeChar) = cs.map .char := by
  induction cs with
  | nil => rfl
  | cons c cs ih =>
    obtain ⟨lead, more, hbytes, hchar⟩ :=
      leadingChar?_encode c (cs.flatMap String.utf8EncodeChar)
    rw [List.flatMap_cons, hbytes, List.cons_append, scalarsAfter]
    simp only [hchar, scalarsAfter_append, ih, List.map_cons]

theorem bytes_eq (s : String) :
    s.toUTF8.data.toList = s.toList.flatMap String.utf8EncodeChar := by
  conv => lhs; rw [← String.ofList_toList (s := s)]
  rw [String.toUTF8_eq_toByteArray, String.toByteArray_ofList, List.utf8Encode,
    List.toList_data_toByteArray]

theorem scalars_bytes (s : String) : scalars s.toUTF8.data.toList = Scalar.ofString s := by
  rw [scalars, bytes_eq, scalarsAfter_encode]
  rfl

end BMethod.Text
