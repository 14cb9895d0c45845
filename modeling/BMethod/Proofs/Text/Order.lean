import Mathlib
import BMethod.Proofs.Text.Bytes

/-!
# The order of texts

Texts are ordered by their characters. Their bytes are in the same order, since the bytes of a
character say first how many they are, and then its digits, the highest first.
-/

namespace BMethod.Text

/-- The bytes of the first text come before those of the second: at the first place at which they
differ there is the lower byte, or the first text ends. -/
def BytesLt (s t : String) : Prop :=
  s.toUTF8.data.toList < t.toUTF8.data.toList

theorem cons_lt_cons_of_le {m n : Nat} {bs ds : List UInt8} (hn : n < 256) (hle : m ≤ n)
    (h : m = n → bs < ds) : UInt8.ofNat m :: bs < UInt8.ofNat n :: ds := by
  rw [List.cons_lt_cons_iff]
  rcases hle.lt_or_eq with hlt | heq
  · left
    have hsize : UInt8.size = 256 := rfl
    rwa [UInt8.lt_iff_toNat_lt, UInt8.toNat_ofNat_of_lt' (by omega),
      UInt8.toNat_ofNat_of_lt' (by omega)]
  · exact .inr ⟨by rw [heq], h heq⟩

/-- The bytes of a lower character come first, whatever stands behind them. -/
theorem encode_lt_encode {c d : Char} (h : c < d) (bs ds : List UInt8) :
    String.utf8EncodeChar c ++ bs < String.utf8EncodeChar d ++ ds := by
  have hlt : c.val.toNat < d.val.toNat := h
  have hmax : d.val.toNat < 0x110000 := toNat_lt d
  rw [String.utf8EncodeChar, String.utf8EncodeChar]
  generalize c.val.toNat = m at hlt
  generalize d.val.toNat = n at hlt hmax
  have hdiffer : ∀ {a b : Nat} {xs ys : List UInt8}, b < 256 → a < b →
      UInt8.ofNat a :: xs < UInt8.ofNat b :: ys :=
    fun hb hab => cons_lt_cons_of_le hb hab.le fun heq => absurd heq hab.ne
  -- When the lengths differ the first bytes decide, otherwise the highest digit that differs.
  split_ifs <;> simp only [List.cons_append, List.nil_append]
  · exact hdiffer (by omega) (by omega)
  · exact hdiffer (by omega) (by omega)
  · exact hdiffer (by omega) (by omega)
  · exact hdiffer (by omega) (by omega)
  · omega
  · refine cons_lt_cons_of_le (by omega) (by omega) fun _ => ?_
    exact hdiffer (by omega) (by omega)
  · exact hdiffer (by omega) (by omega)
  · exact hdiffer (by omega) (by omega)
  · omega
  · omega
  · refine cons_lt_cons_of_le (by omega) (by omega) fun _ => ?_
    refine cons_lt_cons_of_le (by omega) (by omega) fun _ => ?_
    exact hdiffer (by omega) (by omega)
  · exact hdiffer (by omega) (by omega)
  · omega
  · omega
  · omega
  · refine cons_lt_cons_of_le (by omega) (by omega) fun _ => ?_
    refine cons_lt_cons_of_le (by omega) (by omega) fun _ => ?_
    refine cons_lt_cons_of_le (by omega) (by omega) fun _ => ?_
    exact hdiffer (by omega) (by omega)

theorem encodes_lt_encodes {cs ds : List Char} (h : cs < ds) :
    cs.flatMap String.utf8EncodeChar < ds.flatMap String.utf8EncodeChar := by
  induction h with
  | @nil d ds =>
    -- A character has at least one byte.
    obtain ⟨lead, more, hbytes, -⟩ := leadingChar?_encode d []
    rw [List.flatMap_cons, hbytes]
    exact .nil
  | rel hcd =>
    rw [List.flatMap_cons, List.flatMap_cons]
    exact encode_lt_encode hcd _ _
  | cons _ ih =>
    rw [List.flatMap_cons, List.flatMap_cons]
    exact List.append_left_lt ih

theorem bytesLt_of_lt {s t : String} (h : s < t) : BytesLt s t := by
  unfold BytesLt
  rw [bytes_eq, bytes_eq]
  exact encodes_lt_encodes (String.lt_iff_toList_lt.1 h)

end BMethod.Text
