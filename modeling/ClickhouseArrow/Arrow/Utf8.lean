import ClickhouseArrow.Arrow.Columns

/-!
# Text and the lossy reader

`String::from_utf8_lossy` replaces what is no character.  The encoding of a text has only
characters, so it is returned as it is.
-/

namespace ClickhouseArrow

open Wire

namespace Arrow

theorem charWidth_ofNat {n : Nat} (h : n < 256) :
    charWidth (UInt8.ofNat n) =
      if n < 0x80 then 1 else if n < 0xC2 then 0 else if n < 0xE0 then 2 else if n < 0xF0 then 3
      else if n < 0xF5 then 4 else 0 := by
  revert n
  decide +kernel

theorem continuation_ofNat (n : Nat) : continuation (UInt8.ofNat (n % 64 + 0x80)) = true := by
  have hall : ∀ k < 64, continuation (UInt8.ofNat (k + 0x80)) = true := by decide +kernel
  exact hall (n % 64) (Nat.mod_lt n (by decide))

/-- The second byte stays in the range that the first one leaves it. -/
theorem secondByte_ofNat {a b : Nat} (ha : a < 256) (hlow : 0x80 ≤ b) (hhigh : b ≤ 0xBF)
    (he0 : a = 0xE0 → 0xA0 ≤ b) (hed : a = 0xED → b ≤ 0x9F) (hf0 : a = 0xF0 → 0x90 ≤ b)
    (hf4 : a = 0xF4 → b ≤ 0x8F) : secondByte (UInt8.ofNat a) (UInt8.ofNat b) = true := by
  have hfirst : (UInt8.ofNat a).toNat = a := by
    rw [UInt8.toNat_ofNat']
    exact Nat.mod_eq_of_lt ha
  have hsecond : (UInt8.ofNat b).toNat = b := by
    rw [UInt8.toNat_ofNat']
    exact Nat.mod_eq_of_lt (by omega)
  unfold secondByte
  simp only [← UInt8.toNat_inj, UInt8.le_iff_toNat_le, hfirst, hsecond, UInt8.reduceToNat]
  split_ifs with h1 h2 h3 h4 <;> simp only [Bool.and_eq_true, decide_eq_true_eq] <;> omega

/-- A character is found in front of whatever follows it. -/
theorem nextChar_utf8EncodeChar (c : Char) (rest : Bytes) :
    nextChar (String.utf8EncodeChar c ++ rest) = ((String.utf8EncodeChar c).length, true) := by
  have hvalid : c.val.toNat < 0xD800 ∨ 0xDFFF < c.val.toNat ∧ c.val.toNat < 0x110000 := c.valid
  unfold String.utf8EncodeChar
  generalize c.val.toNat = v at hvalid
  by_cases h1 : v ≤ 0x7F
  · have hwidth := charWidth_ofNat (show v < 256 by omega)
    rw [if_pos (by omega)] at hwidth
    simp [h1, nextChar, hwidth]
  by_cases h2 : v ≤ 0x7FF
  · have hwidth := charWidth_ofNat (show v / 64 % 32 + 0xC0 < 256 by omega)
    rw [if_neg (by omega), if_neg (by omega), if_pos (by omega)] at hwidth
    have hsecond : secondByte (UInt8.ofNat (v / 64 % 32 + 0xC0)) (UInt8.ofNat (v % 64 + 0x80)) = true :=
      secondByte_ofNat (by omega) (by omega) (by omega) (by omega) (by omega) (by omega) (by omega)
    simp only [if_neg h1, if_pos h2, List.cons_append, List.nil_append, nextChar, hwidth, hsecond]
    rfl
  by_cases h3 : v ≤ 0xFFFF
  · have hwidth := charWidth_ofNat (show v / 4096 % 16 + 0xE0 < 256 by omega)
    rw [if_neg (by omega), if_neg (by omega), if_neg (by omega), if_pos (by omega)] at hwidth
    have hsecond : secondByte (UInt8.ofNat (v / 4096 % 16 + 0xE0))
        (UInt8.ofNat (v / 64 % 64 + 0x80)) = true :=
      secondByte_ofNat (by omega) (by omega) (by omega) (by omega) (by omega) (by omega) (by omega)
    simp only [if_neg h1, if_neg h2, if_pos h3, List.cons_append, List.nil_append, nextChar, hwidth,
      hsecond, continuation_ofNat]
    rfl
  · have hwidth := charWidth_ofNat (show v / 262144 % 8 + 0xF0 < 256 by omega)
    rw [if_neg (by omega), if_neg (by omega), if_neg (by omega), if_neg (by omega),
      if_pos (by omega)] at hwidth
    have hsecond : secondByte (UInt8.ofNat (v / 262144 % 8 + 0xF0))
        (UInt8.ofNat (v / 4096 % 64 + 0x80)) = true :=
      secondByte_ofNat (by omega) (by omega) (by omega) (by omega) (by omega) (by omega) (by omega)
    simp only [if_neg h1, if_neg h2, if_neg h3, List.cons_append, List.nil_append, nextChar, hwidth,
      hsecond, continuation_ofNat]
    rfl

theorem replaceInvalid_utf8Encode (chars : List Char) {n : Nat} (h : chars.length ≤ n) :
    replaceInvalid n (chars.flatMap String.utf8EncodeChar) =
      chars.flatMap String.utf8EncodeChar := by
  induction chars generalizing n with
  | nil => cases n <;> rfl
  | cons c chars ih =>
    cases n with
    | zero => exact absurd h (Nat.not_succ_le_zero _)
    | succ n =>
      have hrest := ih (Nat.le_of_succ_le_succ h)
      have hnext := nextChar_utf8EncodeChar c (chars.flatMap String.utf8EncodeChar)
      rw [List.flatMap_cons]
      cases hbytes : String.utf8EncodeChar c with
      | nil => exact absurd hbytes String.utf8EncodeChar_ne_nil
      | cons b bs =>
        rw [hbytes] at hnext
        rw [List.cons_append] at hnext ⊢
        rw [replaceInvalid, hnext, ← List.cons_append, List.take_left, List.drop_left, hrest]
        · rfl
        · exact List.cons_ne_nil _ _

theorem utf8Bytes_eq_flatMap (s : String) :
    utf8Bytes s = s.toList.flatMap String.utf8EncodeChar := by
  rw [utf8Bytes, ← String.utf8Encode_toList, List.utf8Encode]
  simp

/-- A text is taken as it is. -/
theorem fromUtf8Lossy_utf8Bytes (s : String) : fromUtf8Lossy (utf8Bytes s) = utf8Bytes s := by
  have hlength : s.toList.length ≤ (utf8Bytes s).length := by
    rw [utf8Bytes_eq_flatMap]
    induction s.toList with
    | nil => exact Nat.le_refl 0
    | cons c chars ih =>
      have hc : 0 < (String.utf8EncodeChar c).length :=
        List.length_pos_iff.mpr String.utf8EncodeChar_ne_nil
      rw [List.flatMap_cons, List.length_append, List.length_cons]
      omega
  rw [fromUtf8Lossy]
  rw [utf8Bytes_eq_flatMap] at hlength ⊢
  exact replaceInvalid_utf8Encode s.toList hlength

end Arrow
end ClickhouseArrow
