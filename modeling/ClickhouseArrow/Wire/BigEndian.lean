import ClickhouseArrow.Wire.Words
import Mathlib.Order.Compare

/-!
# Big-endian numbers

The number whose bytes are given most significant first.  Among byte strings of one length the
lexicographic order is the order of these numbers.
-/

namespace Wire

/-- The `n` low bytes of `x`, most significant first. -/
def beBytes (n x : Nat) : Bytes := (leBytes n x).reverse

/-- The number whose bytes, most significant first, are given. -/
def ofBeBytes (bytes : Bytes) : Nat := ofLeBytes bytes.reverse

@[simp] theorem beBytes_length (n x : Nat) : (beBytes n x).length = n := by
  simp [beBytes]

theorem ofBeBytes_beBytes (n x : Nat) (hx : x < 256 ^ n) : ofBeBytes (beBytes n x) = x := by
  rw [ofBeBytes, beBytes, List.reverse_reverse, ofLeBytes_leBytes n x hx]

theorem ofBeBytes_lt (bytes : Bytes) : ofBeBytes bytes < 256 ^ bytes.length := by
  have hlt := ofLeBytes_lt bytes.reverse
  rwa [List.length_reverse] at hlt

theorem beBytes_ofBeBytes (bytes : Bytes) : beBytes bytes.length (ofBeBytes bytes) = bytes := by
  have hle := leBytes_ofLeBytes bytes.reverse
  rw [List.length_reverse] at hle
  rw [beBytes, ofBeBytes, hle, List.reverse_reverse]

theorem ofBeBytes_append (high low : Bytes) :
    ofBeBytes (high ++ low) = ofBeBytes high * 256 ^ low.length + ofBeBytes low := by
  rw [ofBeBytes, List.reverse_append, ofLeBytes_append, List.length_reverse]
  simp only [ofBeBytes]
  ring

theorem ofBeBytes_cons (b : UInt8) (bytes : Bytes) :
    ofBeBytes (b :: bytes) = b.toNat * 256 ^ bytes.length + ofBeBytes bytes := by
  have hsplit := ofBeBytes_append [b] bytes
  rwa [List.singleton_append] at hsplit

/-- What keeps the order keeps the result of a comparison. -/
theorem compare_map {α β : Type} [LinearOrder α] [LinearOrder β] {f : α → β} (hf : StrictMono f)
    (a b : α) : compare (f a) (f b) = compare a b := by
  rw [← cmp_eq_compare, ← cmp_eq_compare, hf.cmp_map_eq]

/-- The digit that comes first decides, where it differs. -/
theorem compare_digits {base x y r s : Nat} (hr : r < base) (hs : s < base) :
    compare (x * base + r) (y * base + s) = (compare x y).then (compare r s) := by
  rcases lt_trichotomy x y with hlt | rfl | hgt
  · have hstep : x * base + base ≤ y * base := by
      calc x * base + base = (x + 1) * base := by ring
        _ ≤ y * base := Nat.mul_le_mul_right base hlt
    rw [compare_lt_iff_lt.mpr hlt, compare_lt_iff_lt.mpr (by omega)]
    rfl
  · have hself : compare x x = .eq := compare_eq_iff_eq.mpr rfl
    have hadd : StrictMono fun n => x * base + n := fun m n hmn => Nat.add_lt_add_left hmn _
    rw [hself, Ordering.eq_then, compare_map hadd]
  · have hstep : y * base + base ≤ x * base := by
      calc y * base + base = (y + 1) * base := by ring
        _ ≤ x * base := Nat.mul_le_mul_right base hgt
    rw [compare_gt_iff_gt.mpr hgt, compare_gt_iff_gt.mpr (by omega)]
    rfl

theorem compare_toNat (a b : UInt8) : compare a.toNat b.toNat = compare a b := by
  show compareOfLessAndEq a.toNat b.toNat = compareOfLessAndEq a b
  simp only [compareOfLessAndEq, UInt8.lt_iff_toNat_lt, UInt8.toNat_inj]

/-- The order of the bytes is that of the numbers. -/
theorem compare_bytes {as bs : Bytes} (h : as.length = bs.length) :
    compare as bs = compare (ofBeBytes as) (ofBeBytes bs) := by
  induction as generalizing bs with
  | nil =>
    obtain rfl := List.length_eq_zero_iff.mp h.symm
    rfl
  | cons a as ih =>
    cases bs with
    | nil => cases h
    | cons b bs =>
      have hlength : as.length = bs.length := Nat.succ.inj h
      have has := ofBeBytes_lt as
      have hbs := ofBeBytes_lt bs
      rw [← hlength] at hbs
      rw [List.compare_cons_cons, ih hlength, ofBeBytes_cons, ofBeBytes_cons, ← hlength,
        compare_digits has hbs, compare_toNat]

end Wire
