import ClickhouseArrow.Wire.BigEndian
import ClickhouseArrow.Native.Types

/-!
# Integers of 256 bits

`i256` of `native/values/int256.rs`, a number of 256 bits in two's complement that is kept as its
32 bytes, most significant first.  The order is the derived one, that of the bytes, and the
multiplication works on the lower halves of the magnitudes.
-/

namespace ClickhouseArrow

open Wire

namespace Int256

/-! ## Halves -/

/-- `From<i256> for (u128, u128)`: the upper and the lower half. -/
def halves (i : Octets 32) : BitVec 128 × BitVec 128 :=
  (BitVec.ofNat 128 (ofBeBytes (i.bytes.take 16)), BitVec.ofNat 128 (ofBeBytes (i.bytes.drop 16)))

/-- `From<(u128, u128)> for i256`. -/
def ofHalves (high low : BitVec 128) : Octets 32 :=
  ⟨beBytes 16 high.toNat ++ beBytes 16 low.toNat, by simp⟩

/-- `u128::MAX`. -/
def u128Max : BitVec 128 := BitVec.allOnes 128

/-- `From<i128> for i256`. -/
def ofI128 (value : BitVec 128) : Octets 32 :=
  if value.toInt < 0 then
    let absValue := -value
    ofHalves u128Max (u128Max - absValue + 1)
  else ofHalves 0 value

/-- The number in two's complement. -/
def toInt (i : Octets 32) : Int := (BitVec.ofNat 256 (ofBeBytes i.bytes)).toInt

/-- The highest bit is set. -/
def isNegative (i : Octets 32) : Bool := (halves i).1 &&& (1#128 <<< 127) != 0

theorem ofBeBytes_half {bytes : Bytes} (h : bytes.length = 16) : ofBeBytes bytes < 2 ^ 128 := by
  have hlt := ofBeBytes_lt bytes
  rw [h] at hlt
  exact hlt

@[simp] theorem halves_ofHalves (high low : BitVec 128) : halves (ofHalves high low) = (high, low) := by
  have hhigh : (beBytes 16 high.toNat ++ beBytes 16 low.toNat).take 16 = beBytes 16 high.toNat :=
    List.take_left' (beBytes_length 16 _)
  have hlow : (beBytes 16 high.toNat ++ beBytes 16 low.toNat).drop 16 = beBytes 16 low.toNat :=
    List.drop_left' (beBytes_length 16 _)
  simp only [halves, ofHalves, hhigh, hlow]
  rw [ofBeBytes_beBytes 16 _ high.isLt, ofBeBytes_beBytes 16 _ low.isLt, BitVec.ofNat_toNat,
    BitVec.ofNat_toNat]
  simp

/-- Every number is made of its halves. -/
theorem ofHalves_halves (i : Octets 32) : ofHalves (halves i).1 (halves i).2 = i := by
  obtain ⟨bytes, hlength⟩ := i
  have htake : (bytes.take 16).length = 16 := by rw [List.length_take]; omega
  have hdrop : (bytes.drop 16).length = 16 := by rw [List.length_drop]; omega
  have hhigh := beBytes_ofBeBytes (bytes.take 16)
  have hlow := beBytes_ofBeBytes (bytes.drop 16)
  rw [htake] at hhigh
  rw [hdrop] at hlow
  simp only [ofHalves, halves, BitVec.toNat_ofNat, Nat.mod_eq_of_lt (ofBeBytes_half htake),
    Nat.mod_eq_of_lt (ofBeBytes_half hdrop), hhigh, hlow, List.take_append_drop]

theorem ofBeBytes_ofHalves (high low : BitVec 128) :
    ofBeBytes (ofHalves high low).bytes = high.toNat * 2 ^ 128 + low.toNat := by
  have hbase : 256 ^ 16 = 2 ^ 128 := by decide
  rw [ofHalves, ofBeBytes_append, beBytes_length, ofBeBytes_beBytes 16 _ high.isLt,
    ofBeBytes_beBytes 16 _ low.isLt, hbase]

theorem isNegative_ofHalves (high low : BitVec 128) :
    isNegative (ofHalves high low) = decide (2 ^ 127 ≤ high.toNat) := by
  have hbit : (high &&& (1#128 <<< 127) != 0) = high.msb := by
    rw [Bool.eq_iff_iff, bne_iff_ne]
    have htwo : (1#128 <<< 127) = BitVec.twoPow 128 127 := by decide
    rw [htwo, BitVec.and_twoPow, BitVec.msb_eq_getLsbD_last]
    cases high.getLsbD 127 with
    | true => exact ⟨fun _ => rfl, fun _ => by decide⟩
    | false => exact ⟨fun h => absurd rfl h, fun h => by cases h⟩
  rw [isNegative, halves_ofHalves, hbit, BitVec.msb_eq_decide]

/-- The number of two halves. -/
theorem toInt_ofHalves (high low : BitVec 128) :
    toInt (ofHalves high low) =
      if high.toNat < 2 ^ 127 then (high.toNat * 2 ^ 128 + low.toNat : Int)
      else high.toNat * 2 ^ 128 + low.toNat - 2 ^ 256 := by
  have hhigh := high.isLt
  have hlow := low.isLt
  rw [toInt, ofBeBytes_ofHalves, BitVec.toInt_eq_toNat_cond, BitVec.toNat_ofNat,
    Nat.mod_eq_of_lt (by omega)]
  split_ifs <;> omega

theorem toInt_bounds (i : Octets 32) : -2 ^ 255 ≤ toInt i ∧ toInt i < 2 ^ 255 :=
  ⟨BitVec.le_toInt _, BitVec.toInt_lt⟩

theorem isNegative_iff (i : Octets 32) : isNegative i = true ↔ toInt i < 0 := by
  have hhigh := (halves i).1.isLt
  have hlow := (halves i).2.isLt
  rw [← ofHalves_halves i, isNegative_ofHalves, toInt_ofHalves, decide_eq_true_eq]
  split_ifs <;> omega

/-- The upper half of an integer of 128 bits is its sign. -/
theorem ofI128_eq (value : BitVec 128) :
    ofI128 value = ofHalves (if value.toInt < 0 then u128Max else 0) value := by
  have hlow : u128Max - -value + 1 = value := by
    have hone : (1 : BitVec 128).toNat = 1 := rfl
    apply BitVec.eq_of_toNat_eq
    rw [u128Max, BitVec.toNat_add, BitVec.toNat_sub, BitVec.toNat_neg, BitVec.toNat_allOnes, hone]
    omega
  simp only [ofI128, hlow]
  split_ifs <;> rfl

theorem toInt_ofHalves_zero (low : BitVec 128) : toInt (ofHalves 0 low) = low.toNat := by
  have hzero : (0 : BitVec 128).toNat = 0 := rfl
  rw [toInt_ofHalves, hzero, if_pos (by decide)]
  omega

theorem toInt_ofHalves_max (low : BitVec 128) :
    toInt (ofHalves u128Max low) = low.toNat - 2 ^ 128 := by
  have hmax : u128Max.toNat = 2 ^ 128 - 1 := BitVec.toNat_allOnes
  rw [toInt_ofHalves, hmax, if_neg (by decide)]
  omega

/-- Integers of 128 bits keep their value. -/
theorem toInt_ofI128 (value : BitVec 128) : toInt (ofI128 value) = value.toInt := by
  have hvalue := BitVec.toInt_eq_toNat_cond value
  have hlt := value.isLt
  rw [ofI128_eq]
  split_ifs with hsign
  · rw [toInt_ofHalves_max]
    split_ifs at hvalue <;> omega
  · rw [toInt_ofHalves_zero]
    split_ifs at hvalue <;> omega

/-! ## Order -/

/-- `Ord::cmp`, which is derived. -/
def cmp (a b : Octets 32) : Ordering := compare a.bytes b.bytes

/-- The order is that of the numbers without a sign. -/
theorem cmp_eq (a b : Octets 32) : cmp a b = compare (ofBeBytes a.bytes) (ofBeBytes b.bytes) :=
  compare_bytes (a.length_eq.trans b.length_eq.symm)

/-- The bytes of a number that is negative are those of a large one. -/
theorem ofBeBytes_eq (i : Octets 32) :
    (ofBeBytes i.bytes : Int) = if toInt i < 0 then toInt i + 2 ^ 256 else toInt i := by
  have hlt : ofBeBytes i.bytes < 2 ^ 256 := by
    have hbytes := ofBeBytes_lt i.bytes
    rw [i.length_eq] at hbytes
    exact hbytes
  rw [toInt, BitVec.toInt_eq_toNat_cond, BitVec.toNat_ofNat, Nat.mod_eq_of_lt hlt]
  split_ifs <;> omega

/-- Numbers of one sign are in order, numbers of different signs in the opposite one. -/
theorem cmp_eq_compare_iff (a b : Octets 32) :
    cmp a b = compare (toInt a) (toInt b) ↔ isNegative a = isNegative b := by
  have ha := toInt_bounds a
  have hb := toInt_bounds b
  have hcast : StrictMono fun n : Nat => (n : Int) := fun m n hmn => Int.ofNat_lt.mpr hmn
  rw [cmp_eq, ← compare_map hcast, ofBeBytes_eq, ofBeBytes_eq, Bool.eq_iff_iff, isNegative_iff,
    isNegative_iff]
  by_cases hsa : toInt a < 0 <;> by_cases hsb : toInt b < 0
  · have hadd : StrictMono fun n : Int => n + 2 ^ 256 := fun m n hmn => Int.add_lt_add_right hmn _
    simp only [hsa, hsb, if_true, iff_self, iff_true]
    exact compare_map hadd (toInt a) (toInt b)
  · have hgt : compare (toInt a + 2 ^ 256) (toInt b) = .gt := compare_gt_iff_gt.mpr (by omega)
    have hlt : compare (toInt a) (toInt b) = .lt := compare_lt_iff_lt.mpr (by omega)
    rw [if_pos hsa, if_neg hsb, hgt, hlt]
    simp [hsa, hsb]
  · have hlt : compare (toInt a) (toInt b + 2 ^ 256) = .lt := compare_lt_iff_lt.mpr (by omega)
    have hgt : compare (toInt a) (toInt b) = .gt := compare_gt_iff_gt.mpr (by omega)
    rw [if_neg hsa, if_pos hsb, hgt, hlt]
    simp [hsa, hsb]
  · simp [hsa, hsb]

/-! ## Multiplication -/

/-- The halves of the magnitude of a number that may be negative. -/
def magnitude (negative : Bool) (high low : BitVec 128) : BitVec 128 × BitVec 128 :=
  if negative then
    let newLow := ~~~low + 1#128
    (if newLow = 0 then ~~~high + 1#128 else ~~~high, newLow)
  else (high, low)

/-- `Mul::mul`.  Only the lower halves of the magnitudes are multiplied. -/
def mul (a b : Octets 32) : Octets 32 :=
  let aHigh := (halves a).1
  let aLow := (halves a).2
  let bHigh := (halves b).1
  let bLow := (halves b).2
  if aHigh = 0 ∧ bHigh = 0 then ofHalves 0 (aLow * bLow)
  else
    let aNegative := aHigh &&& (1#128 <<< 127) != 0
    let bNegative := bHigh &&& (1#128 <<< 127) != 0
    let aAbsLow := (magnitude aNegative aHigh aLow).2
    let absBLow := (magnitude bNegative bHigh bLow).2
    let result := aAbsLow * absBLow
    if aNegative != bNegative then ofHalves u128Max (~~~result + 1#128) else ofHalves 0 result

/-- The lower half of the magnitude. -/
def absLow (i : Octets 32) : BitVec 128 := (magnitude (isNegative i) (halves i).1 (halves i).2).2

/-- The shortcut for two numbers below `2^128` makes no difference. -/
theorem mul_eq (a b : Octets 32) :
    mul a b = if isNegative a = isNegative b then ofHalves 0 (absLow a * absLow b)
      else ofHalves u128Max (-(absLow a * absLow b)) := by
  have hsign (i : Octets 32) : ((halves i).1 &&& (1#128 <<< 127) != 0) = isNegative i := rfl
  simp only [mul, hsign]
  by_cases hsmall : (halves a).1 = 0 ∧ (halves b).1 = 0
  · have ha : isNegative a = false := by
      rw [isNegative, hsmall.1]
      decide
    have hb : isNegative b = false := by
      rw [isNegative, hsmall.2]
      decide
    rw [if_pos hsmall, if_pos (ha.trans hb.symm), absLow, absLow, ha, hb]
    rfl
  · rw [if_neg hsmall, ← BitVec.neg_eq_not_add]
    by_cases hsame : isNegative a = isNegative b
    · rw [if_pos hsame, if_neg (by simp [hsame])]
      rfl
    · rw [if_neg hsame, if_pos (by simpa using hsame)]
      rfl

/-- The lower half of the magnitude is the magnitude modulo `2^128`. -/
theorem toNat_absLow (i : Octets 32) : (absLow i).toNat = (toInt i).natAbs % 2 ^ 128 := by
  have hhigh := (halves i).1.isLt
  have hlow := (halves i).2.isLt
  have hvalue := toInt_ofHalves (halves i).1 (halves i).2
  have hsign := isNegative_ofHalves (halves i).1 (halves i).2
  rw [ofHalves_halves] at hvalue hsign
  rw [absLow, magnitude, hsign]
  by_cases hnegative : 2 ^ 127 ≤ (halves i).1.toNat
  · rw [if_neg (by omega)] at hvalue
    rw [if_pos (by simpa using hnegative)]
    show (~~~(halves i).2 + 1#128).toNat = _
    rw [← BitVec.neg_eq_not_add, BitVec.toNat_neg, hvalue]
    omega
  · rw [if_pos (by omega)] at hvalue
    rw [if_neg (by simpa using hnegative), hvalue]
    show (halves i).2.toNat = _
    omega

/-- The magnitude of the product, modulo `2^256`. -/
def productMagnitude (a b : Octets 32) : Nat := (toInt a).natAbs * (toInt b).natAbs % 2 ^ 256

/-- The product of the lower halves is that of the magnitudes modulo `2^128`. -/
theorem toNat_absLow_mul (a b : Octets 32) :
    (absLow a * absLow b).toNat = productMagnitude a b % 2 ^ 128 := by
  rw [BitVec.toNat_mul, toNat_absLow, toNat_absLow, ← Nat.mul_mod, productMagnitude]
  omega

/-- The number is the product modulo `2^256`. -/
def IsProduct (a b c : Octets 32) : Prop := toInt c = (toInt a * toInt b).bmod (2 ^ 256)

instance (a b c : Octets 32) : Decidable (IsProduct a b c) :=
  inferInstanceAs (Decidable (toInt c = (toInt a * toInt b).bmod (2 ^ 256)))

theorem toInt_eq_natAbs (i : Octets 32) :
    toInt i = if isNegative i then -((toInt i).natAbs : Int) else ((toInt i).natAbs : Int) := by
  have hsign := isNegative_iff i
  split_ifs with h
  · have hneg := hsign.mp h
    omega
  · have hnonneg : ¬ toInt i < 0 := fun hneg => h (hsign.mpr hneg)
    omega

/-- The product has the sign that the rule of signs gives it. -/
theorem toInt_mul_toInt (a b : Octets 32) :
    toInt a * toInt b =
      if isNegative a = isNegative b then (((toInt a).natAbs * (toInt b).natAbs : Nat) : Int)
      else -(((toInt a).natAbs * (toInt b).natAbs : Nat) : Int) := by
  have ha := toInt_eq_natAbs a
  have hb := toInt_eq_natAbs b
  generalize (toInt a).natAbs = m at ha ⊢
  generalize (toInt b).natAbs = n at hb ⊢
  rw [ha, hb, Nat.cast_mul]
  cases isNegative a <;> cases isNegative b <;> simp

/-- The products that are right: below `2^128` where the signs agree, and from 1 up to `2^128`
where they do not. -/
theorem mul_isProduct_iff (a b : Octets 32) :
    IsProduct a b (mul a b) ↔
      if isNegative a = isNegative b then productMagnitude a b < 2 ^ 128
      else 0 < productMagnitude a b ∧ productMagnitude a b ≤ 2 ^ 128 := by
  have hlow := toNat_absLow_mul a b
  rw [IsProduct, toInt_mul_toInt, mul_eq]
  simp only [productMagnitude] at hlow ⊢
  generalize (toInt a).natAbs * (toInt b).natAbs = product at hlow ⊢
  by_cases hsame : isNegative a = isNegative b
  · rw [if_pos hsame, if_pos hsame, if_pos hsame, toInt_ofHalves_zero, hlow, Int.bmod]
    split_ifs <;> omega
  · rw [if_neg hsame, if_neg hsame, if_neg hsame, toInt_ofHalves_max, BitVec.toNat_neg, hlow,
      Int.bmod]
    split_ifs <;> omega

/-- A product that is zero, and one above `2^128`. -/
theorem not_isProduct_samples :
    ¬ IsProduct (ofI128 (-1)) (ofI128 0) (mul (ofI128 (-1)) (ofI128 0)) ∧
      ¬ IsProduct (ofHalves 1 0) (ofI128 10) (mul (ofHalves 1 0) (ofI128 10)) := by
  constructor <;> decide

end Int256

end ClickhouseArrow
