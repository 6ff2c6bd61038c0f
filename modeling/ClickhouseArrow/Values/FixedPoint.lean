import ClickhouseArrow.Values.Int256
import Mathlib.Data.Rat.Cast.Order
import Mathlib.Tactic.FieldSimp
import Mathlib.Tactic.Linarith
import Mathlib.Tactic.NormNum

/-!
# Fixed-point numbers of 256 bits

`FixedPoint256` of `native/values/fixed_point.rs`, an `i256` over a power of ten, with its order
and the conversions from and to a decimal of `rust_decimal`.

`rust_decimal` is not part of the repository.  `DecimalLibrary` says what the conversions rely on:
a decimal has a mantissa of 96 bits with a sign and a scale of at most 28, and one is made of every
such pair and of no other one.
-/

namespace ClickhouseArrow

open Wire Int256

/-! ## Decimals -/

/-- `rust_decimal::Decimal`. -/
structure DecimalLibrary (D ε : Type) where
  mantissa : D → Int
  scale : D → Nat
  /-- `Decimal::new`, of an integer of 64 bits. -/
  new : Int → Nat → D
  tryFromI128WithScale : Int → Nat → Except ε D
  /-- `Error::ExceedsMaximumPossibleValue`. -/
  exceedsMaximum : ε
  natAbs_mantissa_lt : ∀ d, (mantissa d).natAbs < 2 ^ 96
  scale_le : ∀ d, scale d ≤ 28
  new_eq : ∀ m s, m.natAbs ≤ 2 ^ 63 → s ≤ 28 → mantissa (new m s) = m ∧ scale (new m s) = s
  eq_of_tryFrom : ∀ m s d, tryFromI128WithScale m s = .ok d → mantissa d = m ∧ scale d = s
  exists_tryFrom : ∀ m s, m.natAbs < 2 ^ 96 → s ≤ 28 → ∃ d, tryFromI128WithScale m s = .ok d

namespace DecimalLibrary

variable {D ε : Type} (lib : DecimalLibrary D ε)

/-- The number that a decimal denotes. -/
def value (d : D) : ℚ := lib.mantissa d / 10 ^ lib.scale d

/-- What is made of a mantissa and a scale has their value. -/
theorem value_of_tryFrom {m : Int} {s : Nat} {d : D} (h : lib.tryFromI128WithScale m s = .ok d) :
    lib.value d = m / 10 ^ s := by
  obtain ⟨hmantissa, hscale⟩ := lib.eq_of_tryFrom m s d h
  rw [value, hmantissa, hscale]

/-- The conversion returns an error, or a decimal that denotes the number. -/
def Gives (o : Outcome ε D) (q : ℚ) : Prop := (∃ e, o = .fail e) ∨ ∃ d, o = .ok d ∧ lib.value d = q

/-- What is refused. -/
theorem bounds_of_tryFrom {m : Int} {s : Nat} {d : D} (h : lib.tryFromI128WithScale m s = .ok d) :
    m.natAbs < 2 ^ 96 ∧ s ≤ 28 := by
  obtain ⟨hmantissa, hscale⟩ := lib.eq_of_tryFrom m s d h
  exact ⟨hmantissa ▸ lib.natAbs_mantissa_lt d, hscale ▸ lib.scale_le d⟩

end DecimalLibrary

/-! ## Fixed-point numbers -/

/-- `FixedPoint256<SCALE>`. -/
structure FixedPoint256 (scale : Nat) where
  raw : Octets 32

namespace FixedPoint256

variable {scale : Nat} {D ε : Type}

/-- The number that is denoted. -/
def value (x : FixedPoint256 scale) : ℚ := toInt x.raw / 10 ^ scale

/-- `MAX`: all bits but the sign. -/
def max : FixedPoint256 scale := ⟨⟨0x7F :: List.replicate 31 0xFF, rfl⟩⟩

/-- `MIN`: only the sign. -/
def min : FixedPoint256 scale := ⟨⟨0x80 :: List.replicate 31 0, rfl⟩⟩

/-- `Ord::cmp`, which is derived. -/
def cmp (x y : FixedPoint256 scale) : Ordering := Int256.cmp x.raw y.raw

/-- `is_negative`. -/
def isNegative (x : FixedPoint256 scale) : Bool := (halves x.raw).1 &&& (1#128 <<< 127) != 0

/-- The result of an operation on `i128`. -/
def checkedI128 (p : Panic) (v : Int) : Outcome ε Int :=
  if -2 ^ 127 ≤ v ∧ v < 2 ^ 127 then .ok v else .panic p

/-- `10i128.pow`. -/
def powI128 (n : Nat) : Outcome ε Int := checkedI128 .mulOverflow (10 ^ n)

/-- `FixedPoint256(i256::from(value))`. -/
def fromRaw (value : Int) : FixedPoint256 scale := ⟨ofI128 (BitVec.ofInt 128 value)⟩

/-- The loop of `from_parts`: so many products with ten. -/
def scaleUp : Nat → Octets 32 → Octets 32
  | 0, result => result
  | n + 1, result => scaleUp n (mul result (ofI128 10))

/-- `from_parts`. -/
def fromParts (value exponent : Int) : Outcome ε (FixedPoint256 scale) :=
  let effectiveScale := (Int32.ofNat scale).toInt - exponent
  if ¬ (-2 ^ 31 ≤ effectiveScale ∧ effectiveScale < 2 ^ 31) then .panic .subtractOverflow
  else if 38 < effectiveScale then
    .ok ⟨scaleUp effectiveScale.toNat (ofI128 (BitVec.ofInt 128 value))⟩
  else if 0 ≤ effectiveScale then do
    let factor ← powI128 effectiveScale.toNat
    let scaledValue ← checkedI128 .mulOverflow (value * factor)
    .ok (fromRaw scaledValue)
  else do
    let divisor ← powI128 (-effectiveScale).toNat
    .ok (fromRaw (value.tdiv divisor))

/-- `from_decimal`. -/
def fromDecimal (lib : DecimalLibrary D ε) (d : D) : Outcome ε (FixedPoint256 scale) :=
  fromParts (lib.mantissa d) (lib.scale d)

/-- `Decimal::try_from_i128_with_scale(raw_value, SCALE as u32)`. -/
def makeDecimal (lib : DecimalLibrary D ε) (rawValue : Int) (scale : Nat) : Outcome ε D :=
  match lib.tryFromI128WithScale rawValue (scale % 2 ^ 32) with
  | .ok d => .ok d
  | .error e => .fail e

/-- `to_decimal`. -/
def toDecimal (lib : DecimalLibrary D ε) (x : FixedPoint256 scale) : Outcome ε D :=
  let high := (halves x.raw).1
  let low := (halves x.raw).2
  if high ≠ 0 ∧ high ≠ u128Max then .fail lib.exceedsMaximum
  else if x.isNegative then
    let lowPlusOne := ~~~low + 1#128
    let highBits := if lowPlusOne = 0 then ~~~high + 1#128 else ~~~high
    if highBits ≠ 0 then .fail lib.exceedsMaximum
    else do
      -- The negation is a subtraction from zero.
      let rawValue ← checkedI128 .subtractOverflow (-lowPlusOne.toInt)
      makeDecimal lib rawValue scale
  else makeDecimal lib low.toInt scale

/-! ## Order -/

/-- The order of the two is that of the numbers: of the integers, of fixed-point numbers that
hold them, of integers of 128 bits that they come from, and beside the bounds. -/
structure OrderIsNumeric (a b : Octets 32) : Prop where
  integers : Int256.cmp a b = compare (toInt a) (toInt b)
  ofI128 : ∀ x y, a = ofI128 x → b = ofI128 y → x.toInt < y.toInt → Int256.cmp a b = .lt
  fixed : ∀ scale, (⟨a⟩ : FixedPoint256 scale).cmp ⟨b⟩ =
    compare (⟨a⟩ : FixedPoint256 scale).value (⟨b⟩ : FixedPoint256 scale).value
  min_le : ∀ scale, (⟨a⟩ : FixedPoint256 scale) = min → Int256.cmp a b ≠ .gt
  le_max : ∀ scale, (⟨b⟩ : FixedPoint256 scale) = max → Int256.cmp a b ≠ .gt

theorem compare_div (a b : Int) (scale : Nat) :
    compare ((a : ℚ) / 10 ^ scale) ((b : ℚ) / 10 ^ scale) = compare a b := by
  have hpos : (0 : ℚ) < 10 ^ scale := by positivity
  have hdiv : StrictMono fun n : Int => (n : ℚ) / 10 ^ scale := by
    intro m n hmn
    exact div_lt_div_of_pos_right (by exact_mod_cast hmn) hpos
  exact compare_map hdiv a b

theorem toInt_min : toInt (min : FixedPoint256 scale).raw = -2 ^ 255 := by
  show toInt ⟨0x80 :: List.replicate 31 0, rfl⟩ = -2 ^ 255
  decide

theorem toInt_max : toInt (max : FixedPoint256 scale).raw = 2 ^ 255 - 1 := by
  show toInt ⟨0x7F :: List.replicate 31 0xFF, rfl⟩ = 2 ^ 255 - 1
  decide

/-- The order is that of the numbers exactly among numbers of one sign. -/
theorem orderIsNumeric_iff (a b : Octets 32) :
    OrderIsNumeric a b ↔ Int256.isNegative a = Int256.isNegative b := by
  constructor
  · intro h
    exact (cmp_eq_compare_iff a b).mp h.integers
  · intro hsign
    have hcmp := (cmp_eq_compare_iff a b).mpr hsign
    have ha := toInt_bounds a
    have hb := toInt_bounds b
    constructor
    · exact hcmp
    · rintro x y rfl rfl hlt
      rw [hcmp, compare_lt_iff_lt, toInt_ofI128, toInt_ofI128]
      exact hlt
    · intro scale
      show Int256.cmp a b = compare ((toInt a : ℚ) / 10 ^ scale) ((toInt b : ℚ) / 10 ^ scale)
      rw [hcmp, compare_div]
    · intro scale hmin
      have hvalue : toInt a = -2 ^ 255 := by
        rw [← @toInt_min scale, ← hmin]
      rw [hcmp, ne_eq, compare_gt_iff_gt, hvalue]
      omega
    · intro scale hmax
      have hvalue : toInt b = 2 ^ 255 - 1 := by
        rw [← @toInt_max scale, ← hmax]
      rw [hcmp, ne_eq, compare_gt_iff_gt, hvalue]
      omega

/-- The least number comes behind the greatest one, and minus one behind one. -/
theorem not_orderIsNumeric_samples :
    ¬ OrderIsNumeric (min : FixedPoint256 0).raw (max : FixedPoint256 0).raw ∧
      ¬ OrderIsNumeric (Int256.ofI128 (-1)) (Int256.ofI128 1) := by
  constructor
  · intro h
    exact h.le_max 0 rfl (by decide)
  · intro h
    have hlt := h.ofI128 (-1) 1 rfl rfl (by decide)
    exact absurd hlt (by decide)

/-! ## From a decimal -/

/-- A tenfold of a number that is kept in the lower half. -/
theorem mul_ten (negative : Bool) (low : BitVec 128) :
    mul (ofHalves (if negative then u128Max else 0) low) (Int256.ofI128 10) =
      ofHalves (if negative then u128Max else 0) (low * 10) := by
  have hten : Int256.isNegative (Int256.ofI128 10) = false := by decide
  have habs : absLow (Int256.ofI128 10) = 10 := by decide
  have hsign : Int256.isNegative (ofHalves (if negative then u128Max else 0) low) = negative := by
    rw [isNegative_ofHalves]
    cases negative <;> decide
  rw [mul_eq, hten, hsign, habs, absLow, hsign, halves_ofHalves]
  cases negative with
  | false => rfl
  | true =>
    rw [if_neg (by decide), magnitude, if_pos rfl, if_pos rfl]
    show ofHalves u128Max (-((~~~low + 1#128) * 10)) = ofHalves u128Max (low * 10)
    rw [← BitVec.neg_eq_not_add, BitVec.neg_mul, BitVec.neg_neg]

theorem scaleUp_ofHalves (negative : Bool) (n : Nat) (v : Int) :
    scaleUp n (ofHalves (if negative then u128Max else 0) (BitVec.ofInt 128 v)) =
      ofHalves (if negative then u128Max else 0) (BitVec.ofInt 128 (v * 10 ^ n)) := by
  induction n generalizing v with
  | zero => rw [scaleUp, pow_zero, mul_one]
  | succ n ih =>
    have hstep : BitVec.ofInt 128 v * 10 = BitVec.ofInt 128 (v * 10) := by
      rw [BitVec.ofInt_mul]
      rfl
    rw [scaleUp, mul_ten, hstep, ih, pow_succ']
    congr 2
    ring

/-- The number in the halves that the loop leaves. -/
theorem toInt_scaled (negative : Bool) (v : Int) :
    toInt (ofHalves (if negative then u128Max else 0) (BitVec.ofInt 128 v)) =
      if negative then v % 2 ^ 128 - 2 ^ 128 else v % 2 ^ 128 := by
  have hnonneg : 0 ≤ v % 2 ^ 128 := Int.emod_nonneg v (by decide)
  cases negative with
  | true =>
    rw [if_pos rfl, if_pos rfl, toInt_ofHalves_max, BitVec.toNat_ofInt]
    push_cast
    omega
  | false =>
    rw [if_neg (by decide), if_neg (by decide), toInt_ofHalves_zero, BitVec.toNat_ofInt]
    push_cast
    omega

/-- The integers of 128 bits. -/
def FitsI128 (v : Int) : Prop := -2 ^ 127 ≤ v ∧ v < 2 ^ 127

/-- The integers of 256 bits. -/
def FitsI256 (v : Int) : Prop := -2 ^ 255 ≤ v ∧ v < 2 ^ 255

instance (v : Int) : Decidable (FitsI128 v) := inferInstanceAs (Decidable (_ ∧ _))

instance (v : Int) : Decidable (FitsI256 v) := inferInstanceAs (Decidable (_ ∧ _))

theorem checkedI128_of_fits {v : Int} (h : FitsI128 v) (p : Panic) :
    (checkedI128 p v : Outcome ε Int) = .ok v := if_pos h

theorem checkedI128_of_not_fits {v : Int} (h : ¬ FitsI128 v) (p : Panic) :
    (checkedI128 p v : Outcome ε Int) = .panic p := if_neg h

theorem toInt_ofInt {v : Int} (h : FitsI128 v) : (BitVec.ofInt 128 v).toInt = v := by
  obtain ⟨hlow, hhigh⟩ := h
  rw [BitVec.toInt_ofInt, Int.bmod]
  split_ifs <;> omega

theorem toInt_fromRaw {v : Int} (h : FitsI128 v) :
    toInt (fromRaw v : FixedPoint256 scale).raw = v := by
  rw [fromRaw, toInt_ofI128, toInt_ofInt h]

theorem powI128_eq {n : Nat} (h : n ≤ 38) : (powI128 n : Outcome ε Int) = .ok (10 ^ n) := by
  have hle : (10 : Int) ^ n ≤ 10 ^ 38 := pow_le_pow_right₀ (by decide) h
  have hpos : (0 : Int) < 10 ^ n := by positivity
  rw [powI128, checkedI128, if_pos]
  constructor
  · omega
  · exact lt_of_le_of_lt hle (by decide)

section Conversions

variable (lib : DecimalLibrary D ε)

theorem fitsI128_mantissa (d : D) : FitsI128 (lib.mantissa d) := by
  have hlt := lib.natAbs_mantissa_lt d
  constructor <;> omega

theorem effectiveScale_eq (hscale : scale ≤ 76) : (Int32.ofNat scale).toInt = scale := by
  rw [Int32.toInt_ofNat', Int.bmod, Int32.size]
  split_ifs <;> omega

/-- More than 38 digits are multiplied one by one, and only the lower half is kept. -/
theorem fromDecimal_far {d : D} (hscale : scale ≤ 76) (h : lib.scale d + 38 < scale) :
    ∃ y : FixedPoint256 scale, fromDecimal lib d = .ok y ∧ toInt y.raw =
      if lib.mantissa d < 0 then
        lib.mantissa d * 10 ^ (scale - lib.scale d) % 2 ^ 128 - 2 ^ 128
      else lib.mantissa d * 10 ^ (scale - lib.scale d) % 2 ^ 128 := by
  have hsteps : ((scale : Int) - lib.scale d).toNat = scale - lib.scale d := by omega
  have hvalue : Int256.ofI128 (BitVec.ofInt 128 (lib.mantissa d)) =
      ofHalves (if decide (lib.mantissa d < 0) then u128Max else 0)
        (BitVec.ofInt 128 (lib.mantissa d)) := by
    rw [ofI128_eq, toInt_ofInt (fitsI128_mantissa lib d)]
    simp only [decide_eq_true_eq]
  refine ⟨⟨scaleUp (scale - lib.scale d) (Int256.ofI128 (BitVec.ofInt 128 (lib.mantissa d)))⟩, ?_, ?_⟩
  · simp only [fromDecimal, fromParts, effectiveScale_eq hscale]
    rw [if_neg (by omega), if_pos (by omega), hsteps]
  · have hnumber := toInt_scaled (decide (lib.mantissa d < 0))
      (lib.mantissa d * 10 ^ (scale - lib.scale d))
    rw [hvalue, scaleUp_ofHalves, hnumber]
    simp only [decide_eq_true_eq]

/-- Up to 38 digits are multiplied at once, in 128 bits. -/
theorem fromDecimal_near {d : D} (hscale : scale ≤ 76) (hle : lib.scale d ≤ scale)
    (h : scale ≤ lib.scale d + 38) :
    (fromDecimal lib d : Outcome ε (FixedPoint256 scale)) =
      (do
        let scaledValue ← checkedI128 .mulOverflow (lib.mantissa d * 10 ^ (scale - lib.scale d))
        .ok (fromRaw scaledValue)) := by
  have hsteps : ((scale : Int) - lib.scale d).toNat = scale - lib.scale d := by omega
  simp only [fromDecimal, fromParts, effectiveScale_eq hscale]
  rw [if_neg (by omega), if_neg (by omega), if_pos (by omega), hsteps, powI128_eq (by omega),
    Outcome.ok_bind]

/-- Digits beyond the scale are cut off. -/
theorem fromDecimal_back {d : D} (hscale : scale ≤ 76) (h : scale < lib.scale d) :
    ∃ x : FixedPoint256 scale, fromDecimal lib d = .ok x := by
  have hmax := lib.scale_le d
  simp only [fromDecimal, fromParts, effectiveScale_eq hscale]
  rw [if_neg (by omega), if_neg (by omega), if_neg (by omega), powI128_eq (by omega),
    Outcome.ok_bind]
  exact ⟨_, rfl⟩

/-! ## To a decimal -/

theorem div_pow_inj (a b : Int) (scale : Nat) :
    (a : ℚ) / 10 ^ scale = (b : ℚ) / 10 ^ scale ↔ a = b := by
  have hpos : (10 : ℚ) ^ scale ≠ 0 := by positivity
  rw [div_left_inj' hpos, Int.cast_inj]

/-- A decimal of the right number, or one that cannot be made. -/
theorem gives_makeDecimal_iff (hscale : scale ≤ 76) (rawValue v : Int) :
    lib.Gives (makeDecimal lib rawValue scale) (v / 10 ^ scale) ↔
      rawValue = v ∨ ¬ (rawValue.natAbs < 2 ^ 96 ∧ scale ≤ 28) := by
  have hmod : scale % 2 ^ 32 = scale := by omega
  rw [makeDecimal, hmod]
  constructor
  · intro hgives
    by_cases hbounds : rawValue.natAbs < 2 ^ 96 ∧ scale ≤ 28
    · obtain ⟨d, hd⟩ := lib.exists_tryFrom rawValue scale hbounds.1 hbounds.2
      rw [hd] at hgives
      obtain ⟨e, he⟩ | ⟨d', hd', hvalue⟩ := hgives
      · exact absurd he (by simp [Outcome.fail])
      · obtain rfl := Except.ok.inj hd'
        rw [lib.value_of_tryFrom hd, div_pow_inj] at hvalue
        exact .inl hvalue
    · exact .inr hbounds
  · intro h
    cases hmade : lib.tryFromI128WithScale rawValue scale with
    | error e => exact .inl ⟨e, rfl⟩
    | ok d =>
      rcases h with rfl | hbounds
      · exact .inr ⟨d, rfl, lib.value_of_tryFrom hmade⟩
      · exact absurd (lib.bounds_of_tryFrom hmade) hbounds

/-- The numbers that are narrowed to 128 bits without wrapping: the least integer of 128 bits is
none, and close to `2^128` there are none that the scale lets through. -/
def NarrowsExactly (x : FixedPoint256 scale) : Prop :=
  toInt x.raw ≠ -2 ^ 127 ∧
    (scale ≤ 28 → ¬ (2 ^ 128 - 2 ^ 96 < (toInt x.raw).natAbs ∧ (toInt x.raw).natAbs < 2 ^ 128))

/-- **What `to_decimal` gives is right exactly where nothing wraps.** -/
theorem gives_toDecimal_iff (hscale : scale ≤ 76) (x : FixedPoint256 scale) :
    lib.Gives (toDecimal lib x) x.value ↔ NarrowsExactly x := by
  obtain ⟨raw⟩ := x
  have hhalves := ofHalves_halves raw
  generalize hhigh : (halves raw).1 = high at hhalves
  generalize hlow : (halves raw).2 = low at hhalves
  have hhighlt := high.isLt
  have hlowlt := low.isLt
  have hnumber := toInt_ofHalves high low
  rw [hhalves] at hnumber
  have hsign : (⟨raw⟩ : FixedPoint256 scale).isNegative = decide (2 ^ 127 ≤ high.toNat) := by
    rw [← isNegative_ofHalves high low, hhalves]
    rfl
  simp only [toDecimal, hhigh, hlow, hsign, value, NarrowsExactly]
  by_cases hlarge : high ≠ 0 ∧ high ≠ u128Max
  · rw [if_pos hlarge]
    have hzero : high.toNat ≠ 0 := fun h => hlarge.1 (BitVec.eq_of_toNat_eq h)
    have hmax : high.toNat ≠ 2 ^ 128 - 1 := by
      intro h
      exact hlarge.2 (BitVec.eq_of_toNat_eq (h.trans BitVec.toNat_allOnes.symm))
    constructor
    · intro _
      split_ifs at hnumber <;> omega
    · intro _
      exact .inl ⟨_, rfl⟩
  · rw [if_neg hlarge]
    by_cases hpositive : high = 0
    · subst hpositive
      have hzero : (0 : BitVec 128).toNat = 0 := rfl
      have hcast := BitVec.toInt_eq_toNat_cond low
      rw [hzero, if_pos (by decide)] at hnumber
      rw [hzero, if_neg (by decide), gives_makeDecimal_iff lib hscale]
      split_ifs at hcast <;> omega
    · have hnegative : high = u128Max := by
        by_contra h
        exact hlarge ⟨hpositive, h⟩
      subst hnegative
      have hmax : u128Max.toNat = 2 ^ 128 - 1 := BitVec.toNat_allOnes
      have hmagnitude := BitVec.toNat_neg low
      have hcast := BitVec.toInt_eq_toNat_cond (-low)
      rw [hmax, if_neg (by decide)] at hnumber
      rw [hmax, if_pos (by decide), ← BitVec.neg_eq_not_add]
      by_cases hnone : -low = 0
      · have hlownone : low.toNat = 0 := by
          have h := congrArg BitVec.toNat hnone
          rw [hmagnitude] at h
          change _ = 0 at h
          omega
        rw [if_pos hnone, if_pos (by decide)]
        constructor
        · intro _
          omega
        · intro _
          exact .inl ⟨_, rfl⟩
      · have hlowsome : low.toNat ≠ 0 := by
          intro h
          have hzero : low = 0#128 := BitVec.eq_of_toNat_eq h
          apply hnone
          rw [hzero]
          rfl
        rw [if_neg hnone, if_neg (by decide), checkedI128]
        by_cases hfits : -2 ^ 127 ≤ -(-low).toInt ∧ -(-low).toInt < 2 ^ 127
        · rw [if_pos hfits, Outcome.ok_bind, gives_makeDecimal_iff lib hscale]
          split_ifs at hcast <;> omega
        · rw [if_neg hfits]
          constructor
          · rintro (⟨e, he⟩ | ⟨d, hd, -⟩)
            · exact absurd he (by simp [Outcome.fail, Outcome.panic])
            · exact absurd hd (by simp [Outcome.panic])
          · intro h
            split_ifs at hcast <;> omega

theorem makeDecimal_ne_ok (hscale : scale ≤ 76) (h : 28 < scale) (rawValue : Int) (d : D) :
    makeDecimal lib rawValue scale ≠ .ok d := by
  have hmod : scale % 2 ^ 32 = scale := by omega
  rw [makeDecimal, hmod]
  cases hmade : lib.tryFromI128WithScale rawValue scale with
  | error e => simp [Outcome.fail]
  | ok d' =>
    have hbounds := lib.bounds_of_tryFrom hmade
    omega

/-- With more than 28 digits behind the point there is no decimal. -/
theorem toDecimal_ne_ok (hscale : scale ≤ 76) (h : 28 < scale) (x : FixedPoint256 scale) (d : D) :
    toDecimal lib x ≠ .ok d := by
  have hmake := makeDecimal_ne_ok lib hscale h
  intro hok
  simp only [toDecimal] at hok
  split_ifs at hok
  · cases hok
  · cases hok
  · obtain ⟨rawValue, -, hok⟩ := Outcome.bind_eq_ok.mp hok
    exact hmake rawValue d hok
  · cases hok
  · obtain ⟨rawValue, -, hok⟩ := Outcome.bind_eq_ok.mp hok
    exact hmake rawValue d hok
  · exact hmake _ d hok

/-- It is then an error, but for the least integer of 128 bits. -/
theorem gives_toDecimal_far_iff (hscale : scale ≤ 76) (h : 28 < scale) (x : FixedPoint256 scale)
    (q : ℚ) : lib.Gives (toDecimal lib x) q ↔ toInt x.raw ≠ -2 ^ 127 := by
  have hne := toDecimal_ne_ok lib hscale h x
  have hany (q : ℚ) : lib.Gives (toDecimal lib x) q ↔ ∃ e, toDecimal lib x = .fail e := by
    constructor
    · rintro (hfail | ⟨d, hd, -⟩)
      · exact hfail
      · exact absurd hd (hne d)
    · exact .inl
  rw [hany, ← hany x.value, gives_toDecimal_iff lib hscale, NarrowsExactly]
  constructor
  · exact fun hnarrow => hnarrow.1
  · exact fun hleast => ⟨hleast, fun hle => absurd hle (by omega)⟩

/-! ## There and back -/

/-- The decimals that are scaled right: up to 38 digits the product fits 128 bits, and with more
it is zero or does not fit 256 bits. -/
def ScalesExactly (scale : Nat) (d : D) : Prop :=
  lib.scale d ≤ scale →
    (scale ≤ lib.scale d + 38 → FitsI128 (lib.mantissa d * 10 ^ (scale - lib.scale d))) ∧
      (lib.scale d + 38 < scale → FitsI256 (lib.mantissa d * 10 ^ (scale - lib.scale d)) →
        lib.mantissa d = 0)

/-- What the loop leaves of the product is not the least integer of 128 bits. -/
def LeavesOther (scale : Nat) (d : D) : Prop :=
  lib.scale d + 38 < scale → lib.mantissa d < 0 →
    lib.mantissa d * 10 ^ (scale - lib.scale d) % 2 ^ 128 ≠ 2 ^ 127

/-- A decimal is scaled to a fixed-point number, a fixed-point number gives the decimal that it
denotes or an error, and so do the two in a row. -/
structure ConvertsExactly (d : D) (x : FixedPoint256 scale) : Prop where
  scaled : ∃ y : FixedPoint256 scale, fromDecimal lib d = .ok y ∧
    (lib.scale d ≤ scale → FitsI256 (lib.mantissa d * 10 ^ (scale - lib.scale d)) →
      toInt y.raw = lib.mantissa d * 10 ^ (scale - lib.scale d))
  narrowed : lib.Gives (toDecimal lib x) x.value
  back : lib.scale d ≤ scale →
    lib.Gives ((fromDecimal lib d : Outcome ε (FixedPoint256 scale)) >>= toDecimal lib) (lib.value d)

theorem value_scaled {d : D} (h : lib.scale d ≤ scale) :
    ((lib.mantissa d * 10 ^ (scale - lib.scale d) : Int) : ℚ) / 10 ^ scale = lib.value d := by
  have hsplit : (10 : ℚ) ^ scale = 10 ^ (scale - lib.scale d) * 10 ^ lib.scale d := by
    rw [← pow_add, Nat.sub_add_cancel h]
  have hpos : (10 : ℚ) ^ (scale - lib.scale d) ≠ 0 := by positivity
  rw [DecimalLibrary.value, hsplit]
  push_cast
  field_simp

/-- A product with a power of ten is not a power of two. -/
theorem scaled_ne_least (d : D) (n : Nat) : lib.mantissa d * 10 ^ n ≠ -2 ^ 127 := by
  have hmantissa := lib.natAbs_mantissa_lt d
  cases n with
  | zero => omega
  | succ n =>
    rw [pow_succ, ← mul_assoc]
    omega

/-- A product that needs more than 38 zeros is zero or too large for the lower half. -/
theorem scaled_far {d : D} {n : Nat} (h : 38 < n) (hne : lib.mantissa d ≠ 0) :
    2 ^ 128 < (lib.mantissa d * 10 ^ n).natAbs := by
  have hpow : 10 ^ 39 ≤ 10 ^ n := Nat.pow_le_pow_right (by decide) h
  have hone : 1 ≤ (lib.mantissa d).natAbs := by omega
  calc 2 ^ 128 < 1 * 10 ^ 39 := by decide
    _ ≤ (lib.mantissa d).natAbs * 10 ^ n := Nat.mul_le_mul hone hpow
    _ = (lib.mantissa d * 10 ^ n).natAbs := by
      rw [Int.natAbs_mul, Int.natAbs_pow]
      rfl

/-- A decimal that is scaled in 128 bits comes back. -/
theorem gives_back_near (hscale : scale ≤ 76) {d : D} (hle : lib.scale d ≤ scale)
    (hfits : FitsI128 (lib.mantissa d * 10 ^ (scale - lib.scale d))) :
    lib.Gives (toDecimal lib
      (fromRaw (lib.mantissa d * 10 ^ (scale - lib.scale d)) : FixedPoint256 scale))
      (lib.value d) := by
  have hvalue : (fromRaw (lib.mantissa d * 10 ^ (scale - lib.scale d)) : FixedPoint256 scale).value =
      lib.value d := by
    rw [value, toInt_fromRaw hfits, value_scaled lib hle]
  obtain ⟨hlow, hhigh⟩ := id hfits
  rw [← hvalue, gives_toDecimal_iff lib hscale, NarrowsExactly, toInt_fromRaw hfits]
  exact ⟨scaled_ne_least lib d _, fun _ => by omega⟩

/-- More digits behind the point than can be multiplied at once. -/
theorem convertsExactly_far_iff (hscale : scale ≤ 76) {d : D} (hfar : lib.scale d + 38 < scale)
    (x : FixedPoint256 scale) :
    ConvertsExactly lib d x ↔
      ScalesExactly lib scale d ∧ NarrowsExactly x ∧ LeavesOther lib scale d := by
  have hle : lib.scale d ≤ scale := by omega
  have hnarrow := gives_toDecimal_iff lib hscale x
  obtain ⟨y, hfrom, hvalue⟩ := fromDecimal_far lib hscale hfar
  have hcame := gives_toDecimal_far_iff lib hscale (by omega) y (lib.value d)
  rw [hvalue] at hcame
  have hscaled : toInt y.raw = lib.mantissa d * 10 ^ (scale - lib.scale d) ↔
      lib.mantissa d = 0 := by
    constructor
    · intro h
      by_contra hne
      have hlarge := scaled_far lib (n := scale - lib.scale d) (by omega) hne
      rw [hvalue] at h
      split_ifs at h <;> omega
    · intro h
      rw [hvalue, h]
      simp
  constructor
  · intro h
    obtain ⟨y', hy', hexact⟩ := h.scaled
    obtain rfl : y = y' := Except.ok.inj (hfrom.symm.trans hy')
    have hcomes := h.back hle
    rw [hfrom, Outcome.ok_bind, hcame] at hcomes
    refine ⟨fun _ => ⟨fun hnear => absurd hnear (by omega), fun _ hfits => ?_⟩,
      hnarrow.mp h.narrowed, fun _ hneg => ?_⟩
    · exact hscaled.mp (hexact hle hfits)
    · rw [if_pos hneg] at hcomes
      omega
  · rintro ⟨hscales, hx, hother⟩
    refine ⟨⟨y, hfrom, fun _ hfits => hscaled.mpr ((hscales hle).2 hfar hfits)⟩,
      hnarrow.mpr hx, fun _ => ?_⟩
    rw [hfrom, Outcome.ok_bind, hcame]
    have hleft := hother hfar
    split_ifs with hneg
    · have hne := hleft hneg
      omega
    · omega

/-- **The conversions are exact as long as nothing wraps and no product overflows.** -/
theorem convertsExactly_iff (hscale : scale ≤ 76) (d : D) (x : FixedPoint256 scale) :
    ConvertsExactly lib d x ↔
      ScalesExactly lib scale d ∧ NarrowsExactly x ∧ LeavesOther lib scale d := by
  have hnarrow := gives_toDecimal_iff lib hscale x
  by_cases hfar : lib.scale d + 38 < scale
  · exact convertsExactly_far_iff lib hscale hfar x
  by_cases hback : scale < lib.scale d
  · -- Fewer digits behind the point than the decimal has.
    obtain ⟨y, hy⟩ := fromDecimal_back lib hscale hback
    constructor
    · intro h
      exact ⟨fun hle => absurd hle (by omega), hnarrow.mp h.narrowed, fun h => absurd h hfar⟩
    · rintro ⟨-, hx, -⟩
      exact ⟨⟨y, hy, fun hle => absurd hle (by omega)⟩, hnarrow.mpr hx,
        fun hle => absurd hle (by omega)⟩
  · have hle : lib.scale d ≤ scale := by omega
    have hnear : scale ≤ lib.scale d + 38 := by omega
    have hfrom := fromDecimal_near (ε := ε) lib hscale hle hnear
    by_cases hfits : FitsI128 (lib.mantissa d * 10 ^ (scale - lib.scale d))
    · rw [checkedI128_of_fits hfits, Outcome.ok_bind] at hfrom
      constructor
      · intro h
        exact ⟨fun _ => ⟨fun _ => hfits, fun h => absurd h hfar⟩, hnarrow.mp h.narrowed,
          fun h => absurd h hfar⟩
      · rintro ⟨-, hx, -⟩
        refine ⟨⟨_, hfrom, fun _ _ => toInt_fromRaw hfits⟩, hnarrow.mpr hx, fun _ => ?_⟩
        rw [hfrom, Outcome.ok_bind]
        exact gives_back_near lib hscale hle hfits
    · rw [checkedI128_of_not_fits hfits, Outcome.panic_bind] at hfrom
      constructor
      · intro h
        obtain ⟨y, hy, -⟩ := h.scaled
        exact absurd (hfrom.symm.trans hy) (by simp [Outcome.panic])
      · rintro ⟨hscales, -⟩
        exact absurd ((hscales hle).1 hnear) hfits

end Conversions

/-- Pairs of a mantissa and a scale. -/
def pairs : DecimalLibrary {d : Int × Nat // d.1.natAbs < 2 ^ 96 ∧ d.2 ≤ 28} Unit where
  mantissa d := d.1.1
  scale d := d.1.2
  new m s := if h : m.natAbs < 2 ^ 96 ∧ s ≤ 28 then ⟨(m, s), h⟩ else ⟨(0, 0), by decide⟩
  tryFromI128WithScale m s :=
    if h : m.natAbs < 2 ^ 96 ∧ s ≤ 28 then .ok ⟨(m, s), h⟩ else .error ()
  exceedsMaximum := ()
  natAbs_mantissa_lt d := d.2.1
  scale_le d := d.2.2
  new_eq m s hmantissa hscale := by
    rw [dif_pos ⟨by omega, hscale⟩]
    exact ⟨rfl, rfl⟩
  eq_of_tryFrom m s d h := by
    split_ifs at h
    cases h
    exact ⟨rfl, rfl⟩
  exists_tryFrom m s hmantissa hscale := ⟨⟨(m, s), hmantissa, hscale⟩, dif_pos ⟨hmantissa, hscale⟩⟩

/-- 1.5 with two digits behind the point. -/
theorem convertsExactly_sample :
    ConvertsExactly pairs ⟨(15, 1), by decide⟩ (⟨Int256.ofI128 150⟩ : FixedPoint256 2) := by
  refine (convertsExactly_iff pairs (by decide) _ _).mpr ⟨?_, ?_, ?_⟩
  · exact fun _ => ⟨fun _ => by decide, fun h => absurd h (by decide)⟩
  · have hvalue : toInt (Int256.ofI128 150) = 150 := by decide
    constructor
    · rw [hvalue]
      decide
    · rw [hvalue]
      decide
  · exact fun h => absurd h (by decide)

/-- One with 39 zeros behind the point loses its upper bits, and the greatest integer of 128 bits
without a sign becomes minus one. -/
theorem not_convertsExactly_samples :
    ¬ ConvertsExactly pairs ⟨(1, 0), by decide⟩ (⟨Int256.ofI128 0⟩ : FixedPoint256 39) ∧
      ¬ ConvertsExactly pairs ⟨(0, 0), by decide⟩ (⟨ofHalves 0 u128Max⟩ : FixedPoint256 1) := by
  constructor
  · intro h
    obtain ⟨y, hy, hexact⟩ := h.scaled
    have hmade : fromDecimal pairs ⟨(1, 0), by decide⟩ =
        .ok (⟨scaleUp 39 (Int256.ofI128 1)⟩ : FixedPoint256 39) := rfl
    obtain rfl := Except.ok.inj (hmade.symm.trans hy)
    have hwrong := hexact (by decide) (by decide)
    exact absurd hwrong (by decide +kernel)
  · intro h
    have hminus : toDecimal pairs (⟨ofHalves 0 u128Max⟩ : FixedPoint256 1) =
        .ok ⟨(-1, 1), by decide⟩ := by decide +kernel
    obtain ⟨e, he⟩ | ⟨d, hd, hvalue⟩ := h.narrowed
    · rw [hminus] at he
      cases he
    · obtain rfl := Except.ok.inj (hminus.symm.trans hd)
      have hnumber : toInt (ofHalves 0 u128Max) = 2 ^ 128 - 1 := by decide
      rw [value, hnumber, DecimalLibrary.value] at hvalue
      norm_num [pairs] at hvalue

end FixedPoint256

end ClickhouseArrow
