import ClickhouseArrow.Native.RoundTrip
import ClickhouseArrow.Values.FixedPoint
import Mathlib.Data.Nat.Log

/-!
# Decimals of a program in decimal columns

`ToSql` and `FromSql` of `native/values/decimal.rs`: a decimal of `rust_decimal` becomes a value
that carries its own scale, the check of values lets every scale pass up to that of the column, and
the column stores the integer alone.
-/

namespace ClickhouseArrow

open Wire FixedPoint256

namespace Decimal

variable {D ε : Type}

/-- `count_digits_i128`. -/
def countDigitsI128 (n : Int) : Result Nat :=
  if n = 0 then .ok 1
  else do
    let magnitude ← checkedI128 .subtractOverflow |n|
    .ok (Nat.log 10 magnitude.toNat + 1)

/-- `try_from_i128_with_scale`, with the error that takes the place of its own. -/
def tryFrom (lib : DecimalLibrary D ε) (value : Int) (scale : Nat) (e : Error) : Result D :=
  match lib.tryFromI128WithScale value (scale % 2 ^ 32) with
  | .ok d => .ok d
  | .error _ => .fail e

/-! ## From a value -/

/-- `out_of_range`. -/
def outOfRange (name : String) : Error :=
  .deserializeError [.text name, .text " out of bounds for rust_decimal"]

/-- `decimal_out_of_range`. -/
def decimalOutOfRange (name : String) (t : ChType) (scale : Nat) (value : Int) : Error :=
  .deserializeError [.text name, .text " out of bounds for rust_decimal: type=", .type t,
    .text " scale=", .number scale, .text " value=", .number value]

/-- The arm of a decimal, of so many digits. -/
def fromDecimalValue (lib : DecimalLibrary D ε) (name : String) (digits : Nat) (t : ChType)
    (scale : Nat) (value : Int) : Result D := do
  let n ← countDigitsI128 value
  if digits < n then .fail (decimalOutOfRange name t scale value)
  else tryFrom lib value scale (decimalOutOfRange name t scale value)

/-- `FromSql for Decimal`. -/
def fromSql (lib : DecimalLibrary D ε) (t : ChType) : Value → Result D
  | .int8 i => .ok (lib.new i.toInt 0)
  | .int16 i => .ok (lib.new i.toInt 0)
  | .int32 i => .ok (lib.new i.toInt 0)
  | .int64 i => .ok (lib.new i.toInt 0)
  | .int128 i => tryFrom lib i.toInt 0 (outOfRange "i128")
  | .uint8 i => .ok (lib.new i.toNat 0)
  | .uint16 i => .ok (lib.new i.toNat 0)
  | .uint32 i => .ok (lib.new i.toNat 0)
  | .uint64 i => tryFrom lib i.toNat 0 (outOfRange "u128")
  | .uint128 i =>
      if i.toNat < 2 ^ 127 then tryFrom lib i.toNat 0 (outOfRange "u128")
      else .fail (outOfRange "u128")
  | .decimal32 scale value => fromDecimalValue lib "Decimal32" 9 t scale value.toInt
  | .decimal64 scale value => fromDecimalValue lib "Decimal64" 18 t scale value.toInt
  | .decimal128 scale value => fromDecimalValue lib "Decimal128" 28 t scale value.toInt
  | _ => .fail (.deserializeError [.text "unexpected type: ", .type t])

/-! ## To a value -/

/-- `out_of_range` of `to_sql`. -/
def outOfBounds (name : String) : Error :=
  .serializeError [.text name, .text " out of bounds for rust_decimal"]

/-- `ToSql for Decimal`. -/
def toSql (lib : DecimalLibrary D ε) (d : D) : Option ChType → Result Value
  | none => .ok (.decimal128 (lib.scale d) (BitVec.ofInt 128 (lib.mantissa d)))
  | some (.decimal32 s) => do
      let n ← countDigitsI128 (lib.mantissa d)
      if 9 < n then .fail (outOfBounds "Decimal32")
      else if s % 2 ^ 32 < lib.scale d then .fail (outOfBounds "Decimal32 scale")
      else if -2 ^ 31 ≤ lib.mantissa d ∧ lib.mantissa d < 2 ^ 31 then
        .ok (.decimal32 (lib.scale d) (Int32.ofInt (lib.mantissa d)))
      else .fail (outOfBounds "Decimal32 mantissa")
  | some (.decimal64 s) => do
      let n ← countDigitsI128 (lib.mantissa d)
      if 18 < n then .fail (outOfBounds "Decimal64")
      else if s % 2 ^ 32 < lib.scale d then .fail (outOfBounds "Decimal64 scale")
      else if -2 ^ 63 ≤ lib.mantissa d ∧ lib.mantissa d < 2 ^ 63 then
        .ok (.decimal64 (lib.scale d) (Int64.ofInt (lib.mantissa d)))
      else .fail (outOfBounds "Decimal64")
  | some (.decimal128 s) => do
      let n ← countDigitsI128 (lib.mantissa d)
      if 38 < n then .fail (outOfBounds "Decimal128")
      else if s % 2 ^ 32 < lib.scale d then .fail (outOfBounds "Decimal128 scale")
      else .ok (.decimal128 (lib.scale d) (BitVec.ofInt 128 (lib.mantissa d)))
  | some t =>
      .fail (.serializeError [.text "unexpected type for scale ", .number (lib.scale d), .text ": ",
        .type t])

/-! ## Digits -/

theorem exists_countDigits {n : Int} (h : n.natAbs < 2 ^ 127) :
    ∃ k, countDigitsI128 n = .ok k ∧ ∀ digits, 0 < digits → (k ≤ digits ↔ n.natAbs < 10 ^ digits) := by
  by_cases hzero : n = 0
  · subst hzero
    refine ⟨1, if_pos rfl, fun digits hdigits => ?_⟩
    have hpow : 0 < 10 ^ digits := Nat.pow_pos (by decide)
    constructor
    · exact fun _ => hpow
    · exact fun _ => hdigits
  · have hfits : FitsI128 |n| := by
      rw [Int.abs_eq_natAbs]
      constructor <;> omega
    refine ⟨Nat.log 10 |n|.toNat + 1, ?_, fun digits hdigits => ?_⟩
    · rw [countDigitsI128, if_neg hzero, checkedI128_of_fits hfits, Outcome.ok_bind]
    · rw [Int.abs_eq_natAbs, Int.toNat_natCast, Nat.succ_le_iff]
      exact Nat.log_lt_iff_lt_pow (by decide) (by omega)

/-- What the arm of a decimal gives. -/
theorem fromDecimalValue_gives_iff (lib : DecimalLibrary D ε) (name : String) {digits : Nat}
    (hdigits : 0 < digits) (hmax : digits ≤ 28) (t : ChType) {scale : Nat} (hscale : scale ≤ 76)
    {value : Int} (hvalue : value.natAbs < 2 ^ 127) (q : ℚ) :
    (∃ d, fromDecimalValue lib name digits t scale value = .ok d ∧ lib.value d = q) ↔
      value.natAbs < 10 ^ digits ∧ scale ≤ 28 ∧ (value : ℚ) / 10 ^ scale = q := by
  obtain ⟨k, hk, hcount⟩ := exists_countDigits hvalue
  have hmod : scale % 2 ^ 32 = scale := by omega
  have hpow : 10 ^ digits ≤ 10 ^ 28 := Nat.pow_le_pow_right (by decide) hmax
  have hlimit := hcount digits hdigits
  rw [fromDecimalValue, hk, Outcome.ok_bind]
  by_cases hmany : digits < k
  · rw [if_pos hmany]
    constructor
    · rintro ⟨d, hd, -⟩
      exact absurd hd (by simp [Outcome.fail])
    · rintro ⟨hfew, -⟩
      omega
  · rw [if_neg hmany, tryFrom, hmod]
    constructor
    · rintro ⟨d, hd, rfl⟩
      split at hd
      · next made hmade =>
        obtain rfl := Except.ok.inj hd
        exact ⟨hlimit.mp (by omega), (lib.bounds_of_tryFrom hmade).2, (lib.value_of_tryFrom hmade).symm⟩
      · exact absurd hd (by simp [Outcome.fail])
    · rintro ⟨hfew, hsmall, rfl⟩
      obtain ⟨d, hd⟩ := lib.exists_tryFrom value scale (by omega) hsmall
      refine ⟨d, ?_, lib.value_of_tryFrom hd⟩
      rw [hd]

/-! ## The number in a column -/

/-- The number that a decimal value denotes. -/
def number : Value → Option ℚ
  | .decimal32 scale x => some ((x.toInt : ℚ) / 10 ^ scale)
  | .decimal64 scale x => some ((x.toInt : ℚ) / 10 ^ scale)
  | .decimal128 scale x => some ((x.toInt : ℚ) / 10 ^ scale)
  | .decimal256 scale x => some ((Int256.toInt x : ℚ) / 10 ^ scale)
  | _ => none

/-- What a column of one value is read back as denotes the decimal, and becomes it again. -/
structure Denotes (lib : DecimalLibrary D ε) (t : ChType) (d : D) (stored : Value) : Prop where
  number_eq : number stored = some (lib.value d)
  back : ∃ d', fromSql lib t stored = .ok d' ∧ lib.value d' = lib.value d

/-- A decimal that becomes a value the column accepts is stored with its value. -/
def KeepsValue (lib : DecimalLibrary D ε) (t : ChType) (d : D) : Prop :=
  ∀ v, toSql lib d (some t) = .ok v → t.validateValue v = .ok () →
    ∃ bytes stored, t.serializeColumn [v] = .ok bytes ∧
      Reads (t.readPrefixedColumn 1) (t.serializePrefix ++ bytes) [stored] ∧
      Denotes lib t d stored

/-- The decimals that keep their value: those that the conversion or the column refuses, those of
the scale of the column, and zero; and from a column of 128 bits only 28 digits come back. -/
def KeepsScale (lib : DecimalLibrary D ε) (t : ChType) (d : D) : Prop :=
  match t with
  | .decimal32 s =>
      s ≤ 9 → lib.scale d ≤ s → (lib.mantissa d).natAbs < 10 ^ 9 → lib.scale d = s ∨ lib.mantissa d = 0
  | .decimal64 s =>
      s ≤ 18 → lib.scale d ≤ s → (lib.mantissa d).natAbs < 10 ^ 18 →
        lib.scale d = s ∨ lib.mantissa d = 0
  | .decimal128 s =>
      0 < s → s ≤ 38 → lib.scale d ≤ s →
        (lib.scale d = s ∨ lib.mantissa d = 0 ∧ s ≤ 28) ∧ (lib.mantissa d).natAbs < 10 ^ 28
  | _ => True

section Columns

variable (lib : DecimalLibrary D ε) {t : ChType} {s : Nat} {d : D}

theorem value_eq_iff (m : Int) (a b : Nat) :
    (m : ℚ) / 10 ^ a = (m : ℚ) / 10 ^ b ↔ b = a ∨ m = 0 := by
  have ha : (10 : ℚ) ^ a ≠ 0 := by positivity
  have hb : (10 : ℚ) ^ b ≠ 0 := by positivity
  rw [div_eq_div_iff ha hb, mul_eq_mul_left_iff, Int.cast_eq_zero,
    pow_right_inj₀ (by norm_num) (by norm_num)]

theorem one_row (v : Value) : [v].length ≤ maxStringSize := by
  rw [List.length_singleton]
  decide

/-- An entry of a valid type that is accepted is read back. -/
theorem column_stored {v : Value} (ht : t.validate = .ok ()) (hv : t.validateValue v = .ok ())
    (hstored : t.EveryColumn ChType.Storable [v])
    (hback : t.readBack v = v) :
    ∃ bytes, t.serializeColumn [v] = .ok bytes ∧
      Reads (t.readPrefixedColumn 1) (t.serializePrefix ++ bytes) [v] := by
  have hround := ChType.prefixedColumn_roundTrip t [v] ht (by simpa using hv) hstored
  rwa [List.map_singleton, hback] at hround

theorem checkScale_eq_ok {scale max : Nat} {msg : List Fragment} :
    ChType.checkScale scale max msg = .ok () ↔ 0 < scale ∧ scale ≤ max := by
  rw [ChType.checkScale]
  split_ifs with h
  · simp only [Outcome.fail, reduceCtorEq, false_iff]
    omega
  · simp only [true_iff]
    omega

/-- The checks of the conversion: the digits, the scale, and the width of the integer, which the
digits bound already. -/
theorem made_iff {k limit : Nat} (made : Value) (tooMany tooFine tooLarge : Error) {fits : Prop}
    [Decidable fits] (hlimit : k ≤ limit ↔ (lib.mantissa d).natAbs < 10 ^ limit)
    (hfits : (lib.mantissa d).natAbs < 10 ^ limit → fits) (v : Value) :
    (if limit < k then Outcome.fail tooMany
      else if s % 2 ^ 32 < lib.scale d then Outcome.fail tooFine
      else if fits then .ok made else Outcome.fail tooLarge) = .ok v ↔
      (lib.mantissa d).natAbs < 10 ^ limit ∧ lib.scale d ≤ s % 2 ^ 32 ∧ v = made := by
  by_cases hmany : limit < k
  · rw [if_pos hmany]
    simp only [Outcome.fail, reduceCtorEq, false_iff]
    exact fun h => absurd (hlimit.mpr h.1) (by omega)
  · have hfew := hlimit.mp (by omega)
    rw [if_neg hmany, if_pos (hfits hfew)]
    by_cases hfine : s % 2 ^ 32 < lib.scale d
    · rw [if_pos hfine]
      simp only [Outcome.fail, reduceCtorEq, false_iff]
      exact fun h => absurd h.2.1 (by omega)
    · rw [if_neg hfine, Except.ok.injEq]
      constructor
      · exact fun h => ⟨hfew, by omega, h.symm⟩
      · exact fun h => h.2.2.symm

/-! ## The types with a conversion -/

/-- The widths that a decimal is converted to. -/
inductive Width
  | bits32
  | bits64
  | bits128

namespace Width

/-- The decimal type of a scale. -/
def type : Width → Nat → ChType
  | bits32 => .decimal32
  | bits64 => .decimal64
  | bits128 => .decimal128

/-- The value of a scale and an integer. -/
def value : Width → Nat → Int → Value
  | bits32, scale, i => .decimal32 scale (Int32.ofInt i)
  | bits64, scale, i => .decimal64 scale (Int64.ofInt i)
  | bits128, scale, i => .decimal128 scale (BitVec.ofInt 128 i)

/-- The digits that an integer and a scale may have. -/
def limit : Width → Nat
  | bits32 => 9
  | bits64 => 18
  | bits128 => 38

/-- The digits that come back. -/
def digits : Width → Nat
  | bits32 => 9
  | bits64 => 18
  | bits128 => 28

def name : Width → String
  | bits32 => "Decimal32"
  | bits64 => "Decimal64"
  | bits128 => "Decimal128"

end Width

variable (w : Width)

theorem toSql_width (v : Value) : toSql lib d (some (w.type s)) = .ok v ↔
    (lib.mantissa d).natAbs < 10 ^ w.limit ∧ lib.scale d ≤ s % 2 ^ 32 ∧
      v = w.value (lib.scale d) (lib.mantissa d) := by
  obtain ⟨k, hk, hcount⟩ := exists_countDigits ((lib.natAbs_mantissa_lt d).trans (by decide))
  cases w with
  | bits32 =>
    rw [Width.type, toSql, hk, Outcome.ok_bind]
    exact made_iff lib _ _ _ _ (hcount 9 (by decide)) (by omega) v
  | bits64 =>
    rw [Width.type, toSql, hk, Outcome.ok_bind]
    exact made_iff lib _ _ _ _ (hcount 18 (by decide)) (by omega) v
  | bits128 =>
    -- Every mantissa fits the width.
    have hmade := @made_iff _ _ lib s d _ _ (Width.bits128.value (lib.scale d) (lib.mantissa d))
      (outOfBounds "Decimal128") (outOfBounds "Decimal128 scale") (outOfBounds "Decimal128") True _
      (hcount 38 (by decide)) (fun _ => trivial) v
    rw [if_pos trivial] at hmade
    rw [Width.type, toSql, hk, Outcome.ok_bind]
    exact hmade

/-- A column takes the values of its own scale and of smaller ones. -/
theorem validateValue_width (scale : Nat) (i : Int) :
    (w.type s).validateValue (w.value scale i) = .ok () ↔ (0 < s ∧ s ≤ w.limit) ∧ scale ≤ s := by
  cases w <;>
  · rw [Width.type, Width.value, ChType.validateValue_eq_ok, ChType.validate, checkScale_eq_ok]
    simp [ChType.innerValidateValue, ChType.accepts, Width.limit]

/-- The integer is written without the scale of the value. -/
theorem serializeColumn_width (scale : Nat) (i : Int) :
    (w.type s).serializeColumn [w.value scale i] = (w.type s).serializeColumn [w.value s i] := by
  cases w <;> rfl

theorem stored_width (i : Int) (hpos : 0 < s) (hle : s ≤ w.limit) :
    ∃ bytes, (w.type s).serializeColumn [w.value s i] = .ok bytes ∧
      Reads ((w.type s).readPrefixedColumn 1) ((w.type s).serializePrefix ++ bytes)
        [w.value s i] := by
  have hvalue := (validateValue_width w s i).mpr ⟨⟨hpos, hle⟩, le_refl s⟩
  cases w <;>
  · refine column_stored (checkScale_eq_ok.mpr ⟨hpos, hle⟩) hvalue ⟨one_row _, ?_, trivial⟩ rfl
    simp [ChType.EntryFits, Width.type, Width.value]

variable {i : Int}

/-- An integer of so many digits is in its value. -/
theorem value_width (hi : i.natAbs < 10 ^ w.limit) :
    number (w.value s i) = some ((i : ℚ) / 10 ^ s) ∧
      fromSql lib (w.type s) (w.value s i) =
        fromDecimalValue lib w.name w.digits (w.type s) s i := by
  cases w with
  | bits32 =>
    change i.natAbs < 10 ^ 9 at hi
    have hint : (Int32.ofInt i).toInt = i := Int32.toInt_ofInt_of_le (by omega) (by omega)
    rw [Width.value, number, fromSql, hint]
    exact ⟨rfl, rfl⟩
  | bits64 =>
    change i.natAbs < 10 ^ 18 at hi
    have hint : (Int64.ofInt i).toInt = i := Int64.toInt_ofInt_of_le (by omega) (by omega)
    rw [Width.value, number, fromSql, hint]
    exact ⟨rfl, rfl⟩
  | bits128 =>
    change i.natAbs < 10 ^ 38 at hi
    have hint : (BitVec.ofInt 128 i).toInt = i := toInt_ofInt (by constructor <;> omega)
    rw [Width.value, number, fromSql, hint]
    exact ⟨rfl, rfl⟩

/-- What the conversion makes is written as the bare integer and read back with the scale of the
column. -/
theorem keepsValue_width :
    KeepsValue lib (w.type s) d ↔ (0 < s → s ≤ w.limit → lib.scale d ≤ s →
      (lib.mantissa d).natAbs < 10 ^ w.limit →
        (lib.scale d = s ∨ lib.mantissa d = 0 ∧ s ≤ 28) ∧
          (lib.mantissa d).natAbs < 10 ^ w.digits) := by
  have hmantissa : (lib.mantissa d).natAbs < 2 ^ 127 :=
    (lib.natAbs_mantissa_lt d).trans (by decide)
  have hscaled := lib.scale_le d
  have hlimit : w.limit ≤ 76 := by cases w <;> decide
  have hgives (hs : s ≤ w.limit) := fromDecimalValue_gives_iff lib w.name
    (show 0 < w.digits by cases w <;> decide) (show w.digits ≤ 28 by cases w <;> decide) (w.type s)
    (hs.trans hlimit) hmantissa (lib.value d)
  have hsame := value_eq_iff (lib.mantissa d) s (lib.scale d)
  have hvalue : lib.value d = (lib.mantissa d : ℚ) / 10 ^ lib.scale d := rfl
  constructor
  · intro h hpos hle hscale hfew
    obtain ⟨bytes, hwrite, hread⟩ := stored_width w (lib.mantissa d) hpos hle
    have hmade := (toSql_width lib w _).mpr ⟨hfew, show lib.scale d ≤ s % 2 ^ 32 by omega, rfl⟩
    obtain ⟨bytes', stored, hwrite', hread', hdenotes⟩ :=
      h _ hmade ((validateValue_width w _ _).mpr ⟨⟨hpos, hle⟩, hscale⟩)
    rw [serializeColumn_width, hwrite] at hwrite'
    obtain rfl := Except.ok.inj hwrite'
    have hboth := hread.run.symm.trans hread'.run
    simp only [Except.ok.injEq, Prod.mk.injEq, List.cons.injEq, and_true] at hboth
    subst hboth
    have hback' := hdenotes.back
    rw [(value_width lib w hfew).2, hgives hle, hvalue, hsame] at hback'
    omega
  · intro h v hv hok
    obtain ⟨hfew, -, rfl⟩ := (toSql_width lib w v).mp hv
    obtain ⟨⟨hpos, hle⟩, hscale⟩ := (validateValue_width w _ _).mp hok
    obtain ⟨bytes, hwrite, hread⟩ := stored_width w (lib.mantissa d) hpos hle
    obtain ⟨hright, hcount⟩ := h hpos hle hscale hfew
    have hnumbers : (lib.mantissa d : ℚ) / 10 ^ s = lib.value d := by
      rw [hvalue, hsame]
      exact hright.imp id And.left
    refine ⟨bytes, w.value s (lib.mantissa d), (serializeColumn_width w _ _).trans hwrite, hread,
      ?_, ?_⟩
    · rw [(value_width lib w hfew).1, hnumbers]
    · rw [(value_width lib w hfew).2, hgives hle]
      exact ⟨hcount, by omega, hnumbers⟩

/-- Where all digits come back and the scales are small, the scale alone decides. -/
theorem keepsValue_small (hdigits : w.digits = w.limit) (hsmall : w.limit ≤ 28) :
    KeepsValue lib (w.type s) d ↔ (s ≤ w.limit → lib.scale d ≤ s →
      (lib.mantissa d).natAbs < 10 ^ w.limit → lib.scale d = s ∨ lib.mantissa d = 0) := by
  rw [keepsValue_width, hdigits]
  constructor
  · intro h hle hscale hlimit
    by_cases hpos : 0 < s
    · exact (h hpos hle hscale hlimit).1.imp id And.left
    · exact .inl (by omega)
  · intro h hpos hle hscale hlimit
    exact ⟨(h hle hscale hlimit).imp id fun hzero => ⟨hzero, by omega⟩, hlimit⟩

/-- **A decimal keeps its value in a column exactly when its scale is that of the column.** -/
theorem keepsValue_iff (t : ChType) (d : D) : KeepsValue lib t d ↔ KeepsScale lib t d := by
  cases t with
  | decimal32 s => exact keepsValue_small lib .bits32 rfl (by decide)
  | decimal64 s => exact keepsValue_small lib .bits64 rfl (by decide)
  | decimal128 s =>
    have hlimit : (lib.mantissa d).natAbs < 10 ^ Width.bits128.limit :=
      (lib.natAbs_mantissa_lt d).trans (by decide)
    have hwidth : KeepsValue lib (.decimal128 s) d ↔ _ := keepsValue_width lib .bits128
    rw [hwidth, KeepsScale]
    constructor
    · exact fun h hpos hle hscale => h hpos hle hscale hlimit
    · exact fun h hpos hle hscale _ => h hpos hle hscale
  | _ =>
    -- The conversion knows no other type.
    constructor
    · exact fun _ => trivial
    · intro _ v hv
      exact absurd hv (by simp [toSql, Outcome.fail])

end Columns

/-- 1.5 is stored as 0.15 in a column with two digits behind the point. -/
theorem not_keepsValue_sample : ¬ KeepsValue pairs (.decimal32 2) ⟨(15, 1), by decide⟩ := by
  intro h
  obtain ⟨bytes, stored, hwrite, hread, hdenotes⟩ := h (.decimal32 1 15)
    ((toSql_width pairs .bits32 _).mpr ⟨by decide, by decide, rfl⟩) rfl
  have hbytes : bytes = [15, 0, 0, 0] := (Except.ok.inj hwrite).symm
  subst hbytes
  have hstored : ChType.readPrefixedColumn (.decimal32 2) 1 [15, 0, 0, 0] =
      .ok ([.decimal32 2 15], []) := rfl
  have hboth := hstored.symm.trans hread.run
  simp only [Except.ok.injEq, Prod.mk.injEq, List.cons.injEq, and_true] at hboth
  subst hboth
  have hnumber := hdenotes.number_eq
  have hfifteen : (15 : Int32).toInt = 15 := rfl
  rw [number, hfifteen, DecimalLibrary.value, Option.some.injEq] at hnumber
  norm_num [pairs] at hnumber

end Decimal

end ClickhouseArrow
