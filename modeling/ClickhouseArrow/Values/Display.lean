import ClickhouseArrow.Native.TypeNames
import ClickhouseArrow.Values.Decimals

/-!
# Decimals as texts

The decimals of `Display for Value`, in `native/values.rs`: the point is placed in the text of the
integer, so many characters before its end, where the text has that many.  An integer of 256 bits
has the text of `Display for i256`, which is hexadecimal.

What the texts are measured against is a decimal literal: a sign or none, digits, and a point or
none anywhere among them.
-/

namespace ClickhouseArrow

open Wire

/-! ## Texts -/

/-- One octet as two digits. -/
def upperHex (b : UInt8) : List Char :=
  [(Nat.digitChar (b.toNat / 16)).toUpper, (Nat.digitChar (b.toNat % 16)).toUpper]

/-- `Display for i256`. -/
def displayI256 (x : Octets 32) : List Char := '0' :: 'x' :: x.bytes.flatMap upperHex

/-- The text of an integer with the point of a scale. -/
def placePoint (scale : Nat) (rawValue : List Char) : List Char :=
  if rawValue.length < scale then rawValue
  else rawValue.take (rawValue.length - scale) ++ '.' :: rawValue.drop (rawValue.length - scale)

/-- `Display for Value`, of a decimal. -/
def Value.displayDecimal : Value → Option (List Char)
  | .decimal32 scale value => some (placePoint scale (displayInt value.toInt))
  | .decimal64 scale value => some (placePoint scale (displayInt value.toInt))
  | .decimal128 scale value => some (placePoint scale (displayInt value.toInt))
  | .decimal256 scale value => some (placePoint scale (displayI256 value))
  | _ => none

/-! ## Literals -/

/-- What a decimal literal without a sign denotes. -/
def unsignedValue (body : List Char) : Option ℚ :=
  let whole := body.takeWhile (· ≠ '.')
  let fraction := (body.dropWhile (· ≠ '.')).drop 1
  if whole ++ fraction ≠ [] ∧ (whole ++ fraction).all Char.isDigit then
    some (Nat.ofDigitChars 10 (whole ++ fraction) 0 / 10 ^ fraction.length)
  else none

/-- What a decimal literal denotes. -/
def literalValue : List Char → Option ℚ
  | '-' :: body => (unsignedValue body).map fun q => -q
  | body => unsignedValue body

section Literals

variable {digits whole fraction : List Char}

theorem ne_point_of_isDigit (h : ∀ c ∈ digits, c.isDigit = true) :
    ∀ c ∈ digits, decide (c ≠ '.') = true := by
  intro c hc
  have hdigit := h c hc
  rw [decide_eq_true_eq]
  rintro rfl
  exact absurd hdigit (by decide)

theorem unsignedValue_digits (hne : digits ≠ []) (h : ∀ c ∈ digits, c.isDigit = true) :
    unsignedValue digits = some (Nat.ofDigitChars 10 digits 0 : ℚ) := by
  have hpoint := ne_point_of_isDigit h
  have hwhole : digits.takeWhile (fun c => decide (c ≠ '.')) = digits :=
    List.takeWhile_eq_self_iff.mpr hpoint
  have hrest : digits.dropWhile (fun c => decide (c ≠ '.')) = [] := List.dropWhile_eq_nil_iff.mpr hpoint
  simp only [unsignedValue, hwhole, hrest, List.drop_nil, List.append_nil, List.length_nil, pow_zero,
    div_one]
  exact if_pos ⟨hne, List.all_eq_true.mpr h⟩

theorem unsignedValue_point (hne : whole ++ fraction ≠ [])
    (h : ∀ c ∈ whole ++ fraction, c.isDigit = true) :
    unsignedValue (whole ++ '.' :: fraction) =
      some ((Nat.ofDigitChars 10 (whole ++ fraction) 0 : ℚ) / 10 ^ fraction.length) := by
  have hpoint := ne_point_of_isDigit fun c hc => h c (List.mem_append_left fraction hc)
  have hwhole : (whole ++ '.' :: fraction).takeWhile (fun c => decide (c ≠ '.')) = whole := by
    rw [List.takeWhile_append_of_pos hpoint, List.takeWhile_cons_of_neg (by simp), List.append_nil]
  have hrest : (whole ++ '.' :: fraction).dropWhile (fun c => decide (c ≠ '.')) = '.' :: fraction := by
    rw [List.dropWhile_append_of_pos hpoint, List.dropWhile_cons_of_neg (by simp)]
  simp only [unsignedValue, hwhole, hrest, List.drop_succ_cons, List.drop_zero]
  exact if_pos ⟨hne, List.all_eq_true.mpr h⟩

/-- Only digits stand beside the point. -/
theorem unsignedValue_eq_none {body : List Char} {c : Char} (hmem : c ∈ body) (hpoint : c ≠ '.')
    (hdigit : c.isDigit = false) : unsignedValue body = none := by
  apply if_neg
  rintro ⟨-, hall⟩
  have hsplit := @List.takeWhile_append_dropWhile _ (fun c => decide (c ≠ '.')) body
  rw [← hsplit, List.mem_append] at hmem
  rcases hmem with hwhole | hrest
  · have hc := List.all_eq_true.mp hall c (List.mem_append_left _ hwhole)
    rw [hdigit] at hc
    cases hc
  · cases hdrop : body.dropWhile (fun c => decide (c ≠ '.')) with
    | nil =>
      rw [hdrop] at hrest
      cases hrest
    | cons first rest =>
      rw [hdrop] at hrest hall
      rcases List.mem_cons.mp hrest with rfl | htail
      · -- What the whole part ends before is the point.
        have hne : body.dropWhile (fun c => decide (c ≠ '.')) ≠ [] := by
          rw [hdrop]
          exact List.cons_ne_nil _ _
        have hfirst := List.head_dropWhile_not (fun c => decide (c ≠ '.')) hne
        simp only [hdrop, List.head_cons] at hfirst
        exact absurd hfirst (by simpa using hpoint)
      · have hc := List.all_eq_true.mp hall c (List.mem_append_right _ htail)
        rw [hdigit] at hc
        cases hc

end Literals

theorem literalValue_of_ne {c : Char} (hc : c ≠ '-') (cs : List Char) :
    literalValue (c :: cs) = unsignedValue (c :: cs) := by
  unfold literalValue
  split
  · next h => exact absurd (List.cons.inj h).1 hc
  · rfl

/-! ## The point of a number -/

/-- So many digits are at hand, or the number is zero. -/
def HasDigits (scale : Nat) (v : Int) : Prop := v = 0 ∨ 10 ^ (scale - 1) ≤ v.natAbs

theorem le_length_iff {scale n : Nat} (hscale : 0 < scale) :
    scale ≤ (displayNat n).length ↔ n = 0 ∧ scale = 1 ∨ 10 ^ (scale - 1) ≤ n := by
  have hpos : 0 < (displayNat n).length := Nat.length_toDigits_pos
  by_cases hone : scale = 1
  · subst hone
    rw [Nat.sub_self, pow_zero]
    omega
  · have hlength : (displayNat n).length ≤ scale - 1 ↔ n < 10 ^ (scale - 1) :=
      Nat.length_toDigits_le_iff (by decide) (by omega)
    omega

theorem digits_ne_nil (n : Nat) : displayNat n ≠ [] := Nat.toDigits_ne_nil

theorem ofDigitChars_displayNat (n : Nat) : Nat.ofDigitChars 10 (displayNat n) 0 = n :=
  Nat.ofDigitChars_ten_toDigits

theorem isDigit_displayNat {n : Nat} : ∀ c ∈ displayNat n, c.isDigit = true :=
  fun _ hc => Nat.isDigit_of_mem_toDigits (by decide) (by decide) hc

/-- The point stands among the digits where there are enough. -/
theorem unsignedValue_placePoint {scale n : Nat} (h : scale ≤ (displayNat n).length) :
    unsignedValue (placePoint scale (displayNat n)) = some ((n : ℚ) / 10 ^ scale) := by
  have hsplit := List.take_append_drop ((displayNat n).length - scale) (displayNat n)
  have hfraction : ((displayNat n).drop ((displayNat n).length - scale)).length = scale := by
    rw [List.length_drop]
    omega
  rw [placePoint, if_neg (Nat.not_lt.mpr h), unsignedValue_point, hsplit, hfraction,
    ofDigitChars_displayNat]
  · rw [hsplit]
    exact Nat.toDigits_ne_nil
  · rw [hsplit]
    exact isDigit_displayNat

theorem unsignedValue_displayNat (n : Nat) : unsignedValue (displayNat n) = some (n : ℚ) := by
  rw [unsignedValue_digits (digits_ne_nil n) isDigit_displayNat, ofDigitChars_displayNat]

/-- The text does not begin with a sign. -/
theorem literalValue_placePoint (scale n : Nat) :
    literalValue (placePoint scale (displayNat n)) = unsignedValue (placePoint scale (displayNat n)) := by
  cases htext : placePoint scale (displayNat n) with
  | nil => rfl
  | cons c cs =>
    apply literalValue_of_ne
    rintro rfl
    have hmem : '-' ∈ placePoint scale (displayNat n) := htext ▸ List.mem_cons_self
    have hdigit : '-' ∈ displayNat n := by
      rw [placePoint] at hmem
      split_ifs at hmem
      · exact hmem
      · rcases List.mem_append.mp hmem with htake | hdrop
        · exact List.mem_of_mem_take htake
        · exact List.mem_of_mem_drop ((List.mem_cons.mp hdrop).resolve_left (by decide))
    exact absurd (isDigit_displayNat _ hdigit) (by decide)

/-- A number is its own part of a power of ten only if it is zero. -/
theorem eq_scaled_iff {scale : Nat} (hscale : 0 < scale) (v : Int) :
    (v : ℚ) = (v : ℚ) / 10 ^ scale ↔ v = 0 := by
  have hvalue := Decimal.value_eq_iff v 0 scale
  rw [pow_zero, div_one] at hvalue
  rw [hvalue]
  constructor
  · rintro (rfl | hzero)
    · exact absurd hscale (by decide)
    · exact hzero
  · exact .inr

/-- The text of a number from zero on. -/
theorem literalValue_nat_iff (scale n : Nat) :
    literalValue (placePoint scale (displayNat n)) = some ((n : ℚ) / 10 ^ scale) ↔
      HasDigits scale n := by
  rw [literalValue_placePoint, HasDigits, Int.natCast_eq_zero, Int.natAbs_natCast]
  by_cases h : scale ≤ (displayNat n).length
  · rw [unsignedValue_placePoint h]
    refine ⟨fun _ => ?_, fun _ => rfl⟩
    by_cases hscale : 0 < scale
    · exact ((le_length_iff hscale).mp h).imp And.left id
    · obtain rfl : scale = 0 := by omega
      rw [Nat.zero_sub, pow_zero]
      omega
  · have hpos : 0 < (displayNat n).length := Nat.length_toDigits_pos
    have hscale : 0 < scale := by omega
    have hfew := (le_length_iff hscale).not.mp h
    have hzero := eq_scaled_iff hscale (n : Int)
    rw [Int.cast_natCast, Int.natCast_eq_zero] at hzero
    rw [placePoint, if_pos (by omega), unsignedValue_displayNat, Option.some.injEq, hzero]
    omega

theorem placePoint_neg {scale n : Nat} (h : scale ≤ (displayNat n).length) :
    placePoint scale ('-' :: displayNat n) = '-' :: placePoint scale (displayNat n) := by
  have hlength : (displayNat n).length + 1 - scale = ((displayNat n).length - scale) + 1 := by omega
  rw [placePoint, placePoint, List.length_cons, if_neg (by omega), if_neg (by omega), hlength,
    List.take_succ_cons, List.drop_succ_cons, List.cons_append]

/-- A point before the sign. -/
theorem literalValue_point_sign (n : Nat) : literalValue ('.' :: '-' :: displayNat n) = none := by
  rw [literalValue_of_ne (by decide)]
  exact unsignedValue_eq_none (List.mem_cons_of_mem _ List.mem_cons_self) (by decide) (by decide)

/-- The text of a number below zero: the sign takes the place of a digit. -/
theorem literalValue_neg_iff {n : Nat} (hn : 0 < n) (scale : Nat) :
    literalValue (placePoint scale ('-' :: displayNat n)) = some (-(n : ℚ) / 10 ^ scale) ↔
      10 ^ (scale - 1) ≤ n := by
  by_cases h : scale ≤ (displayNat n).length
  · rw [placePoint_neg h, literalValue, unsignedValue_placePoint h, Option.map_some, neg_div]
    refine ⟨fun _ => ?_, fun _ => rfl⟩
    by_cases hscale : 0 < scale
    · have hmany := (le_length_iff hscale).mp h
      omega
    · obtain rfl : scale = 0 := by omega
      rw [Nat.zero_sub, pow_zero]
      exact hn
  · have hscale : 0 < scale := by omega
    have hfew := (le_length_iff hscale).not.mp h
    refine ⟨fun hvalue => ?_, fun hmany => absurd (.inr hmany) hfew⟩
    by_cases hsign : scale = (displayNat n).length + 1
    · have htext : placePoint scale ('-' :: displayNat n) = '.' :: '-' :: displayNat n := by
        rw [placePoint, List.length_cons, hsign, if_neg (by omega), Nat.sub_self, List.take_zero,
          List.drop_zero, List.nil_append]
      rw [htext, literalValue_point_sign] at hvalue
      cases hvalue
    · have hzero := eq_scaled_iff hscale (-(n : Int))
      rw [Int.cast_neg, Int.cast_natCast] at hzero
      rw [placePoint, List.length_cons, if_pos (by omega), literalValue, unsignedValue_displayNat,
        Option.map_some, Option.some.injEq, hzero] at hvalue
      omega

/-- **The text of an integer with its point denotes the decimal where there are digits enough.** -/
theorem literalValue_int_iff (scale : Nat) (v : Int) :
    literalValue (placePoint scale (displayInt v)) = some ((v : ℚ) / 10 ^ scale) ↔
      HasDigits scale v := by
  cases v with
  | ofNat n => exact literalValue_nat_iff scale n
  | negSucc n =>
    have hneg := literalValue_neg_iff (Nat.succ_pos n) scale
    rw [displayInt, HasDigits, Int.cast_negSucc, Int.natAbs_negSucc]
    rw [hneg]
    constructor
    · exact .inr
    · rintro (hzero | hmany)
      · cases hzero
      · exact hmany

theorem mem_placePoint {scale : Nat} {rawValue : List Char} {c : Char} (h : c ∈ rawValue) :
    c ∈ placePoint scale rawValue := by
  rw [placePoint]
  split_ifs
  · exact h
  · rw [← List.take_append_drop (rawValue.length - scale) rawValue, List.mem_append] at h
    exact List.mem_append.mpr (h.imp id (List.mem_cons_of_mem _))

/-- A text in hexadecimal is no decimal literal. -/
theorem literalValue_i256 (scale : Nat) (x : Octets 32) :
    literalValue (placePoint scale (displayI256 x)) = none := by
  have hmem : 'x' ∈ placePoint scale (displayI256 x) :=
    mem_placePoint (List.mem_cons_of_mem _ List.mem_cons_self)
  unfold literalValue
  split
  · next body htext =>
    rw [htext] at hmem
    have hbody : 'x' ∈ body := (List.mem_cons.mp hmem).resolve_left (by decide)
    rw [unsignedValue_eq_none hbody (by decide) (by decide), Option.map_none]
  · exact unsignedValue_eq_none hmem (by decide) (by decide)

/-! ## Decimals -/

/-- The text of a decimal is a literal of its number. -/
def DisplaysNumber (v : Value) : Prop :=
  ∃ text, v.displayDecimal = some text ∧ ∃ q, Decimal.number v = some q ∧ literalValue text = some q

/-- Decimals of up to 128 bits that are zero or have as many digits as stand behind the point. -/
def PointAmongDigits : Value → Prop
  | .decimal32 scale x => HasDigits scale x.toInt
  | .decimal64 scale x => HasDigits scale x.toInt
  | .decimal128 scale x => HasDigits scale x.toInt
  | _ => False

theorem displaysNumber_of_some {v : Value} {text : List Char} {q : ℚ}
    (htext : v.displayDecimal = some text) (hnumber : Decimal.number v = some q) :
    DisplaysNumber v ↔ literalValue text = some q := by
  simp [DisplaysNumber, htext, hnumber]

/-- **The text of a decimal denotes it exactly where the point stands among its digits.** -/
theorem displaysNumber_iff (v : Value) : DisplaysNumber v ↔ PointAmongDigits v := by
  cases v with
  | decimal32 scale x => exact (displaysNumber_of_some rfl rfl).trans (literalValue_int_iff scale _)
  | decimal64 scale x => exact (displaysNumber_of_some rfl rfl).trans (literalValue_int_iff scale _)
  | decimal128 scale x => exact (displaysNumber_of_some rfl rfl).trans (literalValue_int_iff scale _)
  | decimal256 scale x =>
    rw [displaysNumber_of_some rfl rfl, literalValue_i256]
    exact ⟨fun h => (by cases h), fun h => h.elim⟩
  | _ =>
    constructor
    · rintro ⟨text, htext, -⟩
      cases htext
    · exact fun h => h.elim

/-- 0.05 is printed as 5, -0.05 with the point before the sign, and 1 in hexadecimal. -/
theorem not_displaysNumber_samples :
    ¬ DisplaysNumber (.decimal32 2 5) ∧ ¬ DisplaysNumber (.decimal64 2 (-5)) ∧
      ¬ DisplaysNumber (.decimal256 1 (Int256.ofI128 10)) := by
  refine ⟨fun h => ?_, fun h => ?_, fun h => ?_⟩
  · have hvalue := (displaysNumber_of_some (v := .decimal32 2 5) rfl rfl).mp h
    have htext : placePoint 2 (displayInt (5 : Int32).toInt) = displayNat 5 := rfl
    have hfive : (5 : Int32).toInt = 5 := rfl
    have hplain : literalValue (displayNat 5) = unsignedValue (displayNat 5) := rfl
    rw [htext, hplain, unsignedValue_displayNat, hfive, Option.some.injEq] at hvalue
    norm_num at hvalue
  · have hvalue := (displaysNumber_of_some (v := .decimal64 2 (-5)) rfl rfl).mp h
    have htext : placePoint 2 (displayInt (-5 : Int64).toInt) = '.' :: '-' :: displayNat 5 := rfl
    rw [htext, literalValue_point_sign] at hvalue
    cases hvalue
  · have hvalue := (displaysNumber_of_some (v := .decimal256 1 (Int256.ofI128 10)) rfl rfl).mp h
    rw [literalValue_i256] at hvalue
    cases hvalue

end ClickhouseArrow
