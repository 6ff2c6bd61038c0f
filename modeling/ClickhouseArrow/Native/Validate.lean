import ClickhouseArrow.Native.Types

/-!
# Which types and values are accepted

`Type::validate`, `Type::validate_value` and `Type::inner_validate_value`, with what an
accepted type or value says about its parts.
-/

namespace ClickhouseArrow

open Wire

namespace ChType

/-- The types that `LowCardinality` may hold, a `Nullable` around them aside. -/
def isLowCardinalityInner : ChType → Bool
  | .string | .fixedSizedString _ | .binary | .fixedSizedBinary _ => true
  | .date | .date32 | .dateTime _ | .ipv4 | .ipv6 => true
  | .int8 | .int16 | .int32 | .int64 | .int128 | .int256 => true
  | .uint8 | .uint16 | .uint32 | .uint64 | .uint128 | .uint256 => true
  | _ => false

/-- The types of a map key. -/
def isMapKey : ChType → Bool
  | .string | .fixedSizedString _ => true
  | .int8 | .int16 | .int32 | .int64 | .int128 | .int256 => true
  | .uint8 | .uint16 | .uint32 | .uint64 | .uint128 | .uint256 => true
  | .lowCardinality _ | .uuid | .date | .dateTime _ | .dateTime64 _ _ => true
  | .enum8 _ | .enum16 _ => true
  | _ => false

/-- The bounds check of a scale or a precision. -/
def checkScale (scale max : Nat) (msg : List Fragment) : Result Unit :=
  if scale = 0 ∨ max < scale then .fail (.typeParseError msg) else .ok ()

/-- `Type::validate`. -/
def validate : ChType → Result Unit
  | .decimal32 scale =>
      checkScale scale 9 [.text "scale out of bounds for Decimal32(", .number scale,
        .text ") must be in range (1..=9)"]
  | .decimal128 scale =>
      checkScale scale 38 [.text "scale out of bounds for Decimal128(", .number scale,
        .text ") must be in range (1..=38)"]
  | .decimal256 scale =>
      checkScale scale 76 [.text "scale out of bounds for Decimal256(", .number scale,
        .text ") must be in range (1..=76)"]
  | .dateTime64 precision _ =>
      checkScale precision 18 [.text "precision out of bounds for Decimal64/DateTime64(",
        .number precision, .text ") must be in range (1..=18)"]
  | .decimal64 precision =>
      checkScale precision 18 [.text "precision out of bounds for Decimal64/DateTime64(",
        .number precision, .text ") must be in range (1..=18)"]
  | .lowCardinality inner =>
      if inner.stripNull.isLowCardinalityInner then inner.validate
      else .fail (.typeParseError
        [.text "illegal type '", .type inner, .text "' in LowCardinality, not allowed"])
  | .array inner => inner.validate
  | .tuple items => validateAll items
  | .nullable inner =>
      if inner.isComposite then .fail (.typeParseError
        [.text "nullable cannot contain composite type '", .type inner, .text "'"])
      else inner.validate
  | .map key value =>
      if key.isMapKey then do
        key.validate
        value.validate
      else .fail (.typeParseError
        [.text "key in map must be String, Integer, LowCardinality, FixedString, UUID, Date, ",
          .text "DateTime, Date32, Enum"])
  | _ => .ok ()
where
  validateAll : List ChType → Result Unit
    | [] => .ok ()
    | t :: ts => do
        t.validate
        validateAll ts

/-- The arms of `inner_validate_value` that look at one value without its parts. -/
def accepts : ChType → Value → Bool
  | .int8, .int8 _ | .int16, .int16 _ | .int32, .int32 _ | .int64, .int64 _ => true
  | .int128, .int128 _ | .int256, .int256 _ => true
  | .uint8, .uint8 _ | .uint16, .uint16 _ | .uint32, .uint32 _ | .uint64, .uint64 _ => true
  | .uint128, .uint128 _ | .uint256, .uint256 _ => true
  | .float32, .float32 _ | .float64, .float64 _ => true
  | .string, .string _ | .fixedSizedString _, .string _ => true
  | .uuid, .uuid _ | .date, .date _ | .date32, .date32 _ => true
  | .ipv4, .ipv4 _ | .ipv6, .ipv6 _ => true
  | .point, .point _ | .ring, .ring _ | .polygon, .polygon _ => true
  | .multiPolygon, .multiPolygon _ => true
  | .dateTime tz1, .dateTime tz2 _ => tz1 == tz2
  | .dateTime64 precision1 tz1, .dateTime64 tz2 _ precision2 =>
      tz1 == tz2 && precision1 == precision2
  | .decimal32 scale1, .decimal32 scale2 _ | .decimal64 scale1, .decimal64 scale2 _
  | .decimal128 scale1, .decimal128 scale2 _ | .decimal256 scale1, .decimal256 scale2 _ =>
      scale2 ≤ scale1
  -- An array of bytes stands for a string.
  | .fixedSizedString _, .array items | .string, .array items =>
      items.all fun item =>
        match item with
        | .uint8 _ | .int8 _ => true
        | _ => false
  | .enum8 entries, .enum8 _ index => entries.any fun x => x.2 == index
  | .enum16 entries, .enum16 _ index => entries.any fun x => x.2 == index
  | _, _ => false

/-- `Type::inner_validate_value`. -/
def innerValidateValue : ChType → Value → Bool
  | .lowCardinality x, value => x.innerValidateValue value
  | .array inner, value =>
      match value with
      | .array values => values.all inner.innerValidateValue
      | _ => false
  | .tuple items, value =>
      match value with
      | .tuple values => items.length == values.length && validateZip items values
      | _ => false
  | .nullable inner, value => value.isNull || inner.innerValidateValue value
  | .map key value, v =>
      match v with
      | .map keys values =>
          keys.length == values.length && keys.all key.innerValidateValue
            && values.all value.innerValidateValue
      | _ => false
  | leaf, value => leaf.accepts value
where
  validateZip : List ChType → List Value → Bool
    | t :: ts, v :: vs => t.innerValidateValue v && validateZip ts vs
    | _, _ => true

/-- `Type::validate_value`. -/
def validateValue (t : ChType) (value : Value) : Result Unit := do
  t.validate
  if t.innerValidateValue value then .ok ()
  else .fail (.typeParseError
    [.text "could not assign value '", .value value, .text "' to type '", .type t, .text "'"])

theorem validateValue_eq_ok {t : ChType} {value : Value} :
    t.validateValue value = .ok () ↔ t.validate = .ok () ∧ t.innerValidateValue value = true := by
  rw [validateValue, Outcome.bind_eq_ok]
  constructor
  · rintro ⟨⟨⟩, hvalid, hvalue⟩
    refine ⟨hvalid, ?_⟩
    by_contra hno
    simp [hno, Outcome.fail] at hvalue
  · rintro ⟨hvalid, hvalue⟩
    exact ⟨(), hvalid, by simp [hvalue]⟩

/-! ## The parts of an accepted type -/

-- The equations of the two checks are made here, once, and not in each proof below.
attribute [local simp] validate innerValidateValue

theorem validate_nullable {inner : ChType} (h : (nullable inner).validate = .ok ()) :
    inner.isComposite = false ∧ inner.validate = .ok () := by
  rw [validate] at h
  split at h
  · simp [Outcome.fail] at h
  · next hflat => exact ⟨by simpa using hflat, h⟩

theorem validate_lowCardinality {inner : ChType} (h : (lowCardinality inner).validate = .ok ()) :
    inner.stripNull.isLowCardinalityInner = true ∧ inner.validate = .ok () := by
  rw [validate] at h
  split at h
  · next hinner => exact ⟨hinner, h⟩
  · simp [Outcome.fail] at h

theorem validate_array {inner : ChType} (h : (array inner).validate = .ok ()) :
    inner.validate = .ok () := by
  simpa [validate] using h

theorem validate_map {key value : ChType} (h : (map key value).validate = .ok ()) :
    key.validate = .ok () ∧ value.validate = .ok () := by
  rw [validate] at h
  split at h
  · obtain ⟨u, hkey, hvalue⟩ := Outcome.bind_eq_ok.mp h
    exact ⟨hkey, hvalue⟩
  · simp [Outcome.fail] at h

theorem validateAll_eq_ok {items : List ChType} :
    validate.validateAll items = .ok () ↔ ∀ t ∈ items, t.validate = .ok () := by
  induction items with
  | nil => simp [validate.validateAll]
  | cons t ts ih =>
      rw [validate.validateAll, Outcome.bind_eq_ok, List.forall_mem_cons, ← ih]
      constructor
      · rintro ⟨⟨⟩, hhead, htail⟩
        exact ⟨hhead, htail⟩
      · rintro ⟨hhead, htail⟩
        exact ⟨(), hhead, htail⟩

theorem validate_tuple {items : List ChType} (h : (tuple items).validate = .ok ()) :
    ∀ t ∈ items, t.validate = .ok () :=
  validateAll_eq_ok.mp (by simpa [validate] using h)

/-! ## The parts of an accepted value -/

theorem innerValidateValue_array {inner : ChType} {v : Value}
    (h : (array inner).innerValidateValue v = true) :
    ∃ items, v = .array items ∧ ∀ x ∈ items, inner.innerValidateValue x = true := by
  cases v <;> simp [innerValidateValue] at h
  exact ⟨_, rfl, h⟩

theorem innerValidateValue_map {key value : ChType} {v : Value}
    (h : (map key value).innerValidateValue v = true) :
    ∃ keys values, v = .map keys values ∧ keys.length = values.length ∧
      (∀ x ∈ keys, key.innerValidateValue x = true) ∧
      ∀ x ∈ values, value.innerValidateValue x = true := by
  cases v <;> simp [innerValidateValue] at h
  exact ⟨_, _, rfl, h.1.1, h.1.2, h.2⟩

theorem innerValidateValue_tuple {items : List ChType} {v : Value}
    (h : (tuple items).innerValidateValue v = true) :
    ∃ values, v = .tuple values ∧ items.length = values.length ∧
      innerValidateValue.validateZip items values = true := by
  cases v <;> simp [innerValidateValue] at h
  exact ⟨_, rfl, h.1, h.2⟩

theorem innerValidateValue_nullable {inner : ChType} {v : Value}
    (h : (nullable inner).innerValidateValue v = true) :
    v = .null ∨ inner.innerValidateValue v = true := by
  simpa [innerValidateValue, Value.isNull_iff] using h

end ChType

end ClickhouseArrow
