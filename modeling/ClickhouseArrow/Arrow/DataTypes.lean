import ClickhouseArrow.Native.Types

/-!
# Arrow data types

The part of `arrow-schema` that the codec rests on: `DataType` and `Field`, with the
equality under which a record batch compares the type of an array with that of its field,
the options of the client and the errors of the Arrow side.

Types that differ only in the width of their offsets or in their unit are one constructor
with a parameter.  The metadata of a field is left out: no field of the client carries any.
-/

namespace ClickhouseArrow

open Wire

namespace Arrow

/-! ## Types of fixed-width values -/

/-- `TimeUnit`. -/
inductive TimeUnit
  | second
  | millisecond
  | microsecond
  | nanosecond
  deriving DecidableEq, Repr

/-- `IntervalUnit`. -/
inductive IntervalUnit
  | yearMonth
  | dayTime
  | monthDayNano
  deriving DecidableEq, Repr

/-- The data types whose arrays are a `PrimitiveArray`. -/
inductive PrimitiveType
  | int8 | int16 | int32 | int64
  | uint8 | uint16 | uint32 | uint64
  | float16 | float32 | float64
  | decimal32 (precision : Nat) (scale : Int8)
  | decimal64 (precision : Nat) (scale : Int8)
  | decimal128 (precision : Nat) (scale : Int8)
  | decimal256 (precision : Nat) (scale : Int8)
  | date32
  | date64
  | time32 (unit : TimeUnit)
  | time64 (unit : TimeUnit)
  | duration (unit : TimeUnit)
  | interval (unit : IntervalUnit)
  | timestamp (unit : TimeUnit) (tz : Option String)
  deriving DecidableEq

/-- `ArrowPrimitiveType::Native`.  A float is its bit pattern, an `i256` its 32
little-endian bytes. -/
def PrimitiveType.Native : PrimitiveType → Type
  | .int8 => Int8
  | .int16 => Int16
  | .int32 => Int32
  | .int64 => Int64
  | .uint8 => UInt8
  | .uint16 => UInt16
  | .uint32 => UInt32
  | .uint64 => UInt64
  | .float16 => UInt16
  | .float32 => UInt32
  | .float64 => UInt64
  | .decimal32 _ _ => Int32
  | .decimal64 _ _ => Int64
  | .decimal128 _ _ => BitVec 128
  | .decimal256 _ _ => Octets 32
  | .date32 => Int32
  | .date64 => Int64
  | .time32 _ => Int32
  | .time64 _ => Int64
  | .duration _ => Int64
  | .interval .yearMonth => Int32
  | .interval .dayTime => Octets 8
  | .interval .monthDayNano => Octets 16
  | .timestamp _ _ => Int64

/-- `Default` of the native type. -/
def PrimitiveType.zero : (t : PrimitiveType) → t.Native
  | .int8 => (0 : Int8)
  | .int16 => (0 : Int16)
  | .int32 => (0 : Int32)
  | .int64 => (0 : Int64)
  | .uint8 => (0 : UInt8)
  | .uint16 => (0 : UInt16)
  | .uint32 => (0 : UInt32)
  | .uint64 => (0 : UInt64)
  | .float16 => (0 : UInt16)
  | .float32 => (0 : UInt32)
  | .float64 => (0 : UInt64)
  | .decimal32 _ _ => (0 : Int32)
  | .decimal64 _ _ => (0 : Int64)
  | .decimal128 _ _ => (0 : BitVec 128)
  | .decimal256 _ _ => Octets.zero 32
  | .date32 => (0 : Int32)
  | .date64 => (0 : Int64)
  | .time32 _ => (0 : Int32)
  | .time64 _ => (0 : Int64)
  | .duration _ => (0 : Int64)
  | .interval .yearMonth => (0 : Int32)
  | .interval .dayTime => Octets.zero 8
  | .interval .monthDayNano => Octets.zero 16
  | .timestamp _ _ => (0 : Int64)

/-- The data types whose arrays hold byte strings of any length. -/
inductive BytesType
  | utf8 | largeUtf8 | utf8View
  | binary | largeBinary | binaryView
  deriving DecidableEq, Repr

/-- The values are UTF-8. -/
def BytesType.isUtf8 : BytesType → Bool
  | .utf8 | .largeUtf8 | .utf8View => true
  | .binary | .largeBinary | .binaryView => false

/-- `ArrowDictionaryKeyType`. -/
inductive KeyType
  | int8 | int16 | int32 | int64
  | uint8 | uint16 | uint32 | uint64
  deriving DecidableEq, Repr

/-- The data type of the keys. -/
def KeyType.primitive : KeyType → PrimitiveType
  | .int8 => .int8
  | .int16 => .int16
  | .int32 => .int32
  | .int64 => .int64
  | .uint8 => .uint8
  | .uint16 => .uint16
  | .uint32 => .uint32
  | .uint64 => .uint64

/-! ## Fields and data types -/

/-- A field over a kind of data type. -/
structure FieldOf (D : Type) where
  name : String
  dataType : D
  nullable : Bool

/-- `DataType`. -/
inductive DataType
  | null
  | boolean
  | primitive (t : PrimitiveType)
  | fixedSizeBinary (size : Int32)
  | bytes (t : BytesType)
  /-- `List`, and `LargeList` with 64-bit offsets. -/
  | list (large : Bool) (item : FieldOf DataType)
  /-- `ListView`, and `LargeListView` with 64-bit offsets. -/
  | listView (large : Bool) (item : FieldOf DataType)
  | fixedSizeList (item : FieldOf DataType) (size : Int32)
  | struct (fields : List (FieldOf DataType))
  | union (fields : List (FieldOf DataType))
  | dictionary (key value : DataType)
  | map (entries : FieldOf DataType) (sorted : Bool)
  | runEndEncoded (runEnds values : FieldOf DataType)

/-- `Field`. -/
abbrev Field := FieldOf DataType

mutual

/-- `PartialEq for DataType`. -/
def DataType.eq : DataType → DataType → Bool
  | .null, .null => true
  | .boolean, .boolean => true
  | .primitive l, .primitive r => l == r
  | .fixedSizeBinary l, .fixedSizeBinary r => l == r
  | .bytes l, .bytes r => l == r
  | .list a l, .list b r => a == b && fieldEq l r
  | .listView a l, .listView b r => a == b && fieldEq l r
  | .fixedSizeList l a, .fixedSizeList r b => fieldEq l r && a == b
  | .struct l, .struct r => fieldsEq l r
  | .union l, .union r => fieldsEq l r
  | .dictionary k v, .dictionary k' v' => k.eq k' && v.eq v'
  | .map l a, .map r b => fieldEq l r && a == b
  | .runEndEncoded l l', .runEndEncoded r r' => fieldEq l r && fieldEq l' r'
  | _, _ => false

/-- `PartialEq for Field`. -/
def fieldEq : Field → Field → Bool
  | ⟨name, d, nullable⟩, ⟨name', d', nullable'⟩ => name == name' && d.eq d' && nullable == nullable'

def fieldsEq : List Field → List Field → Bool
  | [], [] => true
  | f :: fs, g :: gs => fieldEq f g && fieldsEq fs gs
  | _, _ => false

end

mutual

theorem DataType.eq_self : ∀ d : DataType, d.eq d = true
  | .null | .boolean | .primitive _ | .fixedSizeBinary _ | .bytes _ => by simp [DataType.eq]
  | .list _ f | .listView _ f | .fixedSizeList f _ | .map f _ => by
      simp [DataType.eq, fieldEq_self f]
  | .struct fs | .union fs => by simp [DataType.eq, fieldsEq_self fs]
  | .dictionary k v => by simp [DataType.eq, DataType.eq_self k, DataType.eq_self v]
  | .runEndEncoded f g => by simp [DataType.eq, fieldEq_self f, fieldEq_self g]

theorem fieldEq_self : ∀ f : Field, fieldEq f f = true
  | ⟨_, d, _⟩ => by simp [fieldEq, DataType.eq_self d]

theorem fieldsEq_self : ∀ fs : List Field, fieldsEq fs fs = true
  | [] => rfl
  | f :: fs => by simp [fieldsEq, fieldEq_self f, fieldsEq_self fs]

end

mutual

theorem DataType.eq_of_eq : ∀ {l r : DataType}, l.eq r = true → l = r
  | .null, r, h | .boolean, r, h | .primitive _, r, h | .fixedSizeBinary _, r, h
  | .bytes _, r, h => by cases r <;> simp_all [DataType.eq]
  | .list _ f, r, h | .listView _ f, r, h => by
      cases r <;> simp only [DataType.eq, Bool.and_eq_true, reduceCtorEq, beq_iff_eq] at h
      rw [h.1, fieldEq_of_eq h.2]
  | .fixedSizeList f _, r, h | .map f _, r, h => by
      cases r <;> simp only [DataType.eq, Bool.and_eq_true, reduceCtorEq, beq_iff_eq] at h
      rw [fieldEq_of_eq h.1, h.2]
  | .struct fs, r, h | .union fs, r, h => by
      cases r <;> simp only [DataType.eq, reduceCtorEq] at h
      rw [fieldsEq_of_eq h]
  | .dictionary k v, r, h => by
      cases r <;> simp only [DataType.eq, Bool.and_eq_true, reduceCtorEq] at h
      rw [DataType.eq_of_eq h.1, DataType.eq_of_eq h.2]
  | .runEndEncoded f g, r, h => by
      cases r <;> simp only [DataType.eq, Bool.and_eq_true, reduceCtorEq] at h
      rw [fieldEq_of_eq h.1, fieldEq_of_eq h.2]

theorem fieldEq_of_eq : ∀ {l r : Field}, fieldEq l r = true → l = r
  | ⟨_, d, _⟩, ⟨_, d', _⟩, h => by
      simp only [fieldEq, Bool.and_eq_true, beq_iff_eq] at h
      rw [h.1.1, DataType.eq_of_eq h.1.2, h.2]

theorem fieldsEq_of_eq : ∀ {ls rs : List Field}, fieldsEq ls rs = true → ls = rs
  | [], [], _ => rfl
  | f :: fs, g :: gs, h => by
      simp only [fieldsEq, Bool.and_eq_true] at h
      rw [fieldEq_of_eq h.1, fieldsEq_of_eq h.2]
  | [], _ :: _, h => by simp [fieldsEq] at h
  | _ :: _, [], h => by simp [fieldsEq] at h

end

theorem DataType.eq_iff {l r : DataType} : l.eq r = true ↔ l = r := by
  constructor
  · exact DataType.eq_of_eq
  · rintro rfl
    exact DataType.eq_self l

instance : DecidableEq DataType := fun _ _ => decidable_of_iff _ DataType.eq_iff

/-! ## Options and errors -/

/-- `ArrowOptions`. -/
structure ArrowOptions where
  stringsAsStrings : Bool
  useDate32ForDate : Bool
  strictSchema : Bool
  disableStrictSchemaDdl : Bool
  nullableArrayDefaultEmpty : Bool
  deriving DecidableEq, Repr

/-- `ArrowOptions::new`, the default. -/
def ArrowOptions.new : ArrowOptions where
  stringsAsStrings := false
  useDate32ForDate := false
  strictSchema := false
  disableStrictSchemaDdl := false
  nullableArrayDefaultEmpty := true

/-- `ArrowOptions::strict`. -/
def ArrowOptions.strict : ArrowOptions where
  stringsAsStrings := false
  useDate32ForDate := false
  strictSchema := true
  disableStrictSchemaDdl := false
  nullableArrayDefaultEmpty := false

/-- A piece of an error text; what is printed in it is kept as it is. -/
inductive Fragment
  | text (s : String)
  /-- A text that is kept as its bytes. -/
  | bytes (value : Bytes)
  | type (t : ChType)
  | dataType (d : DataType)
  | field (f : Field)
  | number (n : Int)

/-- The variants of `Error` that the Arrow side returns. -/
inductive ArrowError
  | arrowSerialize (msg : List Fragment)
  | arrowDeserialize (msg : List Fragment)
  | arrowUnsupportedType (msg : List Fragment)
  | typeConversion (msg : List Fragment)
  | deserializeError (msg : List Fragment)
  | serializeError (msg : List Fragment)
  | unexpectedType (t : ChType)
  | arrowTypeMismatch (expected : String) (provided : DataType)
  /-- `Utf8`, of `std::str::from_utf8`. -/
  | utf8
  /-- `Arrow`: an error of the Arrow library. -/
  | arrow (msg : List Fragment)
  /-- An error that the byte readers return as well. -/
  | native (e : Error)

/-- A fallible computation of the Arrow side. -/
abbrev ArrowResult (α : Type) := Outcome ArrowError α

end Arrow

end ClickhouseArrow
