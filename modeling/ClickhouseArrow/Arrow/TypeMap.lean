import ClickhouseArrow.Arrow.DataTypes
import ClickhouseArrow.Native.TypeNames

/-!
# Between ClickHouse types and Arrow types

The conversions of `arrow/types.rs`: `ch_to_arrow_type`, which announces the Arrow type of
a column, `normalize_type`, which fits a type to the announced one before it is decoded, and
`arrow_to_ch_type`, which names the type of a column that is to be created.  Each of them
looks at a type without its outermost `Nullable`; the definitions carry along whether there
was one.
-/

namespace ClickhouseArrow

open Wire

namespace ChType

/-- `strip_low_cardinality`. -/
def stripLowCardinality : ChType → ChType
  | .lowCardinality x => x
  | t => t

/-- `into_nullable`: a dictionary passes it on to its values. -/
def intoNullable : ChType → ChType
  | .nullable t => .nullable t
  | .lowCardinality inner => .lowCardinality inner.intoNullable
  | t => .nullable t

end ChType

namespace Arrow

/-- `x as usize` of a signed integer. -/
def usizeOfInt (x : Int) : Nat := (x % 2 ^ 64).toNat

/-- `x as i32` of a `usize`. -/
def i32OfUsize (n : Nat) : Int32 := Int32.ofNat n

/-- `x as i8` of a `usize`. -/
def i8OfUsize (n : Nat) : Int8 := Int8.ofNat n

/-! ## Geo types -/

/-- The alias that a ring is. -/
def ringType : ChType := .array (.tuple [.float64, .float64])

/-- `normalize_geo_type`. -/
def normalizeGeoType : ChType → ArrowResult ChType
  | .point => .ok (.tuple [.float64, .float64])
  | .ring => .ok ringType
  | .polygon => .ok (.array ringType)
  | .multiPolygon => .ok (.array (.array ringType))
  | t => .fail (.typeConversion [.text "Expected Geo type, got ", .type t])

/-! ## The announced type -/

/-- `LIST_ITEM_FIELD_NAME`. -/
def listItemFieldName : String := "item"

/-- `TUPLE_FIELD_NAME_PREFIX`. -/
def tupleFieldNamePrefix : String := "field_"

/-- `MAP_FIELD_NAME`. -/
def mapFieldName : String := "entries"

/-- `STRUCT_KEY_FIELD_NAME`. -/
def structKeyFieldName : String := "key"

/-- `STRUCT_VALUE_FIELD_NAME`. -/
def structValueFieldName : String := "value"

/-- The data type of an array column, from what its items are announced as. -/
def listOf (item : DataType × Bool) : DataType := .list false ⟨listItemFieldName, item.1, item.2⟩

/-- The fields of a tuple column, numbered from `i`. -/
def tupleFields : Nat → List (DataType × Bool) → List Field
  | _, [] => []
  | i, item :: items =>
      ⟨tupleFieldNamePrefix ++ toString i, item.1, item.2⟩ :: tupleFields (i + 1) items

/-- The data type of a map column.  Keys are not nullable. -/
def mapOf (key : DataType) (value : DataType × Bool) : DataType :=
  .map ⟨mapFieldName,
    .struct [⟨structKeyFieldName, key, false⟩, ⟨structValueFieldName, value.1, value.2⟩], false⟩ false

/-- The options refuse a nullable array. -/
def refusesNullableArray (options : Option ArrowOptions) : Bool :=
  options.any fun o => o.strictSchema && !o.nullableArrayDefaultEmpty

/-- The options refuse a nullable dictionary. -/
def refusesNullableDictionary (options : Option ArrowOptions) : Bool :=
  options.any fun o => o.strictSchema

/-- The options ask for text instead of bytes. -/
def wantsStrings (options : Option ArrowOptions) : Bool := options.any fun o => o.stringsAsStrings

/-- The data type of a geo column, that of its alias.  The alias is looked up for the type
with its `Nullable`, and `unwrap` is called on the result. -/
def geoTypeOf (isNull : Bool) (d : DataType) : ArrowResult (DataType × Bool) :=
  if isNull then .panic .unwrapNone else .ok (d, false)

/-- A column of two floating-point numbers. -/
def pointOf : DataType :=
  .struct (tupleFields 0 [(.primitive .float64, false), (.primitive .float64, false)])

mutual

/-- `ch_to_arrow_type` for a type that stands in a `Nullable` or does not: the data type and
whether it is nullable. -/
def arrowTypeOf (options : Option ArrowOptions) (isNull : Bool) :
    ChType → ArrowResult (DataType × Bool)
  | .int8 => .ok (.primitive .int8, isNull)
  | .int16 => .ok (.primitive .int16, isNull)
  | .int32 => .ok (.primitive .int32, isNull)
  | .int64 => .ok (.primitive .int64, isNull)
  | .uint8 => .ok (.primitive .uint8, isNull)
  | .uint16 => .ok (.primitive .uint16, isNull)
  | .uint32 => .ok (.primitive .uint32, isNull)
  | .uint64 => .ok (.primitive .uint64, isNull)
  | .int128 | .uint128 | .ipv6 | .uuid => .ok (.fixedSizeBinary 16, isNull)
  | .int256 | .uint256 => .ok (.fixedSizeBinary 32, isNull)
  | .float32 => .ok (.primitive .float32, isNull)
  | .float64 => .ok (.primitive .float64, isNull)
  | .decimal32 s => .ok (.primitive (.decimal128 9 (i8OfUsize s)), isNull)
  | .decimal64 s => .ok (.primitive (.decimal128 18 (i8OfUsize s)), isNull)
  | .decimal128 s => .ok (.primitive (.decimal128 38 (i8OfUsize s)), isNull)
  | .decimal256 s => .ok (.primitive (.decimal256 76 (i8OfUsize s)), isNull)
  | .string => .ok (.bytes (if wantsStrings options then .utf8 else .binary), isNull)
  | .fixedSizedString len | .fixedSizedBinary len =>
      .ok (.fixedSizeBinary (i32OfUsize len), isNull)
  | .binary => .ok (.bytes .binary, isNull)
  | .object => .ok (.bytes .utf8, isNull)
  | .date32 | .date => .ok (.primitive .date32, isNull)
  | .dateTime tz => .ok (.primitive (.timestamp .second (some tz.name)), isNull)
  | .dateTime64 p tz =>
      if p = 0 then .ok (.primitive (.timestamp .second (some tz.name)), isNull)
      else if p ≤ 3 then .ok (.primitive (.timestamp .millisecond (some tz.name)), isNull)
      else if p ≤ 6 then .ok (.primitive (.timestamp .microsecond (some tz.name)), isNull)
      else if p ≤ 9 then .ok (.primitive (.timestamp .nanosecond (some tz.name)), isNull)
      else .fail (.arrowUnsupportedType
        [.text "DateTime64 precision must be 0-9, received ", .number p])
  | .ipv4 => .ok (.fixedSizeBinary 4, isNull)
  | .array inner =>
      if isNull && refusesNullableArray options then
        .fail (.typeConversion [.text "ClickHouse does not support nullable Arrays"])
      else do
        let item ← arrowTypeOf options false inner
        .ok (listOf item, isNull)
  | .tuple types => do
      let items ← arrowTypesOf options types
      .ok (.struct (tupleFields 0 items), isNull)
  | .map key value => do
      let key ← arrowTypeOf options false key
      let value ← arrowTypeOf options false value
      .ok (mapOf key.1 value, isNull)
  | .lowCardinality inner =>
      if isNull && refusesNullableDictionary options then
        .fail (.typeConversion [.text "ClickHouse does not support nullable LowCardinality"])
      else do
        let value ← arrowTypeOf options false inner
        -- The nullability is that of the values, whatever stands around the dictionary.
        .ok (.dictionary (.primitive .int32) value.1, inner.isNullable)
  | .enum8 _ => .ok (.dictionary (.primitive .int8) (.bytes .utf8), isNull)
  | .enum16 _ => .ok (.dictionary (.primitive .int16) (.bytes .utf8), isNull)
  | .point => geoTypeOf isNull pointOf
  | .ring => geoTypeOf isNull (listOf (pointOf, false))
  | .polygon => geoTypeOf isNull (listOf (listOf (pointOf, false), false))
  | .multiPolygon => geoTypeOf isNull (listOf (listOf (listOf (pointOf, false), false), false))
  | .nullable inner => if isNull then .panic .unreachable else arrowTypeOf options true inner

/-- The components of a tuple, from the left. -/
def arrowTypesOf (options : Option ArrowOptions) :
    List ChType → ArrowResult (List (DataType × Bool))
  | [] => .ok []
  | t :: ts => do
      let item ← arrowTypeOf options false t
      let items ← arrowTypesOf options ts
      .ok (item :: items)

end

/-- `ch_to_arrow_type`. -/
def chToArrowType (t : ChType) (options : Option ArrowOptions) : ArrowResult (DataType × Bool) :=
  arrowTypeOf options false t

/-- A geo type is announced as its alias. -/
theorem chToArrowType_geo {t u : ChType} (h : normalizeGeoType t = .ok u)
    (options : Option ArrowOptions) : chToArrowType t options = chToArrowType u options := by
  cases t <;> simp only [normalizeGeoType] at h
  all_goals first
    | (obtain rfl := Except.ok.inj h
       rfl)
    | exact absurd h (by simp [Outcome.fail])

/-! ## Normalization -/

mutual

/-- `normalize_type`: the type that decodes into the data type, when it is another one. -/
def normalizeType : ChType → DataType → Option ChType
  | .string, .bytes .binary | .string, .bytes .binaryView | .string, .bytes .largeBinary =>
      some .binary
  | .string, .fixedSizeBinary n | .fixedSizedString _, .fixedSizeBinary n
  | .binary, .fixedSizeBinary n => some (.fixedSizedBinary (usizeOfInt n.toInt))
  | .binary, .bytes .utf8 | .binary, .bytes .largeUtf8 | .binary, .bytes .utf8View => some .string
  | .fixedSizedBinary n, .bytes .utf8 | .fixedSizedBinary n, .bytes .utf8View =>
      some (.fixedSizedString n)
  | .array inner, .list _ item | .array inner, .listView _ item =>
      (normalizeType inner item.dataType).map .array
  | .lowCardinality inner, .dictionary _ value => (normalizeType inner value).map .lowCardinality
  | .lowCardinality inner, .bytes t => (normalizeType inner (.bytes t)).map .lowCardinality
  | .lowCardinality inner, .fixedSizeBinary n =>
      (normalizeType inner (.fixedSizeBinary n)).map .lowCardinality
  | .tuple items, .struct fields =>
      let pairs := normalizeTypes items fields
      -- The vector is made at the first component that changes.
      if pairs.any fun p => p.2.isSome then some (.tuple (pairs.map fun p => p.2.getD p.1))
      else none
  | .nullable (.nullable _), _ => none
  | .nullable inner, d => (normalizeType inner d).map ChType.intoNullable
  | _, _ => none

/-- The components zipped with the fields, each with what it is normalized to. -/
def normalizeTypes : List ChType → List Field → List (ChType × Option ChType)
  | t :: ts, f :: fs => (t, normalizeType t f.dataType) :: normalizeTypes ts fs
  | _, _ => []

end

/-! ## The type of a column to create -/

/-- `tz_map` for the zone of a timestamp. -/
def timestampZone (lex : Lexicon) (tz : Option String) : Tz :=
  (lex.timezone (tz.getD "UTC").toList).getD FromStr.utc

/-- The zone of the types that carry none. -/
def unzoned (precision : Nat) : ChType := .dateTime64 precision FromStr.utc

/-- The type of the fixed-width values of a data type. -/
def primitiveChType (lex : Lexicon) (options : Option ArrowOptions) :
    PrimitiveType → ArrowResult ChType
  | .int8 => .ok .int8
  | .int16 => .ok .int16
  | .int32 => .ok .int32
  | .int64 | .interval _ => .ok .int64
  | .uint8 => .ok .uint8
  | .uint16 => .ok .uint16
  | .uint32 => .ok .uint32
  | .uint64 => .ok .uint64
  | .float32 => .ok .float32
  | .float64 => .ok .float64
  | .decimal32 _ s => .ok (.decimal32 (usizeOfInt s.toInt))
  | .decimal64 _ s => .ok (.decimal64 (usizeOfInt s.toInt))
  | .decimal128 p s =>
      if p ≤ 9 then .ok (.decimal32 (usizeOfInt s.toInt))
      else if p ≤ 18 then .ok (.decimal64 (usizeOfInt s.toInt))
      else if p ≤ 38 then .ok (.decimal128 (usizeOfInt s.toInt))
      else .ok (.decimal256 (usizeOfInt s.toInt))
  | .decimal256 _ s => .ok (.decimal256 (usizeOfInt s.toInt))
  | .date32 => .ok (if options.any fun o => o.useDate32ForDate then .date32 else .date)
  | .time32 .second | .time64 .second | .duration .second => .ok (.dateTime FromStr.utc)
  | .date64 | .duration .millisecond | .time32 .millisecond | .time64 .millisecond =>
      .ok (unzoned 3)
  | .time32 .microsecond | .time64 .microsecond | .duration .microsecond => .ok (unzoned 6)
  | .time32 .nanosecond | .time64 .nanosecond | .duration .nanosecond => .ok (unzoned 9)
  | .timestamp .second tz => .ok (.dateTime (timestampZone lex tz))
  | .timestamp .millisecond tz => .ok (.dateTime64 3 (timestampZone lex tz))
  | .timestamp .microsecond tz => .ok (.dateTime64 6 (timestampZone lex tz))
  | .timestamp .nanosecond tz => .ok (.dateTime64 9 (timestampZone lex tz))
  | .float16 => .fail (.arrowUnsupportedType
      [.text "Arrow data type is not supported: ", .dataType (.primitive .float16)])

/-- The last step: an array or a map is never nullable. -/
def withNullability (isNullable : Bool) (inner : ChType) : ChType :=
  match inner with
  | .array _ | .map _ _ => inner
  | _ => if isNullable then .nullable inner else inner

def unsupportedDataType (d : DataType) : ArrowError :=
  .arrowUnsupportedType [.text "Arrow data type is not supported: ", .dataType d]

mutual

/-- `arrow_to_ch_type`. -/
def arrowToChType (lex : Lexicon) (options : Option ArrowOptions) :
    DataType → Bool → ArrowResult ChType
  | .primitive p, isNullable => withNullability isNullable <$> primitiveChType lex options p
  | .boolean, isNullable => .ok (withNullability isNullable .uint8)
  | .fixedSizeBinary s, isNullable =>
      .ok (withNullability isNullable (.fixedSizedBinary (usizeOfInt s.toInt)))
  | .bytes t, isNullable =>
      .ok (withNullability isNullable (if t.isUtf8 then .string else .binary))
  | .list _ ⟨_, item, itemNullable⟩, isNullable
  | .listView _ ⟨_, item, itemNullable⟩, isNullable
  | .fixedSizeList ⟨_, item, itemNullable⟩ _, isNullable =>
      if isNullable && refusesNullableArray options then
        .fail (.typeConversion [.text "ClickHouse does not support nullable Lists"])
      else do
        let inner ← arrowToChType lex options item itemNullable
        .ok (.array inner)
  | .dictionary _ value, isNullable =>
      if isNullable && refusesNullableDictionary options then
        .fail (.typeConversion [.text "ClickHouse does not support nullable Dictionary"])
      else do
        -- `Nullable(LowCardinality(T))` becomes `LowCardinality(Nullable(T))`.
        let inner ← arrowToChType lex options value isNullable
        .ok (.lowCardinality inner)
  | .struct fields, isNullable => do
      let types ← arrowFieldsToChTypes lex options fields
      .ok (withNullability isNullable (.tuple types))
  | .map ⟨_, .struct (⟨_, key, keyNullable⟩ :: ⟨_, value, valueNullable⟩ :: _), _⟩ _, _ => do
      let keyType ← arrowToChType lex options key keyNullable
      let valueType ← arrowToChType lex options value valueNullable
      .ok (.map keyType valueType)
  | .map ⟨_, .struct _, _⟩ _, _ => .fail (.arrowDeserialize [.text "Map inner fields malformed"])
  | .map entries _, _ =>
      .fail (.arrowDeserialize [.text "Unexpected key type for map: ", .field entries])
  | d, _ => .fail (unsupportedDataType d)

def arrowFieldsToChTypes (lex : Lexicon) (options : Option ArrowOptions) :
    List Field → ArrowResult (List ChType)
  | [] => .ok []
  | ⟨_, d, nullable⟩ :: fields => do
      let t ← arrowToChType lex options d nullable
      let ts ← arrowFieldsToChTypes lex options fields
      .ok (t :: ts)

end

end Arrow

end ClickhouseArrow
