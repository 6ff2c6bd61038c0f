import ClickhouseArrow.Arrow.Columns

/-!
# Reading an Arrow array

`Type::deserialize_arrow_async` and the modules under `arrow/deserialize`, which read a column
from a socket into its builder.  The asynchronous decoder chooses its branch by the type and
looks at the builder there.

`json` stands for the round of a JSON text through the JSON library; without the feature it
is the identity.
-/

namespace ClickhouseArrow

open Wire

namespace Arrow

/-- The null buffer of a nested array, from the mask of its rows. -/
def nestedNulls (nulls : Bytes) : Nulls :=
  if nulls.isEmpty then none else some (nulls.map (· == 0))

/-! ## Leaves -/

/-- `primitive::deserialize_async`. -/
def Primitive.deserializeAsync (builder : TypedBuilder) (rows : Nat) (nulls : Bytes) :
    Reader ArrowError ArrowArray :=
  match builder with
  | .int8 => finishPrimitive .int8 <$> deserBulk .async Int8 rows nulls
  | .int16 => finishPrimitive .int16 <$> deserBulk .async Int16 rows nulls
  | .int32 => finishPrimitive .int32 <$> deserBulk .async Int32 rows nulls
  | .int64 => finishPrimitive .int64 <$> deserBulk .async Int64 rows nulls
  | .uint8 => finishPrimitive .uint8 <$> deserBulk .async UInt8 rows nulls
  | .uint16 => finishPrimitive .uint16 <$> deserBulk .async UInt16 rows nulls
  | .uint32 => finishPrimitive .uint32 <$> deserBulk .async UInt32 rows nulls
  | .uint64 => finishPrimitive .uint64 <$> deserBulk .async UInt64 rows nulls
  | .float32 => finishPrimitive .float32 <$> deserBulk .async UInt32 rows nulls
  | .float64 => finishPrimitive .float64 <$> deserBulk .async UInt64 rows nulls
  | .decimal32 s => do
      let values ← deserBulk .async Int32 rows nulls
      pure (finishPrimitive (.decimal128 9 s)
        (values.map (Option.map fun v : Int32 => BitVec.ofInt 128 v.toInt)))
  | .decimal64 s => do
      let values ← deserBulk .async Int64 rows nulls
      pure (finishPrimitive (.decimal128 18 s)
        (values.map (Option.map fun v : Int64 => BitVec.ofInt 128 v.toInt)))
  | .date => do
      let values ← deserBulk .async UInt16 rows nulls
      pure (finishPrimitive .date32 (values.map (Option.map fun v : UInt16 => Int32.ofNat v.toNat)))
  | .dateTime tz => do
      let values ← deserBulk .async UInt32 rows nulls
      pure (finishPrimitive (.timestamp .second tz)
        (values.map (Option.map fun v : UInt32 => Int64.ofNat v.toNat)))
  | .dateTimeS tz =>
      finishPrimitive (.timestamp .second tz) <$> deserBulk .async Int64 rows nulls
  | .dateTimeMs tz =>
      finishPrimitive (.timestamp .millisecond tz) <$> deserBulk .async Int64 rows nulls
  | .dateTimeMu tz =>
      finishPrimitive (.timestamp .microsecond tz) <$> deserBulk .async Int64 rows nulls
  | .dateTimeNano tz =>
      finishPrimitive (.timestamp .nanosecond tz) <$> deserBulk .async Int64 rows nulls
  | .date32 => finishPrimitive .date32 <$> optValues nulls (readDate32 .async) .ok 0 rows
  | .decimal128 s =>
      finishPrimitive (.decimal128 38 s) <$> optValues nulls (readDecimal128 .async) .ok 0 rows
  | .decimal256 s =>
      finishPrimitive (.decimal256 76 s) <$> optValues nulls (readDecimal256 .async) .ok 0 rows
  | _ => Reader.fail (.arrowDeserialize [.text "Unexpected builder type for primitive"])

/-- `binary::deserialize_async`. -/
def Binary.deserializeAsync (json : Bytes → Bytes) (t : ChType) (builder : TypedBuilder)
    (rows : Nat) (nulls : Bytes) : Reader ArrowError ArrowArray :=
  match builder with
  | .string =>
      finishBytes .utf8 <$> optValues nulls (fromUtf8Lossy <$> readText .async) .ok 0 rows
  | .binary => finishBytes .binary <$> optValues nulls (readText .async) .ok 0 rows
  | .object =>
      finishBytes .utf8 <$>
        optValues nulls ((fun text => json (fromUtf8Lossy text)) <$> readText .async) .ok 0 rows
  | .fixedSizeBinary size =>
      match t with
      | .fixedSizedString n | .fixedSizedBinary n =>
          finishFixed size <$> optValues nulls (readBuffer .async n) (appendFixed size) 0 rows
      | .ipv4 =>
          finishFixed size <$>
            optValues nulls (ipv4Octets <$> getLe UInt32 (eof .async)) (appendFixed size) 0 rows
      | .ipv6 =>
          finishFixed size <$>
            optValues nulls (Reader.takeExact (eof .async) 16) (appendFixed size) 0 rows
      | .uuid | .int128 | .uint128 =>
          finishFixed size <$>
            optValues nulls (Reader.takeExact (eof .async) 16) (appendFixed size) 0 rows
      | .int256 | .uint256 =>
          finishFixed size <$>
            optValues nulls (List.reverse <$> Reader.takeExact (eof .async) 32) (appendFixed size)
              0 rows
      | t => Reader.fail (.arrowDeserialize
          [.text "Unexpected type for FixedSizeBinary builder: ", .type t])
  | _ => Reader.fail (.arrowDeserialize [.text "Unexpected builder type for binary: ", .type t])

/-- `enums::deserialize_async`. -/
def Enums.deserializeAsync (t : ChType) (builder : TypedBuilder) (rows : Nat) (nulls : Bytes) :
    Reader ArrowError ArrowArray :=
  match builder with
  | .enum8 =>
      match t with
      | .enum8 pairs =>
          finishLabels .int8 <$> enumRows .async (fun idx : Int8 => .arrowDeserialize
            [.text "Invalid Enum8 index: ", .number idx.toInt, .text " not found in pairs"])
            127 pairs nulls [] 0 rows
      | t => Reader.fail (.unexpectedType t)
  | .enum16 =>
      match t with
      | .enum16 pairs =>
          finishLabels .int16 <$> enumRows .async (fun idx : Int16 => .arrowDeserialize
            [.text "Invalid Enum16 index: ", .number idx.toInt, .text " not found in pairs"])
            32767 pairs nulls [] 0 rows
      | t => Reader.fail (.unexpectedType t)
  | _ => Reader.fail (.arrowDeserialize [.text "Unexpected builder type for enum: ", .type t])

/-- The mask that `null::deserialize_async` reads. -/
def Null.readMaskAsync (rows : Nat) : Reader ArrowError Bytes :=
  if 0 < rows then readBuffer .async rows else pure []

/-! ## Nested values -/

/-- The decoder of an inner column: what is left to say is the builder, the data type, the
number of rows and the mask. -/
abbrev Decode := TypedBuilder → DataType → Nat → Bytes → Reader ArrowError ArrowArray

namespace Lists

/-- `bulk_offsets!`: the end of every row, after a zero. -/
def bulkOffsets (m : Mode) (rows : Nat) : Reader ArrowError (List UInt64) :=
  if isizeMax < 8 + rows * 8 then Reader.panic .capacityOverflow
  else do
    let bytes ← Reader.takeExact (eof m) (rows * 8)
    pure (0 :: (castSlice 8 rows bytes).map (ofLe UInt64))

/-- `list_deser!` over a cast of the offsets. -/
def listDeserAsync (large : Bool) (cast : UInt64 → Int) (inner : ChType) (decode : Decode)
    (item : TypedBuilder) (d : DataType) (rows : Nat) (nulls : Bytes) :
    Reader ArrowError ArrowArray := do
  let offsets ← bulkOffsets .async rows
  let offsetBuffer ← Reader.ofOutcome (newOffsets (offsets.map cast))
  let totalValues := (offsets.getLastD 0).toNat
  let innerArray ← decode item d totalValues []
  let field : Field := ⟨listItemFieldName, innerArray.dataType, inner.stripLowCardinality.isNullable⟩
  let listArray ← Reader.ofOutcome
    (ListArray.new large field offsetBuffer innerArray (nestedNulls nulls))
  if listArray.len ≠ rows then
    Reader.fail (.deserializeError [.text "ListArray length ", .number listArray.len,
      .text " does not match expected rows ", .number rows])
  else pure listArray

/-- The arm of a list of fixed size. -/
def fixedDeserAsync (size : Int32) (inner : ChType) (decode : Decode) (item : TypedBuilder)
    (d : DataType) (rows : Nat) (nulls : Bytes) : Reader ArrowError ArrowArray := do
  let innerArray ← decode item d rows []
  let field : Field := ⟨listItemFieldName, innerArray.dataType, inner.stripLowCardinality.isNullable⟩
  let listArray ← Reader.ofOutcome
    (FixedSizeListArray.new field size innerArray (nestedNulls nulls))
  if listArray.len ≠ rows then
    Reader.fail (.deserializeError [.text "ListArray length ", .number listArray.len,
      .text " does not match expected rows ", .number rows])
  else pure listArray

/-- The items of the data types that a list is read into. -/
def itemOf : DataType → Option Field
  | .list _ item | .listView false item => some item
  | _ => none

/-- `o as i32` and `o as i64`. -/
def castI32 (o : UInt64) : Int := (Int32.ofNat o.toNat).toInt

def castI64 (o : UInt64) : Int := o.toInt64.toInt

/-- `list::deserialize_async`. -/
def deserializeAsync (inner : ChType) (decode : Decode) (builder : TypedBuilder) (d : DataType)
    (rows : Nat) (nulls : Bytes) : Reader ArrowError ArrowArray :=
  match itemOf d with
  | none => Reader.fail (.arrowDeserialize [.text "Unexpected list type: ", .dataType d])
  | some item =>
      match builder with
      | .list .list b => listDeserAsync false castI32 inner decode b item.dataType rows nulls
      | .list .largeList b => listDeserAsync true castI64 inner decode b item.dataType rows nulls
      | .list (.fixedList size) b => fixedDeserAsync size inner decode b item.dataType rows nulls
      | b => Reader.fail (.arrowDeserialize [.text "Unexpected builder type: ", .text b.name])

end Lists

namespace LowCardinality

open ClickhouseArrow.LowCardinality

/-- An index cast to the type of the keys. -/
def castKey : KeyType → Nat → Int
  | .int8, n => (Int8.ofNat n).toInt
  | .int16, n => (Int16.ofNat n).toInt
  | .int32, n => (Int32.ofNat n).toInt
  | .int64, n => (Int64.ofNat n).toInt
  | .uint8, n => (UInt8.ofNat n).toNat
  | .uint16, n => (UInt16.ofNat n).toNat
  | .uint32, n => (UInt32.ofNat n).toNat
  | .uint64, n => (UInt64.ofNat n).toNat

/-- The type of the indexes, by the low byte of the flag word. -/
def indexType (flags : Nat) : Option IndexType :=
  match flags % 256 with
  | 0 => some .uint8
  | 1 => some .uint16
  | 2 => some .uint32
  | 3 => some .uint64
  | _ => none

/-- One of the bits that announce a dictionary is set. -/
def hasDictionary (flags : Nat) : Bool :=
  flags &&& needGlobalDictionaryBit ≠ 0 || flags &&& needUpdateDictionaryBit ≠ 0 ||
    flags &&& hasAdditionalKeysBit ≠ 0

/-- The mask of the dictionary of a nullable type: its first value stands for the null. -/
def dictionaryMask (inner : ChType) (dictSize : Nat) : ArrowResult Bytes :=
  if inner.isNullable then
    if isizeMax < dictSize then .panic .capacityOverflow
    else
      match dictSize with
      | 0 => .panic .indexOutOfBounds
      | n + 1 => .ok (1 :: List.replicate n 0)
  else .ok []

/-- `deser_key!`: the indexes, in the builder of the keys. -/
def deserKey (m : Mode) (indexes : IndexType) (key : KeyType) (rows : Nat) (nulls : Bytes) :
    Reader ArrowError (List (Option Int)) :=
  match indexes with
  | .uint8 => do
      let keys ← deserBulk m UInt8 rows nulls
      pure (keys.map (Option.map fun k : UInt8 => castKey key k.toNat))
  | .uint16 => do
      let keys ← deserBulk m UInt16 rows nulls
      pure (keys.map (Option.map fun k : UInt16 => castKey key k.toNat))
  | .uint32 => do
      let keys ← deserBulk m UInt32 rows nulls
      pure (keys.map (Option.map fun k : UInt32 => castKey key k.toNat))
  | .uint64 => do
      let keys ← deserBulk m UInt64 rows nulls
      pure (keys.map (Option.map fun k : UInt64 => castKey key k.toNat))

/-- `low_cardinality::deserialize_async`. -/
def deserializeAsync (inner : ChType) (decode : Decode) (builder : TypedBuilder) (d : DataType)
    (rows : Nat) (nulls : Bytes) : Reader ArrowError ArrowArray :=
  match d with
  | .dictionary _ valueType =>
      match builder with
      | .lowCardinality key valueBuilder => do
          let flags ← getUsizeOf .async
          match indexType flags with
          | none => Reader.fail (.deserializeError
              [.text "LowCardinality: bad index type: ", .number (flags % 256)])
          | some indexes => do
              let dictSize ← getUsizeOf .async
              if hasDictionary flags then do
                let mask ← Reader.ofOutcome (dictionaryMask inner dictSize)
                let dictionary ← decode valueBuilder valueType dictSize mask
                let numRows ← getUsizeOf .async
                if numRows ≠ rows then
                  Reader.fail (.deserializeError
                    [.text "LowCardinality must be read in full. Expect ", .number rows,
                      .text " rows, got ", .number numRows])
                else do
                  let keys ← deserKey .async indexes key rows nulls
                  Reader.ofOutcome (DictionaryArray.new key keys dictionary)
              else Reader.fail (.deserializeError [.text "LowCardinality: no dictionary provided"])
      | b => Reader.fail (.arrowDeserialize [.text "Unexpected builder type: ", .text b.name])
  | d => Reader.fail (.arrowDeserialize [.text "Unexpected dict value type: ", .dataType d])
where
  getUsizeOf (m : Mode) : Reader ArrowError Nat := (getUsize m).mapError .native

end LowCardinality

namespace Maps

/-- `map::deserialize_async`. -/
def deserializeAsync (decodeKey decodeValue : Decode) (builder : TypedBuilder) (d : DataType)
    (rows : Nat) (nulls : Bytes) : Reader ArrowError ArrowArray := do
  let fields ← Reader.ofOutcome (getMapFields d)
  match builder with
  | .map keyBuilder valueBuilder => do
      let offsets ← Lists.bulkOffsets .async rows
      let offsetBuffer ← Reader.ofOutcome (newOffsets (offsets.map Lists.castI32))
      let totalPairs := (offsets.getLastD 0).toNat
      let keys ← decodeKey keyBuilder fields.1.dataType totalPairs []
      let values ← decodeValue valueBuilder fields.2.dataType totalPairs []
      let structField : Field := ⟨mapFieldName, .struct [fields.1, fields.2], false⟩
      let entries ← Reader.ofOutcome (StructArray.new [fields.1, fields.2] [keys, values] none)
      Reader.ofOutcome (MapArray.new structField offsetBuffer entries (nestedNulls nulls) false)
  | b => Reader.fail (.arrowDeserialize [.text "Unexpected builder for map: ", .text b.name])

end Maps

namespace Tuples

/-- The two columns that a tuple without rows is given. -/
def emptyColumns : List ArrowArray := [.primitive .int32 [] none, .bytes .utf8 [] none]

/-- `tuple::deserialize_async`, where `decode` reads the columns of the builders. -/
def deserializeAsync
    (decode : List TypedBuilder → List Field → Nat → Reader ArrowError (List ArrowArray))
    (builder : TypedBuilder) (d : DataType) (rows : Nat) (nulls : Bytes) :
    Reader ArrowError ArrowArray :=
  match d with
  | .struct fields =>
      match builder with
      | .tuple builders =>
          if rows = 0 then
            Reader.ofOutcome (StructArray.tryNewWithLength fields emptyColumns none 0)
          else do
            let arrays ← decode builders fields rows
            Reader.ofOutcome (StructArray.new fields arrays (nestedNulls nulls))
      | b => Reader.fail (.arrowDeserialize [.text "Unexpected tuple builder: ", .text b.name])
  | d => Reader.fail (.arrowDeserialize [.text "Unsupported tuple datatype: ", .dataType d])

end Tuples

/-! ## Columns of any type -/

/-- So many columns of floating-point numbers. -/
def decodeFloatsAsync :
    Nat → List TypedBuilder → List Field → Nat → Reader ArrowError (List ArrowArray)
  | n + 1, b :: bs, _ :: fs, rows => do
      let array ← Primitive.deserializeAsync b rows []
      let arrays ← decodeFloatsAsync n bs fs rows
      pure (array :: arrays)
  | _, _, _, _ => pure []

/-- A point is read as the tuple that it is an alias of, and the other geo types as arrays of
it. -/
def decodePointAsync : Decode := Tuples.deserializeAsync (decodeFloatsAsync 2)

def decodeRingAsync : Decode := Lists.deserializeAsync (.tuple [.float64, .float64]) decodePointAsync

def decodePolygonAsync : Decode := Lists.deserializeAsync ringType decodeRingAsync

def decodeMultiPolygonAsync : Decode := Lists.deserializeAsync (.array ringType) decodePolygonAsync

/-- The types that are not nested.  A geo type is read under the data type that its alias is
announced as. -/
def decodeFlatAsync (json : Bytes → Bytes) (t : ChType) : Decode := fun builder _ rows nulls =>
  match t with
  | .string | .fixedSizedString _ | .binary | .fixedSizedBinary _ | .object
  | .int128 | .int256 | .uint128 | .uint256 | .ipv6 | .uuid | .ipv4 =>
      Binary.deserializeAsync json t builder rows nulls
  | .enum8 _ | .enum16 _ => Enums.deserializeAsync t builder rows nulls
  | .point => decodePointAsync builder pointOf rows nulls
  | .ring => decodeRingAsync builder (listOf (pointOf, false)) rows nulls
  | .polygon => decodePolygonAsync builder (listOf (listOf (pointOf, false), false)) rows nulls
  | .multiPolygon =>
      decodeMultiPolygonAsync builder (listOf (listOf (listOf (pointOf, false), false), false))
        rows nulls
  | _ => Primitive.deserializeAsync builder rows nulls

mutual

/-- `Type::deserialize_arrow_async`. -/
def deserializeArrowAsync (json : Bytes → Bytes) : ChType → Decode
  | .nullable inner => fun builder d rows _ => do
      let nulls ← Null.readMaskAsync rows
      deserializeArrowAsync json inner builder d rows nulls
  | .array inner => Lists.deserializeAsync inner (deserializeArrowAsync json inner)
  | .lowCardinality (.nullable inner) =>
      LowCardinality.deserializeAsync (.nullable inner) (deserializeArrowAsync json inner)
  | .lowCardinality inner =>
      LowCardinality.deserializeAsync inner (deserializeArrowAsync json inner)
  | .map key value =>
      Maps.deserializeAsync (deserializeArrowAsync json key) (deserializeArrowAsync json value)
  | .tuple items => Tuples.deserializeAsync (deserializeColumnsAsync json items)
  | t => decodeFlatAsync json t

/-- The columns of a tuple, each with the builder and the field it is zipped with. -/
def deserializeColumnsAsync (json : Bytes → Bytes) :
    List ChType → List TypedBuilder → List Field → Nat → Reader ArrowError (List ArrowArray)
  | t :: ts, b :: bs, f :: fs, rows => do
      let array ← deserializeArrowAsync json t b f.dataType rows []
      let arrays ← deserializeColumnsAsync json ts bs fs rows
      pure (array :: arrays)
  | _, _, _, _ => pure []

end

theorem deserializeColumnsAsync_floats (json : Bytes → Bytes) :
    deserializeColumnsAsync json [.float64, .float64] = decodeFloatsAsync 2 := by
  funext builders fields rows
  match builders, fields with
  | [], _ | _ :: _, [] => rfl
  | [_], _ :: _ | _ :: _ :: _, [_] => rfl
  | _ :: _ :: _, _ :: _ :: _ => rfl

/-- A geo type is read as its alias. -/
theorem deserializeArrowAsync_geo (json : Bytes → Bytes) {t u : ChType}
    (h : normalizeGeoType t = .ok u) {d' : DataType} {nullable : Bool}
    (hd : chToArrowType u none = .ok (d', nullable)) (builder : TypedBuilder) (d : DataType)
    (rows : Nat) (nulls : Bytes) :
    deserializeArrowAsync json t builder d rows nulls =
      deserializeArrowAsync json u builder d' rows nulls := by
  have hpoint : decodePointAsync = deserializeArrowAsync json (.tuple [.float64, .float64]) := by
    rw [decodePointAsync, ← deserializeColumnsAsync_floats json]
    rfl
  have hring : decodeRingAsync = deserializeArrowAsync json ringType := by
    rw [decodeRingAsync, hpoint]
    rfl
  have hpolygon : decodePolygonAsync = deserializeArrowAsync json (.array ringType) := by
    rw [decodePolygonAsync, hring]
    rfl
  have hmulti : decodeMultiPolygonAsync =
      deserializeArrowAsync json (.array (.array ringType)) := by
    rw [decodeMultiPolygonAsync, hpolygon]
    rfl
  cases t <;> simp only [normalizeGeoType, Outcome.fail, reduceCtorEq, Except.ok.injEq] at h
  all_goals
    subst h
    cases hd
  · rw [← hpoint]
    rfl
  · rw [← hring]
    rfl
  · rw [← hpolygon]
    rfl
  · rw [← hmulti]
    rfl
end Arrow

end ClickhouseArrow
