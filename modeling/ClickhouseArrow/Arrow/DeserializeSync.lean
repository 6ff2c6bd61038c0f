import ClickhouseArrow.Arrow.Deserialize

/-!
# Reading an Arrow array synchronously

`Type::deserialize_arrow`, which reads a column from a decompressed buffer.  It chooses its
branch by the builder, and by the type only where a builder serves several types or the
column is nested.
-/

namespace ClickhouseArrow

open Wire

namespace Arrow

/-! ## Leaves -/

/-- The error of the last arm. -/
def unexpectedBuilder : ArrowError := .arrowDeserialize [.text "Unexpected builder type"]

/-- The arms of the builders of fixed-width values. -/
def Primitive.deserialize (builder : TypedBuilder) (rows : Nat) (nulls : Bytes) :
    Reader ArrowError ArrowArray :=
  match builder with
  | .int8 => finishPrimitive .int8 <$> deserBulk .sync Int8 rows nulls
  | .int16 => finishPrimitive .int16 <$> deserBulk .sync Int16 rows nulls
  | .int32 => finishPrimitive .int32 <$> deserBulk .sync Int32 rows nulls
  | .int64 => finishPrimitive .int64 <$> deserBulk .sync Int64 rows nulls
  | .uint8 => finishPrimitive .uint8 <$> deserBulk .sync UInt8 rows nulls
  | .uint16 => finishPrimitive .uint16 <$> deserBulk .sync UInt16 rows nulls
  | .uint32 => finishPrimitive .uint32 <$> deserBulk .sync UInt32 rows nulls
  | .uint64 => finishPrimitive .uint64 <$> deserBulk .sync UInt64 rows nulls
  | .float32 => finishPrimitive .float32 <$> deserBulk .sync UInt32 rows nulls
  | .float64 => finishPrimitive .float64 <$> deserBulk .sync UInt64 rows nulls
  | .decimal32 s => do
      let values ← deserBulk .sync Int32 rows nulls
      pure (finishPrimitive (.decimal128 9 s)
        (values.map (Option.map fun v : Int32 => BitVec.ofInt 128 v.toInt)))
  | .decimal64 s => do
      let values ← deserBulk .sync Int64 rows nulls
      pure (finishPrimitive (.decimal128 18 s)
        (values.map (Option.map fun v : Int64 => BitVec.ofInt 128 v.toInt)))
  | .date => do
      let values ← deserBulk .sync UInt16 rows nulls
      pure (finishPrimitive .date32 (values.map (Option.map fun v : UInt16 => Int32.ofNat v.toNat)))
  | .dateTime tz => do
      let values ← deserBulk .sync UInt32 rows nulls
      pure (finishPrimitive (.timestamp .second tz)
        (values.map (Option.map fun v : UInt32 => Int64.ofNat v.toNat)))
  | .dateTimeS tz =>
      finishPrimitive (.timestamp .second tz) <$> deserBulk .sync Int64 rows nulls
  | .dateTimeMs tz =>
      finishPrimitive (.timestamp .millisecond tz) <$> deserBulk .sync Int64 rows nulls
  | .dateTimeMu tz =>
      finishPrimitive (.timestamp .microsecond tz) <$> deserBulk .sync Int64 rows nulls
  | .dateTimeNano tz =>
      finishPrimitive (.timestamp .nanosecond tz) <$> deserBulk .sync Int64 rows nulls
  | .date32 => finishPrimitive .date32 <$> optValues nulls (readDate32 .sync) .ok 0 rows
  | .decimal128 s =>
      finishPrimitive (.decimal128 38 s) <$> optValues nulls (readDecimal128 .sync) .ok 0 rows
  | .decimal256 s =>
      finishPrimitive (.decimal256 76 s) <$> optValues nulls (readDecimal256 .sync) .ok 0 rows
  | _ => Reader.fail unexpectedBuilder

/-- The arms of the builders that are filled row by row, of which the last looks at the type as
well. -/
def Binary.deserialize (json : Bytes → Bytes) (t : ChType) (builder : TypedBuilder) (rows : Nat)
    (nulls : Bytes) : Reader ArrowError ArrowArray :=
  match builder with
  | .string =>
      finishBytes .utf8 <$> optValues nulls (fromUtf8Lossy <$> readText .sync) .ok 0 rows
  | .object =>
      finishBytes .utf8 <$>
        optValues nulls ((fun text => json (fromUtf8Lossy text)) <$> readText .sync) .ok 0 rows
  | .binary => finishBytes .binary <$> optValues nulls (readText .sync) .ok 0 rows
  | .fixedSizeBinary size =>
      match t with
      | .fixedSizedString n | .fixedSizedBinary n =>
          finishFixed size <$> optValues nulls (readBuffer .sync n) (appendFixed size) 0 rows
      | .ipv4 =>
          finishFixed size <$>
            optValues nulls (ipv4Octets <$> getLe UInt32 (eof .sync)) (appendFixed size) 0 rows
      | .ipv6 =>
          finishFixed size <$>
            optValues nulls (Reader.takeExact (eof .sync) 16) (appendFixed size) 0 rows
      | .uuid =>
          finishFixed size <$>
            optValues nulls (Reader.takeExact (eof .sync) 16) (appendFixed size) 0 rows
      | .int128 | .uint128 =>
          finishFixed size <$>
            optValues nulls (Reader.takeExact (eof .sync) 16) (appendFixed size) 0 rows
      | .int256 | .uint256 =>
          finishFixed size <$>
            optValues nulls (List.reverse <$> Reader.takeExact (eof .sync) 32) (appendFixed size)
              0 rows
      | t => Reader.fail (.unexpectedType t)
  | _ => Reader.fail unexpectedBuilder

/-- The arms of the builders of enums. -/
def Enums.deserialize (t : ChType) (builder : TypedBuilder) (rows : Nat) (nulls : Bytes) :
    Reader ArrowError ArrowArray :=
  match builder with
  | .enum8 =>
      match t with
      | .enum8 pairs =>
          finishLabels .int8 <$> enumRows .sync (fun idx : Int8 => .arrowDeserialize
            [.text "Invalid Enum16 index: ", .number idx.toInt, .text " not found in pairs"])
            127 pairs nulls [] 0 rows
      | t => Reader.fail (.unexpectedType t)
  | .enum16 =>
      match t with
      | .enum16 pairs =>
          finishLabels .int16 <$> enumRows .sync (fun idx : Int16 => .arrowDeserialize
            [.text "Invalid Enum16 index: ", .number idx.toInt, .text " not found in pairs"])
            32767 pairs nulls [] 0 rows
      | t => Reader.fail (.unexpectedType t)
  | _ => Reader.fail unexpectedBuilder

/-- The arms of the builders that are not nested, whatever the type. -/
def decodeFlat (json : Bytes → Bytes) (t : ChType) (builder : TypedBuilder) (rows : Nat)
    (nulls : Bytes) : Reader ArrowError ArrowArray :=
  match builder with
  | .string | .object | .binary | .fixedSizeBinary _ => Binary.deserialize json t builder rows nulls
  | .enum8 | .enum16 => Enums.deserialize t builder rows nulls
  | builder => Primitive.deserialize builder rows nulls

/-- The mask that `null::deserialize` reads. -/
def Null.readMask (rows : Nat) : Reader ArrowError Bytes :=
  if 0 < rows then readBuffer .sync rows else pure []

/-! ## Nested values -/

namespace Lists

/-- `list_deser!` over a cast of the offsets. -/
def listDeser (large : Bool) (cast : UInt64 → Int) (inner : ChType) (decode : Decode)
    (item : TypedBuilder) (d : DataType) (rows : Nat) (nulls : Bytes) :
    Reader ArrowError ArrowArray := do
  let offsets ← bulkOffsets .sync rows
  let offsetBuffer ← Reader.ofOutcome (newOffsets (offsets.map cast))
  let totalValues := (offsets.getLastD 0).toNat
  let innerArray ← decode item d totalValues []
  let field : Field := ⟨listItemFieldName, innerArray.dataType, inner.stripLowCardinality.isNullable⟩
  let listArray ← Reader.ofOutcome
    (ListArray.new large field offsetBuffer innerArray (nestedNulls nulls))
  if listArray.len ≠ rows then
    Reader.fail (.deserializeError [.text "ListArray length ", .number listArray.len,
      .text " does not match expected rows ", .number rows])
  else pure listArray

/-- The arm of a list of fixed size. -/
def fixedDeser (size : Int32) (inner : ChType) (decode : Decode) (item : TypedBuilder)
    (d : DataType) (rows : Nat) (nulls : Bytes) : Reader ArrowError ArrowArray := do
  let innerArray ← decode item d rows []
  let field : Field := ⟨listItemFieldName, innerArray.dataType, inner.stripLowCardinality.isNullable⟩
  let listArray ← Reader.ofOutcome
    (FixedSizeListArray.new field size innerArray (nestedNulls nulls))
  if listArray.len ≠ rows then
    Reader.fail (.deserializeError [.text "ListArray length ", .number listArray.len,
      .text " does not match expected rows ", .number rows])
  else pure listArray

/-- `list::deserialize`. -/
def deserialize (inner : ChType) (decode : Decode) (kind : ListBuilder) (item : TypedBuilder)
    (d : DataType) (rows : Nat) (nulls : Bytes) : Reader ArrowError ArrowArray :=
  match itemOf d with
  | none => Reader.fail (.arrowDeserialize [.text "Unexpected list type: ", .dataType d])
  | some f =>
      match kind with
      | .list => listDeser false castI32 inner decode item f.dataType rows nulls
      | .largeList => listDeser true castI64 inner decode item f.dataType rows nulls
      | .fixedList size => fixedDeser size inner decode item f.dataType rows nulls

end Lists

namespace LowCardinality

open ClickhouseArrow.LowCardinality

/-- `try_get_u64_le` as a `usize`. -/
def tryGetUsize : Reader ArrowError Nat := (getUsize .sync).mapError .native

/-- `low_cardinality::deserialize`. -/
def deserialize (inner : ChType) (decode : Decode) (key : KeyType) (valueBuilder : TypedBuilder)
    (d : DataType) (rows : Nat) (nulls : Bytes) : Reader ArrowError ArrowArray :=
  match d with
  | .dictionary _ valueType => do
      let flags ← tryGetUsize
      match indexType flags with
      | none => Reader.fail (.arrowDeserialize
          [.text "LowCardinality: bad index type: ", .number (flags % 256)])
      | some indexes => do
          let dictSize ← tryGetUsize
          if hasDictionary flags then do
            let mask ← Reader.ofOutcome (dictionaryMask inner dictSize)
            let dictionary ← decode valueBuilder valueType dictSize mask
            let numRows ← tryGetUsize
            if numRows ≠ rows then
              Reader.fail (.deserializeError
                [.text "LowCardinality must be read in full. Expect ", .number rows,
                  .text " rows, got ", .number numRows])
            else do
              let keys ← deserKey .sync indexes key rows nulls
              Reader.ofOutcome (DictionaryArray.new key keys dictionary)
          else Reader.fail (.deserializeError [.text "LowCardinality: no dictionary provided"])
  | d => Reader.fail (.arrowDeserialize [.text "LowCardinality: data type ", .dataType d])

end LowCardinality

namespace Maps

/-- `map::deserialize`. -/
def deserialize (decodeKey decodeValue : Decode) (keyBuilder valueBuilder : TypedBuilder)
    (d : DataType) (rows : Nat) (nulls : Bytes) : Reader ArrowError ArrowArray := do
  let fields ← Reader.ofOutcome (getMapFields d)
  let offsets ← Lists.bulkOffsets .sync rows
  let offsetBuffer ← Reader.ofOutcome (newOffsets (offsets.map Lists.castI32))
  let totalPairs := (offsets.getLastD 0).toNat
  let keys ← decodeKey keyBuilder fields.1.dataType totalPairs []
  let values ← decodeValue valueBuilder fields.2.dataType totalPairs []
  let structField : Field := ⟨mapFieldName, .struct [fields.1, fields.2], false⟩
  let entries ← Reader.ofOutcome (StructArray.new [fields.1, fields.2] [keys, values] none)
  Reader.ofOutcome (MapArray.new structField offsetBuffer entries (nestedNulls nulls) false)

end Maps

namespace Tuples

/-- `tuple::deserialize`. -/
def deserialize
    (decode : List TypedBuilder → List Field → Nat → Reader ArrowError (List ArrowArray))
    (builders : List TypedBuilder) (d : DataType) (rows : Nat) (nulls : Bytes) :
    Reader ArrowError ArrowArray :=
  match d with
  | .struct fields =>
      if rows = 0 then Reader.ofOutcome (StructArray.tryNewWithLength fields emptyColumns none 0)
      else do
        let arrays ← decode builders fields rows
        Reader.ofOutcome (StructArray.new fields arrays (nestedNulls nulls))
  | d => Reader.fail (.arrowDeserialize [.text "Unexpected datatype for tuple: ", .dataType d])

end Tuples

/-! ## Columns of any type -/

mutual

/-- `Type::deserialize_arrow`. -/
def deserializeArrow (json : Bytes → Bytes) : ChType → Decode
  | .nullable inner => fun builder d rows _ => do
      let nulls ← Null.readMask rows
      deserializeArrow json inner builder d rows nulls
  | .array inner => fun builder d rows nulls =>
      match builder with
      | .list kind item => Lists.deserialize inner (deserializeArrow json inner) kind item d rows nulls
      | builder => decodeFlat json (.array inner) builder rows nulls
  | .lowCardinality (.nullable inner) => fun builder d rows nulls =>
      match builder with
      | .lowCardinality key value =>
          LowCardinality.deserialize (.nullable inner) (deserializeArrow json inner) key value d rows
            nulls
      | builder => decodeFlat json (.lowCardinality (.nullable inner)) builder rows nulls
  | .lowCardinality inner => fun builder d rows nulls =>
      match builder with
      | .lowCardinality key value =>
          LowCardinality.deserialize inner (deserializeArrow json inner) key value d rows nulls
      | builder => decodeFlat json (.lowCardinality inner) builder rows nulls
  | .map key value => fun builder d rows nulls =>
      match builder with
      | .map keyBuilder valueBuilder =>
          Maps.deserialize (deserializeArrow json key) (deserializeArrow json value) keyBuilder
            valueBuilder d rows nulls
      | builder => decodeFlat json (.map key value) builder rows nulls
  | .tuple items => fun builder d rows nulls =>
      match builder with
      | .tuple builders => Tuples.deserialize (deserializeColumns json items) builders d rows nulls
      | builder => decodeFlat json (.tuple items) builder rows nulls
  | t => fun builder _ rows nulls => decodeFlat json t builder rows nulls

/-- The columns of a tuple, each with the builder and the field it is zipped with. -/
def deserializeColumns (json : Bytes → Bytes) :
    List ChType → List TypedBuilder → List Field → Nat → Reader ArrowError (List ArrowArray)
  | t :: ts, b :: bs, f :: fs, rows => do
      let array ← deserializeArrow json t b f.dataType rows []
      let arrays ← deserializeColumns json ts bs fs rows
      pure (array :: arrays)
  | _, _, _, _ => pure []

end

end Arrow

end ClickhouseArrow
