import ClickhouseArrow.Arrow.Filling
import ClickhouseArrow.Arrow.ModeAgreement

/-!
# Columns of any type, over builders with rows

`Type::deserialize_arrow_async` and `Type::deserialize_arrow` with what they do to the builder.
The two differ in how they choose the branch and in the texts of some errors; the branches
themselves are the same over the two kinds of reader, and the mode is a parameter of them.  From
an empty builder each reads what its stateless namesake reads, and leaves the builder empty where
it succeeds.
-/

namespace ClickhouseArrow

open Wire

namespace Arrow

/-! ## Leaves -/

/-- Rows that are read in bulk, cast and put into an array. -/
def fillBulk (m : Mode) (α : Type) [Word α] {β : Type} (cast : α → β)
    (make : List (Option β) → ArrowArray) (rows : Nat) (nulls : Bytes) :
    Fill (List (Option β)) ArrowArray := do
  deserBulkInto m α cast rows nulls
  finish [] make

/-- Rows that are read one by one. -/
def fillRows {α β : Type} (read : Reader ArrowError α) (append : α → ArrowResult β)
    (make : List (Option β) → ArrowArray) (rows : Nat) (nulls : Bytes) :
    Fill (List (Option β)) ArrowArray := do
  optValuesInto nulls read append 0 rows
  finish [] make

/-- The rows of an enum. -/
def fillLabels {α : Type} [Word α] [DecidableEq α] (m : Mode) (notFound : α → ArrowError)
    (maxKey : Nat) (key : KeyType) (pairs : List (String × α)) (rows : Nat) (nulls : Bytes) :
    Fill (List Bytes × List (Option Nat)) ArrowArray := do
  enumRowsInto m notFound maxKey pairs nulls 0 rows
  finish ([], []) (finishLabels key)

/-- The arms of the builders of fixed-width values. -/
def Primitive.fill (m : Mode) (bad : ArrowError) (builder : TypedBuilder) (rows : Nat)
    (nulls : Bytes) : Fill builder.Rows ArrowArray :=
  match builder with
  | .int8 => fillBulk m Int8 id (finishPrimitive .int8) rows nulls
  | .int16 => fillBulk m Int16 id (finishPrimitive .int16) rows nulls
  | .int32 => fillBulk m Int32 id (finishPrimitive .int32) rows nulls
  | .int64 => fillBulk m Int64 id (finishPrimitive .int64) rows nulls
  | .uint8 => fillBulk m UInt8 id (finishPrimitive .uint8) rows nulls
  | .uint16 => fillBulk m UInt16 id (finishPrimitive .uint16) rows nulls
  | .uint32 => fillBulk m UInt32 id (finishPrimitive .uint32) rows nulls
  | .uint64 => fillBulk m UInt64 id (finishPrimitive .uint64) rows nulls
  | .float32 => fillBulk m UInt32 id (finishPrimitive .float32) rows nulls
  | .float64 => fillBulk m UInt64 id (finishPrimitive .float64) rows nulls
  | .decimal32 s =>
      fillBulk m Int32 (fun v : Int32 => BitVec.ofInt 128 v.toInt) (finishPrimitive (.decimal128 9 s))
        rows nulls
  | .decimal64 s =>
      fillBulk m Int64 (fun v : Int64 => BitVec.ofInt 128 v.toInt)
        (finishPrimitive (.decimal128 18 s)) rows nulls
  | .date =>
      fillBulk m UInt16 (fun v : UInt16 => Int32.ofNat v.toNat) (finishPrimitive .date32) rows nulls
  | .dateTime tz =>
      fillBulk m UInt32 (fun v : UInt32 => Int64.ofNat v.toNat)
        (finishPrimitive (.timestamp .second tz)) rows nulls
  | .dateTimeS tz => fillBulk m Int64 id (finishPrimitive (.timestamp .second tz)) rows nulls
  | .dateTimeMs tz => fillBulk m Int64 id (finishPrimitive (.timestamp .millisecond tz)) rows nulls
  | .dateTimeMu tz => fillBulk m Int64 id (finishPrimitive (.timestamp .microsecond tz)) rows nulls
  | .dateTimeNano tz => fillBulk m Int64 id (finishPrimitive (.timestamp .nanosecond tz)) rows nulls
  | .date32 => fillRows (readDate32 m) .ok (finishPrimitive .date32) rows nulls
  | .decimal128 s => fillRows (readDecimal128 m) .ok (finishPrimitive (.decimal128 38 s)) rows nulls
  | .decimal256 s => fillRows (readDecimal256 m) .ok (finishPrimitive (.decimal256 76 s)) rows nulls
  | _ => StateReader.fail bad

/-- The arms of the builders that are filled row by row, of which the last looks at the type as
well. -/
def Binary.fill (m : Mode) (json : Bytes → Bytes) (bad badType : ArrowError) (t : ChType)
    (builder : TypedBuilder) (rows : Nat) (nulls : Bytes) : Fill builder.Rows ArrowArray :=
  match builder with
  | .string => fillRows (fromUtf8Lossy <$> readText m) .ok (finishBytes .utf8) rows nulls
  | .object =>
      fillRows ((fun text => json (fromUtf8Lossy text)) <$> readText m) .ok (finishBytes .utf8) rows
        nulls
  | .binary => fillRows (readText m) .ok (finishBytes .binary) rows nulls
  | .fixedSizeBinary size =>
      match t with
      | .fixedSizedString n | .fixedSizedBinary n =>
          fillRows (readBuffer m n) (appendFixed size) (finishFixed size) rows nulls
      | .ipv4 =>
          fillRows (ipv4Octets <$> getLe UInt32 (eof m)) (appendFixed size) (finishFixed size) rows
            nulls
      | .ipv6 | .uuid | .int128 | .uint128 =>
          fillRows (Reader.takeExact (eof m) 16) (appendFixed size) (finishFixed size) rows nulls
      | .int256 | .uint256 =>
          fillRows (List.reverse <$> Reader.takeExact (eof m) 32) (appendFixed size)
            (finishFixed size) rows nulls
      | _ => StateReader.fail badType
  | _ => StateReader.fail bad

/-- The arms of the builders of enums. -/
def Enums.fill (m : Mode) (bad : ArrowError) (notFound8 : Int8 → ArrowError)
    (notFound16 : Int16 → ArrowError) (t : ChType) (builder : TypedBuilder) (rows : Nat)
    (nulls : Bytes) : Fill builder.Rows ArrowArray :=
  match builder with
  | .enum8 =>
      match t with
      | .enum8 pairs => fillLabels m notFound8 127 .int8 pairs rows nulls
      | t => StateReader.fail (.unexpectedType t)
  | .enum16 =>
      match t with
      | .enum16 pairs => fillLabels m notFound16 32767 .int16 pairs rows nulls
      | t => StateReader.fail (.unexpectedType t)
  | _ => StateReader.fail bad

section Leaves

theorem fillBulk_restores {α β : Type} [Word α] (m : Mode) (cast : α → β)
    (make : List (Option β) → ArrowArray) (rows : Nat) (nulls : Bytes) :
    Restores (Holds []) (fillBulk m α cast make rows nulls) (do
      let values ← deserBulk m α rows nulls
      pure (make (values.map (Option.map cast)))) := by
  apply restores_finish
  exact deserBulkInto_tracks m α cast rows nulls []

/-- Values that are put into the array as they are read. -/
theorem fillBulk_restores_id {α : Type} [Word α] (m : Mode) (make : List (Option α) → ArrowArray)
    (rows : Nat) (nulls : Bytes) :
    Restores (Holds []) (fillBulk m α id make rows nulls) (make <$> deserBulk m α rows nulls) := by
  have h := fillBulk_restores m id make rows nulls
  simpa only [Option.map_id, List.map_id, id_eq, bind_pure_comp] using h

theorem fillRows_restores {α β : Type} (read : Reader ArrowError α) (append : α → ArrowResult β)
    (make : List (Option β) → ArrowArray) (rows : Nat) (nulls : Bytes) :
    Restores (Holds []) (fillRows read append make rows nulls)
      (make <$> optValues nulls read append 0 rows) := by
  rw [map_eq_pure_bind]
  exact restores_finish (optValuesInto_tracks nulls read append 0 rows []) make

theorem fillLabels_restores {α : Type} [Word α] [DecidableEq α] (m : Mode)
    (notFound : α → ArrowError) (maxKey : Nat) (key : KeyType) (pairs : List (String × α))
    (rows : Nat) (nulls : Bytes) :
    Restores (Holds ([], [])) (fillLabels m notFound maxKey key pairs rows nulls)
      (finishLabels key <$> enumRows m notFound maxKey pairs nulls [] 0 rows) := by
  rw [map_eq_pure_bind]
  exact restores_finish (enumRowsInto_tracks m notFound maxKey pairs nulls 0 rows [] [])
    (finishLabels key)

/-- `primitive::deserialize_async`. -/
def Primitive.fillAsync : (builder : TypedBuilder) → Nat → Bytes → Fill builder.Rows ArrowArray :=
  Primitive.fill .async (.arrowDeserialize [.text "Unexpected builder type for primitive"])

/-- The arms of `deserialize_arrow`. -/
def Primitive.fillSync : (builder : TypedBuilder) → Nat → Bytes → Fill builder.Rows ArrowArray :=
  Primitive.fill .sync unexpectedBuilder

theorem Primitive.fillAsync_restores (builder : TypedBuilder) (rows : Nat) (nulls : Bytes) :
    Restores (Holds builder.empty) (Primitive.fillAsync builder rows nulls)
      (Primitive.deserializeAsync builder rows nulls) := by
  cases builder with
  | int8 | int16 | int32 | int64 | uint8 | uint16 | uint32 | uint64 | float32 | float64
  | dateTimeS | dateTimeMs | dateTimeMu | dateTimeNano =>
      exact fillBulk_restores_id .async _ rows nulls
  | decimal32 | decimal64 | date | dateTime => exact fillBulk_restores .async _ _ rows nulls
  | date32 | decimal128 | decimal256 => exact fillRows_restores _ _ _ rows nulls
  | _ => exact Restores.fail _

theorem Primitive.fillSync_restores (builder : TypedBuilder) (rows : Nat) (nulls : Bytes) :
    Restores (Holds builder.empty) (Primitive.fillSync builder rows nulls)
      (Primitive.deserialize builder rows nulls) := by
  cases builder with
  | int8 | int16 | int32 | int64 | uint8 | uint16 | uint32 | uint64 | float32 | float64
  | dateTimeS | dateTimeMs | dateTimeMu | dateTimeNano =>
      exact fillBulk_restores_id .sync _ rows nulls
  | decimal32 | decimal64 | date | dateTime => exact fillBulk_restores .sync _ _ rows nulls
  | date32 | decimal128 | decimal256 => exact fillRows_restores _ _ _ rows nulls
  | _ => exact Restores.fail _

/-- `binary::deserialize_async`. -/
def Binary.fillAsync (json : Bytes → Bytes) (t : ChType) :
    (builder : TypedBuilder) → Nat → Bytes → Fill builder.Rows ArrowArray :=
  Binary.fill .async json
    (.arrowDeserialize [.text "Unexpected builder type for binary: ", .type t])
    (.arrowDeserialize [.text "Unexpected type for FixedSizeBinary builder: ", .type t]) t

/-- The arms of `deserialize_arrow`. -/
def Binary.fillSync (json : Bytes → Bytes) (t : ChType) :
    (builder : TypedBuilder) → Nat → Bytes → Fill builder.Rows ArrowArray :=
  Binary.fill .sync json unexpectedBuilder (.unexpectedType t) t

theorem Binary.fillAsync_restores (json : Bytes → Bytes) (t : ChType) (builder : TypedBuilder)
    (rows : Nat) (nulls : Bytes) :
    Restores (Holds builder.empty) (Binary.fillAsync json t builder rows nulls)
      (Binary.deserializeAsync json t builder rows nulls) := by
  cases builder with
  | string | object | binary => exact fillRows_restores _ _ _ rows nulls
  | fixedSizeBinary size =>
      cases t with
      | fixedSizedString | fixedSizedBinary | ipv4 | ipv6 | uuid | int128 | uint128 | int256
      | uint256 => exact fillRows_restores _ _ _ rows nulls
      | _ => exact Restores.fail _
  | _ => exact Restores.fail _

theorem Binary.fillSync_restores (json : Bytes → Bytes) (t : ChType) (builder : TypedBuilder)
    (rows : Nat) (nulls : Bytes) :
    Restores (Holds builder.empty) (Binary.fillSync json t builder rows nulls)
      (Binary.deserialize json t builder rows nulls) := by
  cases builder with
  | string | object | binary => exact fillRows_restores _ _ _ rows nulls
  | fixedSizeBinary size =>
      cases t with
      | fixedSizedString | fixedSizedBinary | ipv4 | ipv6 | uuid | int128 | uint128 | int256
      | uint256 => exact fillRows_restores _ _ _ rows nulls
      | _ => exact Restores.fail _
  | _ => exact Restores.fail _

/-- `enums::deserialize_async`. -/
def Enums.fillAsync (t : ChType) :
    (builder : TypedBuilder) → Nat → Bytes → Fill builder.Rows ArrowArray :=
  Enums.fill .async (.arrowDeserialize [.text "Unexpected builder type for enum: ", .type t])
    (fun idx => .arrowDeserialize
      [.text "Invalid Enum8 index: ", .number idx.toInt, .text " not found in pairs"])
    (fun idx => .arrowDeserialize
      [.text "Invalid Enum16 index: ", .number idx.toInt, .text " not found in pairs"]) t

/-- The arms of `deserialize_arrow`, which names the wider enum for both. -/
def Enums.fillSync (t : ChType) :
    (builder : TypedBuilder) → Nat → Bytes → Fill builder.Rows ArrowArray :=
  Enums.fill .sync unexpectedBuilder
    (fun idx => .arrowDeserialize
      [.text "Invalid Enum16 index: ", .number idx.toInt, .text " not found in pairs"])
    (fun idx => .arrowDeserialize
      [.text "Invalid Enum16 index: ", .number idx.toInt, .text " not found in pairs"]) t

theorem Enums.fillAsync_restores (t : ChType) (builder : TypedBuilder) (rows : Nat)
    (nulls : Bytes) :
    Restores (Holds builder.empty) (Enums.fillAsync t builder rows nulls)
      (Enums.deserializeAsync t builder rows nulls) := by
  cases builder with
  | enum8 =>
      cases t with
      | enum8 pairs => exact fillLabels_restores .async _ 127 .int8 pairs rows nulls
      | _ => exact Restores.fail _
  | enum16 =>
      cases t with
      | enum16 pairs => exact fillLabels_restores .async _ 32767 .int16 pairs rows nulls
      | _ => exact Restores.fail _
  | _ => exact Restores.fail _

theorem Enums.fillSync_restores (t : ChType) (builder : TypedBuilder) (rows : Nat)
    (nulls : Bytes) :
    Restores (Holds builder.empty) (Enums.fillSync t builder rows nulls)
      (Enums.deserialize t builder rows nulls) := by
  cases builder with
  | enum8 =>
      cases t with
      | enum8 pairs => exact fillLabels_restores .sync _ 127 .int8 pairs rows nulls
      | _ => exact Restores.fail _
  | enum16 =>
      cases t with
      | enum16 pairs => exact fillLabels_restores .sync _ 32767 .int16 pairs rows nulls
      | _ => exact Restores.fail _
  | _ => exact Restores.fail _

/-- `decodeFlat`, over builders with rows. -/
def fillFlat (json : Bytes → Bytes) (t : ChType) (builder : TypedBuilder) (rows : Nat)
    (nulls : Bytes) : Fill builder.Rows ArrowArray :=
  match builder with
  | .string => Binary.fillSync json t .string rows nulls
  | .object => Binary.fillSync json t .object rows nulls
  | .binary => Binary.fillSync json t .binary rows nulls
  | .fixedSizeBinary size => Binary.fillSync json t (.fixedSizeBinary size) rows nulls
  | .enum8 => Enums.fillSync t .enum8 rows nulls
  | .enum16 => Enums.fillSync t .enum16 rows nulls
  | builder => Primitive.fillSync builder rows nulls

theorem fillFlat_restores (json : Bytes → Bytes) (t : ChType) (builder : TypedBuilder) (rows : Nat)
    (nulls : Bytes) :
    Restores (Holds builder.empty) (fillFlat json t builder rows nulls)
      (decodeFlat json t builder rows nulls) := by
  cases builder with
  | string | object | binary | fixedSizeBinary => exact Binary.fillSync_restores json t _ rows nulls
  | enum8 | enum16 => exact Enums.fillSync_restores t _ rows nulls
  | _ => exact Primitive.fillSync_restores _ rows nulls

end Leaves

/-! ## Nested values -/

/-- The decoder of an inner column, which fills the builder that it is given. -/
abbrev FillDecode :=
  (builder : TypedBuilder) → DataType → Nat → Bytes → Fill builder.Rows ArrowArray

/-- The decoders of the columns of a tuple. -/
abbrev FillEach :=
  (builders : List TypedBuilder) → List Field → Nat →
    Fill (TypedBuilder.Rows.rowsOfEach builders) (List ArrowArray)

/-- From an empty builder the one decoder reads what the other one reads, and leaves the builder
empty where it succeeds. -/
def Refills (fill : FillDecode) (decode : Decode) : Prop :=
  ∀ b d rows nulls, Restores (Holds b.empty) (fill b d rows nulls) (decode b d rows nulls)

def RefillsEach (fill : FillEach)
    (decode : List TypedBuilder → List Field → Nat → Reader ArrowError (List ArrowArray)) : Prop :=
  ∀ bs fields rows, Restores (Holds (TypedBuilder.empty.emptyOfEach bs)) (fill bs fields rows)
    (decode bs fields rows)

namespace Lists

/-- `list_deser!` over a cast of the offsets. -/
def listFill (m : Mode) (large : Bool) (cast : UInt64 → Int) (inner : ChType) (fill : FillDecode)
    (item : TypedBuilder) (d : DataType) (rows : Nat) (nulls : Bytes) :
    Fill item.Rows ArrowArray := do
  let offsets ← fillOffsets m rows
  let offsetBuffer ← StateReader.lift (Reader.ofOutcome (newOffsets (offsets.map cast)))
  let innerArray ← fill item d (offsets.getLastD 0).toNat []
  let listArray ← StateReader.lift (Reader.ofOutcome (ListArray.new large
    ⟨listItemFieldName, innerArray.dataType, inner.stripLowCardinality.isNullable⟩ offsetBuffer
    innerArray (nestedNulls nulls)))
  if listArray.len ≠ rows then
    StateReader.fail (.deserializeError [.text "ListArray length ", .number listArray.len,
      .text " does not match expected rows ", .number rows])
  else pure listArray

/-- The arm of a list of fixed size. -/
def fixedFill (size : Int32) (inner : ChType) (fill : FillDecode) (item : TypedBuilder)
    (d : DataType) (rows : Nat) (nulls : Bytes) : Fill item.Rows ArrowArray := do
  let innerArray ← fill item d rows []
  let listArray ← StateReader.lift (Reader.ofOutcome (FixedSizeListArray.new
    ⟨listItemFieldName, innerArray.dataType, inner.stripLowCardinality.isNullable⟩ size
    innerArray (nestedNulls nulls)))
  if listArray.len ≠ rows then
    StateReader.fail (.deserializeError [.text "ListArray length ", .number listArray.len,
      .text " does not match expected rows ", .number rows])
  else pure listArray

/-- `list::deserialize_async`. -/
def fillAsync (inner : ChType) (fill : FillDecode) : FillDecode := fun builder d rows nulls =>
  match itemOf d with
  | none => StateReader.fail (.arrowDeserialize [.text "Unexpected list type: ", .dataType d])
  | some item =>
      match builder with
      | .list .list b => listFill .async false castI32 inner fill b item.dataType rows nulls
      | .list .largeList b => listFill .async true castI64 inner fill b item.dataType rows nulls
      | .list (.fixedList size) b => fixedFill size inner fill b item.dataType rows nulls
      | b => StateReader.fail (.arrowDeserialize [.text "Unexpected builder type: ", .text b.name])

/-- `list::deserialize`. -/
def fillSync (inner : ChType) (fill : FillDecode) (kind : ListBuilder) (item : TypedBuilder)
    (d : DataType) (rows : Nat) (nulls : Bytes) : Fill item.Rows ArrowArray :=
  match itemOf d with
  | none => StateReader.fail (.arrowDeserialize [.text "Unexpected list type: ", .dataType d])
  | some f =>
      match kind with
      | .list => listFill .sync false castI32 inner fill item f.dataType rows nulls
      | .largeList => listFill .sync true castI64 inner fill item f.dataType rows nulls
      | .fixedList size => fixedFill size inner fill item f.dataType rows nulls

variable {fill : FillDecode} {decode : Decode}

theorem listFill_restores (h : Refills fill decode) (m : Mode) (large : Bool) (cast : UInt64 → Int)
    (inner : ChType) (item : TypedBuilder) (d : DataType) (rows : Nat) (nulls : Bytes) :
    Restores (Holds item.empty) (listFill m large cast inner fill item d rows nulls) (do
      let offsets ← bulkOffsets m rows
      let offsetBuffer ← Reader.ofOutcome (newOffsets (offsets.map cast))
      let innerArray ← decode item d (offsets.getLastD 0).toNat []
      let listArray ← Reader.ofOutcome (ListArray.new large
        ⟨listItemFieldName, innerArray.dataType, inner.stripLowCardinality.isNullable⟩ offsetBuffer
        innerArray (nestedNulls nulls))
      if listArray.len ≠ rows then
        Reader.fail (.deserializeError [.text "ListArray length ", .number listArray.len,
          .text " does not match expected rows ", .number rows])
      else pure listArray) := by
  apply Restores.bind (fillOffsets_restores m rows item.empty)
  intro offsets
  apply Restores.bind (Restores.lift _)
  intro offsetBuffer
  apply Restores.bind (h item d _ [])
  intro innerArray
  apply Restores.bind (Restores.lift _)
  intro listArray
  exact Tracks.ite (fun _ => Restores.fail _) fun _ => Restores.pure _

theorem fixedFill_restores (h : Refills fill decode) (size : Int32) (inner : ChType)
    (item : TypedBuilder) (d : DataType) (rows : Nat) (nulls : Bytes) :
    Restores (Holds item.empty) (fixedFill size inner fill item d rows nulls)
      (fixedDeserAsync size inner decode item d rows nulls) := by
  apply Restores.bind (h item d rows [])
  intro innerArray
  apply Restores.bind (Restores.lift _)
  intro listArray
  exact Tracks.ite (fun _ => Restores.fail _) fun _ => Restores.pure _

theorem fillAsync_refills (h : Refills fill decode) (inner : ChType) :
    Refills (fillAsync inner fill) (deserializeAsync inner decode) := by
  intro builder d rows nulls
  rw [fillAsync, deserializeAsync]
  cases itemOf d with
  | none => exact Restores.fail _
  | some item =>
      cases builder with
      | list kind b =>
          cases kind with
          | list => exact listFill_restores h .async false castI32 inner b _ rows nulls
          | largeList => exact listFill_restores h .async true castI64 inner b _ rows nulls
          | fixedList size => exact fixedFill_restores h size inner b _ rows nulls
      | _ => exact Restores.fail _

theorem fillSync_restores (h : Refills fill decode) (inner : ChType) (kind : ListBuilder)
    (item : TypedBuilder) (d : DataType) (rows : Nat) (nulls : Bytes) :
    Restores (Holds item.empty) (fillSync inner fill kind item d rows nulls)
      (deserialize inner decode kind item d rows nulls) := by
  rw [fillSync, deserialize]
  cases itemOf d with
  | none => exact Restores.fail _
  | some f =>
      cases kind with
      | list => exact listFill_restores h .sync false castI32 inner item _ rows nulls
      | largeList => exact listFill_restores h .sync true castI64 inner item _ rows nulls
      | fixedList size => exact fixedFill_restores h size inner item _ rows nulls

end Lists

namespace LowCardinality

open ClickhouseArrow.LowCardinality

/-- `deser_key!`, with the end of the builder of the keys. -/
def fillKeys (m : Mode) (indexes : IndexType) (key : KeyType) (rows : Nat) (nulls : Bytes) :
    Fill (List (Option Int)) (List (Option Int)) :=
  match indexes with
  | .uint8 => do
      deserBulkInto m UInt8 (fun k : UInt8 => castKey key k.toNat) rows nulls
      finish [] id
  | .uint16 => do
      deserBulkInto m UInt16 (fun k : UInt16 => castKey key k.toNat) rows nulls
      finish [] id
  | .uint32 => do
      deserBulkInto m UInt32 (fun k : UInt32 => castKey key k.toNat) rows nulls
      finish [] id
  | .uint64 => do
      deserBulkInto m UInt64 (fun k : UInt64 => castKey key k.toNat) rows nulls
      finish [] id

/-- What follows the flag word. -/
def fillIndexed (m : Mode) (indexes : IndexType) (flags : Nat) (inner : ChType) (fill : FillDecode)
    (key : KeyType) (value : TypedBuilder) (valueType : DataType) (rows : Nat) (nulls : Bytes) :
    Fill (List (Option Int) × value.Rows) ArrowArray := do
  let dictSize ← StateReader.lift ((getUsize m).mapError .native)
  if hasDictionary flags then do
    let mask ← StateReader.lift (Reader.ofOutcome (dictionaryMask inner dictSize))
    let dictionary ← onSnd (fill value valueType dictSize mask)
    let numRows ← StateReader.lift ((getUsize m).mapError .native)
    if numRows ≠ rows then
      StateReader.fail (.deserializeError
        [.text "LowCardinality must be read in full. Expect ", .number rows,
          .text " rows, got ", .number numRows])
    else do
      let keys ← onFst (fillKeys m indexes key rows nulls)
      StateReader.lift (Reader.ofOutcome (DictionaryArray.new key keys dictionary))
  else StateReader.fail (.deserializeError [.text "LowCardinality: no dictionary provided"])

/-- The two decoders of a dictionary, which report a bad type of the indexes each its own way. -/
def fillDictionary (m : Mode) (badIndex : Nat → ArrowError) (inner : ChType) (fill : FillDecode)
    (key : KeyType) (value : TypedBuilder) (valueType : DataType) (rows : Nat) (nulls : Bytes) :
    Fill (List (Option Int) × value.Rows) ArrowArray := do
  let flags ← StateReader.lift ((getUsize m).mapError .native)
  match indexType flags with
  | none => StateReader.fail (badIndex (flags % 256))
  | some indexes => fillIndexed m indexes flags inner fill key value valueType rows nulls

/-- `low_cardinality::deserialize_async`. -/
def fillAsync (inner : ChType) (fill : FillDecode) : FillDecode := fun builder d rows nulls =>
  match d with
  | .dictionary _ valueType =>
      match builder with
      | .lowCardinality key value =>
          fillDictionary .async (fun x => .deserializeError
            [.text "LowCardinality: bad index type: ", .number x]) inner fill key value valueType
            rows nulls
      | b => StateReader.fail (.arrowDeserialize [.text "Unexpected builder type: ", .text b.name])
  | d => StateReader.fail (.arrowDeserialize [.text "Unexpected dict value type: ", .dataType d])

/-- `low_cardinality::deserialize`. -/
def fillSync (inner : ChType) (fill : FillDecode) (key : KeyType) (value : TypedBuilder)
    (d : DataType) (rows : Nat) (nulls : Bytes) : Fill (List (Option Int) × value.Rows) ArrowArray :=
  match d with
  | .dictionary _ valueType =>
      fillDictionary .sync (fun x => .arrowDeserialize
        [.text "LowCardinality: bad index type: ", .number x]) inner fill key value valueType rows
        nulls
  | d => StateReader.fail (.arrowDeserialize [.text "LowCardinality: data type ", .dataType d])

theorem fillKeys_restores (m : Mode) (indexes : IndexType) (key : KeyType) (rows : Nat)
    (nulls : Bytes) :
    Restores (Holds []) (fillKeys m indexes key rows nulls) (deserKey m indexes key rows nulls) := by
  cases indexes with
  | uint8 => exact restores_finish (deserBulkInto_tracks m UInt8 _ rows nulls []) id
  | uint16 => exact restores_finish (deserBulkInto_tracks m UInt16 _ rows nulls []) id
  | uint32 => exact restores_finish (deserBulkInto_tracks m UInt32 _ rows nulls []) id
  | uint64 => exact restores_finish (deserBulkInto_tracks m UInt64 _ rows nulls []) id

variable {fill : FillDecode} {decode : Decode}

theorem fillIndexed_restores (h : Refills fill decode) (m : Mode) (indexes : IndexType)
    (flags : Nat) (inner : ChType) (key : KeyType) (value : TypedBuilder) (valueType : DataType)
    (rows : Nat) (nulls : Bytes) :
    Restores (Holds (([] : List (Option Int)), value.empty))
      (fillIndexed m indexes flags inner fill key value valueType rows nulls) (do
        let dictSize ← (getUsize m).mapError .native
        if hasDictionary flags then do
          let mask ← Reader.ofOutcome (dictionaryMask inner dictSize)
          let dictionary ← decode value valueType dictSize mask
          let numRows ← (getUsize m).mapError .native
          if numRows ≠ rows then
            Reader.fail (.deserializeError
              [.text "LowCardinality must be read in full. Expect ", .number rows,
                .text " rows, got ", .number numRows])
          else do
            let keys ← deserKey m indexes key rows nulls
            Reader.ofOutcome (DictionaryArray.new key keys dictionary)
        else
          Reader.fail (.deserializeError [.text "LowCardinality: no dictionary provided"])) := by
  apply Restores.bind (Restores.lift _)
  intro dictSize
  refine Tracks.ite (fun _ => ?_) fun _ => Restores.fail _
  apply Restores.bind (Restores.lift _)
  intro mask
  apply Restores.bind (onSnd_restores [] (h value valueType dictSize mask))
  intro dictionary
  apply Restores.bind (Restores.lift _)
  intro numRows
  refine Tracks.ite (fun _ => Restores.fail _) fun _ => ?_
  apply Restores.bind (onFst_restores _ (fillKeys_restores m indexes key rows nulls))
  intro keys
  exact Restores.lift _

theorem fillAsync_refills (h : Refills fill decode) (inner : ChType) :
    Refills (fillAsync inner fill) (deserializeAsync inner decode) := by
  intro builder d rows nulls
  cases d with
  | dictionary keyType valueType =>
      cases builder with
      | lowCardinality key value =>
          apply Restores.bind (Restores.lift _)
          intro flags
          cases indexType flags with
          | none => exact Restores.fail _
          | some indexes =>
              exact fillIndexed_restores h .async indexes flags inner key value valueType rows nulls
      | _ => exact Restores.fail _
  | _ => exact Restores.fail _

theorem fillSync_restores (h : Refills fill decode) (inner : ChType) (key : KeyType)
    (value : TypedBuilder) (d : DataType) (rows : Nat) (nulls : Bytes) :
    Restores (Holds (([] : List (Option Int)), value.empty))
      (fillSync inner fill key value d rows nulls)
      (deserialize inner decode key value d rows nulls) := by
  cases d with
  | dictionary keyType valueType =>
      apply Restores.bind (Restores.lift _)
      intro flags
      cases indexType flags with
      | none => exact Restores.fail _
      | some indexes =>
          exact fillIndexed_restores h .sync indexes flags inner key value valueType rows nulls
  | _ => exact Restores.fail _

end LowCardinality

namespace Maps

/-- The part of `map::deserialize_async` and `map::deserialize` behind the choice of the
builders. -/
def fillEntries (m : Mode) (fillKey fillValue : FillDecode) (fields : Field × Field)
    (keyBuilder valueBuilder : TypedBuilder) (rows : Nat) (nulls : Bytes) :
    Fill (keyBuilder.Rows × valueBuilder.Rows) ArrowArray := do
  let offsets ← Lists.fillOffsets m rows
  let offsetBuffer ← StateReader.lift (Reader.ofOutcome (newOffsets (offsets.map Lists.castI32)))
  let keys ← onFst (fillKey keyBuilder fields.1.dataType (offsets.getLastD 0).toNat [])
  let values ← onSnd (fillValue valueBuilder fields.2.dataType (offsets.getLastD 0).toNat [])
  let entries ← StateReader.lift
    (Reader.ofOutcome (StructArray.new [fields.1, fields.2] [keys, values] none))
  StateReader.lift (Reader.ofOutcome (MapArray.new
    ⟨mapFieldName, .struct [fields.1, fields.2], false⟩ offsetBuffer entries (nestedNulls nulls)
    false))

/-- The choice of the builders. -/
def fillBuilder (fillKey fillValue : FillDecode) (fields : Field × Field) (builder : TypedBuilder)
    (rows : Nat) (nulls : Bytes) : Fill builder.Rows ArrowArray :=
  match builder with
  | .map keyBuilder valueBuilder =>
      fillEntries .async fillKey fillValue fields keyBuilder valueBuilder rows nulls
  | b => StateReader.fail (.arrowDeserialize [.text "Unexpected builder for map: ", .text b.name])

/-- `map::deserialize_async`. -/
def fillAsync (fillKey fillValue : FillDecode) : FillDecode := fun builder d rows nulls => do
  let fields ← StateReader.lift (Reader.ofOutcome (getMapFields d))
  fillBuilder fillKey fillValue fields builder rows nulls

/-- `map::deserialize`. -/
def fillSync (fillKey fillValue : FillDecode) (keyBuilder valueBuilder : TypedBuilder)
    (d : DataType) (rows : Nat) (nulls : Bytes) :
    Fill (keyBuilder.Rows × valueBuilder.Rows) ArrowArray := do
  let fields ← StateReader.lift (Reader.ofOutcome (getMapFields d))
  fillEntries .sync fillKey fillValue fields keyBuilder valueBuilder rows nulls

variable {fillKey fillValue : FillDecode} {decodeKey decodeValue : Decode}

theorem fillEntries_restores (hkey : Refills fillKey decodeKey)
    (hvalue : Refills fillValue decodeValue) (m : Mode) (fields : Field × Field)
    (keyBuilder valueBuilder : TypedBuilder) (rows : Nat) (nulls : Bytes) :
    Restores (Holds (keyBuilder.empty, valueBuilder.empty))
      (fillEntries m fillKey fillValue fields keyBuilder valueBuilder rows nulls) (do
        let offsets ← Lists.bulkOffsets m rows
        let offsetBuffer ← Reader.ofOutcome (newOffsets (offsets.map Lists.castI32))
        let keys ← decodeKey keyBuilder fields.1.dataType (offsets.getLastD 0).toNat []
        let values ← decodeValue valueBuilder fields.2.dataType (offsets.getLastD 0).toNat []
        let entries ← Reader.ofOutcome (StructArray.new [fields.1, fields.2] [keys, values] none)
        Reader.ofOutcome (MapArray.new ⟨mapFieldName, .struct [fields.1, fields.2], false⟩
          offsetBuffer entries (nestedNulls nulls) false)) := by
  apply Restores.bind (fillOffsets_restores m rows _)
  intro offsets
  apply Restores.bind (Restores.lift _)
  intro offsetBuffer
  apply Restores.bind (onFst_restores _ (hkey keyBuilder _ _ []))
  intro keys
  apply Restores.bind (onSnd_restores _ (hvalue valueBuilder _ _ []))
  intro values
  apply Restores.bind (Restores.lift _)
  intro entries
  exact Restores.lift _

theorem fillAsync_refills (hkey : Refills fillKey decodeKey)
    (hvalue : Refills fillValue decodeValue) :
    Refills (fillAsync fillKey fillValue) (deserializeAsync decodeKey decodeValue) := by
  intro builder d rows nulls
  apply Restores.bind (Restores.lift _)
  intro fields
  cases builder with
  | map keyBuilder valueBuilder =>
      exact fillEntries_restores hkey hvalue .async fields keyBuilder valueBuilder rows nulls
  | _ => exact Restores.fail _

theorem fillSync_restores (hkey : Refills fillKey decodeKey)
    (hvalue : Refills fillValue decodeValue) (keyBuilder valueBuilder : TypedBuilder) (d : DataType)
    (rows : Nat) (nulls : Bytes) :
    Restores (Holds (keyBuilder.empty, valueBuilder.empty))
      (fillSync fillKey fillValue keyBuilder valueBuilder d rows nulls)
      (deserialize decodeKey decodeValue keyBuilder valueBuilder d rows nulls) := by
  apply Restores.bind (Restores.lift _)
  intro fields
  exact fillEntries_restores hkey hvalue .sync fields keyBuilder valueBuilder rows nulls

end Maps

namespace Tuples

/-- The columns of a tuple and their struct.  A tuple without rows leaves its builders alone. -/
def fillStruct (fill : FillEach) (fields : List Field) (builders : List TypedBuilder) (rows : Nat)
    (nulls : Bytes) : Fill (TypedBuilder.Rows.rowsOfEach builders) ArrowArray :=
  if rows = 0 then
    StateReader.lift (Reader.ofOutcome (StructArray.tryNewWithLength fields emptyColumns none 0))
  else do
    let arrays ← fill builders fields rows
    StateReader.lift (Reader.ofOutcome (StructArray.new fields arrays (nestedNulls nulls)))

/-- `tuple::deserialize_async`. -/
def fillAsync (fill : FillEach) : FillDecode := fun builder d rows nulls =>
  match d with
  | .struct fields =>
      match builder with
      | .tuple builders => fillStruct fill fields builders rows nulls
      | b => StateReader.fail (.arrowDeserialize [.text "Unexpected tuple builder: ", .text b.name])
  | d => StateReader.fail (.arrowDeserialize [.text "Unsupported tuple datatype: ", .dataType d])

/-- `tuple::deserialize`. -/
def fillSync (fill : FillEach) (builders : List TypedBuilder) (d : DataType) (rows : Nat)
    (nulls : Bytes) : Fill (TypedBuilder.Rows.rowsOfEach builders) ArrowArray :=
  match d with
  | .struct fields => fillStruct fill fields builders rows nulls
  | d =>
      StateReader.fail (.arrowDeserialize [.text "Unexpected datatype for tuple: ", .dataType d])

variable {fill : FillEach}
  {decode : List TypedBuilder → List Field → Nat → Reader ArrowError (List ArrowArray)}

theorem fillAsync_refills (h : RefillsEach fill decode) :
    Refills (fillAsync fill) (deserializeAsync decode) := by
  intro builder d rows nulls
  cases d with
  | struct fields =>
      cases builder with
      | tuple builders =>
          apply Tracks.ite
          · intro _
            exact Restores.lift _
          · intro _
            apply Restores.bind (h builders fields rows)
            intro arrays
            exact Restores.lift _
      | _ => exact Restores.fail _
  | _ => exact Restores.fail _

theorem fillSync_restores (h : RefillsEach fill decode) (builders : List TypedBuilder)
    (d : DataType) (rows : Nat) (nulls : Bytes) :
    Restores (Holds (TypedBuilder.empty.emptyOfEach builders)) (fillSync fill builders d rows nulls)
      (deserialize decode builders d rows nulls) := by
  cases d with
  | struct fields =>
      apply Tracks.ite
      · intro _
        exact Restores.lift _
      · intro _
        apply Restores.bind (h builders fields rows)
        intro arrays
        exact Restores.lift _
  | _ => exact Restores.fail _

end Tuples

/-! ## Columns of any type -/

/-- So many columns of floating-point numbers. -/
def fillFloatsAsync : Nat → FillEach
  | n + 1, b :: bs, _ :: fs, rows => do
      let array ← onFst (Primitive.fillAsync b rows [])
      let arrays ← onSnd (fillFloatsAsync n bs fs rows)
      pure (array :: arrays)
  | _, _, _, _ => pure []

/-- The geo types, read as their aliases. -/
def fillPointAsync : FillDecode := Tuples.fillAsync (fillFloatsAsync 2)

def fillRingAsync : FillDecode := Lists.fillAsync (.tuple [.float64, .float64]) fillPointAsync

def fillPolygonAsync : FillDecode := Lists.fillAsync ringType fillRingAsync

def fillMultiPolygonAsync : FillDecode := Lists.fillAsync (.array ringType) fillPolygonAsync

/-- The types that are not nested. -/
def fillFlatAsync (json : Bytes → Bytes) (t : ChType) : FillDecode := fun builder _ rows nulls =>
  match t with
  | .string | .fixedSizedString _ | .binary | .fixedSizedBinary _ | .object
  | .int128 | .int256 | .uint128 | .uint256 | .ipv6 | .uuid | .ipv4 =>
      Binary.fillAsync json t builder rows nulls
  | .enum8 _ | .enum16 _ => Enums.fillAsync t builder rows nulls
  | .point => fillPointAsync builder pointOf rows nulls
  | .ring => fillRingAsync builder (listOf (pointOf, false)) rows nulls
  | .polygon => fillPolygonAsync builder (listOf (listOf (pointOf, false), false)) rows nulls
  | .multiPolygon =>
      fillMultiPolygonAsync builder (listOf (listOf (listOf (pointOf, false), false), false)) rows
        nulls
  | _ => Primitive.fillAsync builder rows nulls

mutual

/-- `Type::deserialize_arrow_async`. -/
def fillArrowAsync (json : Bytes → Bytes) : ChType → FillDecode
  | .nullable inner => fun builder d rows _ => do
      let nulls ← StateReader.lift (Null.readMaskAsync rows)
      fillArrowAsync json inner builder d rows nulls
  | .array inner => Lists.fillAsync inner (fillArrowAsync json inner)
  | .lowCardinality (.nullable inner) =>
      LowCardinality.fillAsync (.nullable inner) (fillArrowAsync json inner)
  | .lowCardinality inner => LowCardinality.fillAsync inner (fillArrowAsync json inner)
  | .map key value => Maps.fillAsync (fillArrowAsync json key) (fillArrowAsync json value)
  | .tuple items => Tuples.fillAsync (fillColumnsAsync json items)
  | t => fillFlatAsync json t

/-- The columns of a tuple, each with the builder and the field it is zipped with. -/
def fillColumnsAsync (json : Bytes → Bytes) : List ChType → FillEach
  | t :: ts, b :: bs, f :: fs, rows => do
      let array ← onFst (fillArrowAsync json t b f.dataType rows [])
      let arrays ← onSnd (fillColumnsAsync json ts bs fs rows)
      pure (array :: arrays)
  | _, _, _, _ => pure []

end

mutual

/-- `Type::deserialize_arrow`. -/
def fillArrow (json : Bytes → Bytes) : ChType → FillDecode
  | .nullable inner => fun builder d rows _ => do
      let nulls ← StateReader.lift (Null.readMask rows)
      fillArrow json inner builder d rows nulls
  | .array inner => fun builder d rows nulls =>
      match builder with
      | .list kind item => Lists.fillSync inner (fillArrow json inner) kind item d rows nulls
      | builder => fillFlat json (.array inner) builder rows nulls
  | .lowCardinality (.nullable inner) => fun builder d rows nulls =>
      match builder with
      | .lowCardinality key value =>
          LowCardinality.fillSync (.nullable inner) (fillArrow json inner) key value d rows nulls
      | builder => fillFlat json (.lowCardinality (.nullable inner)) builder rows nulls
  | .lowCardinality inner => fun builder d rows nulls =>
      match builder with
      | .lowCardinality key value =>
          LowCardinality.fillSync inner (fillArrow json inner) key value d rows nulls
      | builder => fillFlat json (.lowCardinality inner) builder rows nulls
  | .map key value => fun builder d rows nulls =>
      match builder with
      | .map keyBuilder valueBuilder =>
          Maps.fillSync (fillArrow json key) (fillArrow json value) keyBuilder valueBuilder d rows
            nulls
      | builder => fillFlat json (.map key value) builder rows nulls
  | .tuple items => fun builder d rows nulls =>
      match builder with
      | .tuple builders => Tuples.fillSync (fillColumns json items) builders d rows nulls
      | builder => fillFlat json (.tuple items) builder rows nulls
  | t => fun builder _ rows nulls => fillFlat json t builder rows nulls

/-- The columns of a tuple, each with the builder and the field it is zipped with. -/
def fillColumns (json : Bytes → Bytes) : List ChType → FillEach
  | t :: ts, b :: bs, f :: fs, rows => do
      let array ← onFst (fillArrow json t b f.dataType rows [])
      let arrays ← onSnd (fillColumns json ts bs fs rows)
      pure (array :: arrays)
  | _, _, _, _ => pure []

end

/-- A column and the columns behind it. -/
theorem cons_restores {b : TypedBuilder} {bs : List TypedBuilder} {p : Fill b.Rows ArrowArray}
    {q : Reader ArrowError ArrowArray}
    {ps : Fill (TypedBuilder.Rows.rowsOfEach bs) (List ArrowArray)}
    {qs : Reader ArrowError (List ArrowArray)} (hp : Restores (Holds b.empty) p q)
    (hps : Restores (Holds (TypedBuilder.empty.emptyOfEach bs)) ps qs) :
    Restores (Holds (b.empty, TypedBuilder.empty.emptyOfEach bs))
      (do
        let array ← onFst p
        let arrays ← onSnd ps
        pure (array :: arrays))
      (do
        let array ← q
        let arrays ← qs
        pure (array :: arrays)) := by
  apply Restores.bind (onFst_restores _ hp)
  intro array
  apply Restores.bind (onSnd_restores _ hps)
  intro arrays
  exact Restores.pure _

theorem fillFloatsAsync_refills (n : Nat) : RefillsEach (fillFloatsAsync n) (decodeFloatsAsync n) := by
  induction n with
  | zero =>
      intro bs fields rows
      exact Restores.pure []
  | succ n ih =>
      intro bs fields rows
      cases bs with
      | nil => exact Restores.pure []
      | cons b bs =>
          cases fields with
          | nil => exact Restores.pure []
          | cons f fs => exact cons_restores (Primitive.fillAsync_restores b rows []) (ih bs fs rows)

theorem fillPointAsync_refills : Refills fillPointAsync decodePointAsync :=
  Tuples.fillAsync_refills (fillFloatsAsync_refills 2)

theorem fillRingAsync_refills : Refills fillRingAsync decodeRingAsync :=
  Lists.fillAsync_refills fillPointAsync_refills _

theorem fillPolygonAsync_refills : Refills fillPolygonAsync decodePolygonAsync :=
  Lists.fillAsync_refills fillRingAsync_refills _

theorem fillMultiPolygonAsync_refills : Refills fillMultiPolygonAsync decodeMultiPolygonAsync :=
  Lists.fillAsync_refills fillPolygonAsync_refills _

theorem fillFlatAsync_refills (json : Bytes → Bytes) (t : ChType) :
    Refills (fillFlatAsync json t) (decodeFlatAsync json t) := by
  intro builder d rows nulls
  cases t with
  | string | fixedSizedString | binary | fixedSizedBinary | object | int128 | int256 | uint128
  | uint256 | ipv6 | uuid | ipv4 => exact Binary.fillAsync_restores json _ builder rows nulls
  | enum8 | enum16 => exact Enums.fillAsync_restores _ builder rows nulls
  | point => exact fillPointAsync_refills builder _ rows nulls
  | ring => exact fillRingAsync_refills builder _ rows nulls
  | polygon => exact fillPolygonAsync_refills builder _ rows nulls
  | multiPolygon => exact fillMultiPolygonAsync_refills builder _ rows nulls
  | _ => exact Primitive.fillAsync_restores builder rows nulls

theorem fillColumnsAsync_refills (json : Bytes → Bytes) {ts : List ChType}
    (ih : ∀ t ∈ ts, Refills (fillArrowAsync json t) (deserializeArrowAsync json t)) :
    RefillsEach (fillColumnsAsync json ts) (deserializeColumnsAsync json ts) := by
  induction ts with
  | nil =>
      intro bs fields rows
      exact Restores.pure []
  | cons t ts ihts =>
      intro bs fields rows
      cases bs with
      | nil => exact Restores.pure []
      | cons b bs =>
          cases fields with
          | nil => exact Restores.pure []
          | cons f fs =>
              exact cons_restores (ih t List.mem_cons_self b f.dataType rows [])
                (ihts (fun u hu => ih u (List.mem_cons_of_mem t hu)) bs fs rows)

theorem fillColumns_refills (json : Bytes → Bytes) {ts : List ChType}
    (ih : ∀ t ∈ ts, Refills (fillArrow json t) (deserializeArrow json t)) :
    RefillsEach (fillColumns json ts) (deserializeColumns json ts) := by
  induction ts with
  | nil =>
      intro bs fields rows
      exact Restores.pure []
  | cons t ts ihts =>
      intro bs fields rows
      cases bs with
      | nil => exact Restores.pure []
      | cons b bs =>
          cases fields with
          | nil => exact Restores.pure []
          | cons f fs =>
              exact cons_restores (ih t List.mem_cons_self b f.dataType rows [])
                (ihts (fun u hu => ih u (List.mem_cons_of_mem t hu)) bs fs rows)

/-- From an empty builder the asynchronous decoder reads what it reads without a state. -/
theorem fillArrowAsync_refills (json : Bytes → Bytes) (t : ChType) :
    Refills (fillArrowAsync json t) (deserializeArrowAsync json t) := by
  induction t using ChType.inductionOn with
  | hleaf t hflat =>
      cases t with
      | nullable | lowCardinality | array | tuple | map => cases hflat
      | _ => exact fillFlatAsync_refills json _
  | hnullable inner ih =>
      intro builder d rows nulls
      apply Restores.bind (Restores.lift _)
      intro mask
      exact ih builder d rows mask
  | hlowCardinality inner ih _ =>
      have hfill : fillArrowAsync json (.lowCardinality inner) =
          LowCardinality.fillAsync inner (fillArrowAsync json inner.stripNull) := by
        cases inner <;> rfl
      rw [hfill, deserializeArrowAsync_lowCardinality]
      exact LowCardinality.fillAsync_refills ih inner
  | harray inner ih => exact Lists.fillAsync_refills ih inner
  | htuple items ih => exact Tuples.fillAsync_refills (fillColumnsAsync_refills json ih)
  | hmap key value ihkey ihvalue => exact Maps.fillAsync_refills ihkey ihvalue

/-- From an empty builder the synchronous decoder reads what it reads without a state. -/
theorem fillArrow_refills (json : Bytes → Bytes) (t : ChType) :
    Refills (fillArrow json t) (deserializeArrow json t) := by
  induction t using ChType.inductionOn with
  | hleaf t hflat =>
      intro builder d rows nulls
      cases t with
      | nullable | lowCardinality | array | tuple | map => cases hflat
      | _ => exact fillFlat_restores json _ builder rows nulls
  | hnullable inner ih =>
      intro builder d rows nulls
      apply Restores.bind (Restores.lift _)
      intro mask
      exact ih builder d rows mask
  | hlowCardinality inner ih _ =>
      intro builder d rows nulls
      cases builder with
      -- The builder decides the arm; any other builder than that of the type is refused by both.
      | lowCardinality key value =>
          have hfill : fillArrow json (.lowCardinality inner) (.lowCardinality key value) d rows
              nulls = LowCardinality.fillSync inner (fillArrow json inner.stripNull) key value d rows
                nulls := by
            cases inner <;> rfl
          rw [hfill, deserializeArrow_lowCardinality]
          exact LowCardinality.fillSync_restores ih inner key value d rows nulls
      | _ =>
          have hflat := fillFlat_restores json (.lowCardinality inner)
          cases inner <;> exact hflat _ rows nulls
  | harray inner ih =>
      intro builder d rows nulls
      cases builder with
      | list kind item => exact Lists.fillSync_restores ih inner kind item d rows nulls
      | _ => exact fillFlat_restores json (.array inner) _ rows nulls
  | htuple items ih =>
      intro builder d rows nulls
      cases builder with
      | tuple builders =>
          exact Tuples.fillSync_restores (fillColumns_refills json ih) builders d rows nulls
      | _ => exact fillFlat_restores json (.tuple items) _ rows nulls
  | hmap key value ihkey ihvalue =>
      intro builder d rows nulls
      cases builder with
      | map keyBuilder valueBuilder =>
          exact Maps.fillSync_restores ihkey ihvalue keyBuilder valueBuilder d rows nulls
      | _ => exact fillFlat_restores json (.map key value) _ rows nulls

end Arrow

end ClickhouseArrow
