import ClickhouseArrow.Native.Serialize

/-!
# Writing a column into a buffer

`Type::serialize_column_sync`, `serialize_prefix` and the `write_sync` functions under
`native/types/serialize`, transcribed on their own from the code that the compressed path
runs, and the proof that they write what the asynchronous ones write.

- `serializeColumnSync_eq`: the columns agree, errors and panics included;
- `writePrefixedSync_eq`: so do prefix and column together.
-/

namespace ClickhouseArrow

open Wire

/-! ## Primitives -/

/-- `put_var_uint`. -/
def putVarUint (value : Nat) : Bytes := leb128 9 value

/-- `put_string`. -/
def putString (value : Bytes) : Bytes := putVarUint value.length ++ value

/-! ## Fixed-size values and strings -/

/-- `SizedSerializer::write_sync`, for one value. -/
def SizedSerializer.writeEntrySync (type : ChType) (value : Value) : Result Bytes :=
  match value.justifyNullRef type with
  | .int8 x | .enum8 _ x => .ok (putLe x)
  | .int16 x | .enum16 _ x => .ok (putLe x)
  | .int64 x | .decimal64 _ x => .ok (putLe x)
  | .int128 x | .decimal128 _ x => .ok (putLe x)
  | .int256 x | .decimal256 _ x => .ok (swapEndian256 x).bytes
  | .uint8 x => .ok (putLe x)
  | .uint16 x => .ok (putLe x)
  | .uint32 x => .ok (putLe x)
  | .uint64 x => .ok (putLe x)
  | .uint128 x => .ok (putLe x)
  | .uint256 x => .ok (swapEndian256 x).bytes
  | .float32 bits => .ok (putLe bits)
  | .float64 bits => .ok (putLe bits)
  | .decimal32 _ x | .int32 x => .ok (putLe x)
  | .uuid x =>
      let n1 := UInt64.ofNat (x.toNat >>> 64)
      let n2 := UInt64.ofNat x.toNat
      .ok (putLe n1 ++ putLe n2)
  | .date days => .ok (putLe days)
  | .date32 days => .ok (putLe days)
  | .dateTime _ seconds => .ok (putLe seconds)
  | .dateTime64 _ ticks _ => .ok (putLe ticks)
  | .ipv4 x => .ok (putLe x)
  | .ipv6 octets => .ok octets.bytes
  | _ =>
      .fail (.serializeError
        [.text "SizedSerializer unimplemented: ", .type type, .text " for value = ", .value value])

namespace StringSerializer

/-- `emit_bytes_sync`. -/
def emitBytesSync (type : ChType) (bytes : Bytes) : Bytes :=
  match type with
  | .fixedSizedString s =>
      if s ≤ bytes.length then bytes.take s
      else bytes ++ List.replicate (s - bytes.length) 0
  | _ => putString bytes

/-- `StringSerializer::write_sync`, for one value. -/
def writeEntrySync (type : ChType) (value : Value) : Result Bytes :=
  match value.justifyNullRef type with
  | .string bytes => .ok (emitBytesSync type bytes)
  | .array items => .ok (emitBytesSync type (items.filterMap itemByte))
  | value =>
      .fail (.serializeError
        [.text "StringSerializer unimplemented: ", .type type, .text " for value = ", .value value])

end StringSerializer

/-- `ObjectSerializer::write_sync`, for one value. -/
def ObjectSerializer.writeEntrySync (type : ChType) (value : Value) : Result Bytes :=
  match value.justifyNullRef type with
  | .object bytes => .ok (putString bytes)
  | value =>
      .fail (.serializeError
        [.text "ObjectSerializer unimplemented: ", .type type, .text " for value = ", .value value])

/-! ## Containers -/

/-- `ArraySerializerGeneric`, `write_sync`. -/
def ArraySerializer.writeSync (values : Value → Result (List Value))
    (inner : List Value → Result Bytes) (column : List Value) : Result Bytes := do
  let parts ← Outcome.traverse values column
  let offsets := endOffsets 0 (parts.map List.length)
  let body ← inner parts.flatten
  .ok (offsets.flatMap putUsize ++ body)

/-- `PointSerializer::write_sync`. -/
def PointSerializer.writeSync (column : List Value) : Result Bytes := do
  let (xs, ys) ← columns column
  let first ← Outcome.emit (SizedSerializer.writeEntrySync .float64) xs
  let second ← Outcome.emit (SizedSerializer.writeEntrySync .float64) ys
  .ok (first ++ second)

def RingSerializer.writeSync : List Value → Result Bytes :=
  ArraySerializer.writeSync Value.ringItems PointSerializer.writeSync

def PolygonSerializer.writeSync : List Value → Result Bytes :=
  ArraySerializer.writeSync Value.polygonItems RingSerializer.writeSync

def MultiPolygonSerializer.writeSync : List Value → Result Bytes :=
  ArraySerializer.writeSync Value.multiPolygonItems PolygonSerializer.writeSync

/-- `MapSerializer::write_sync`: the offsets count the keys seen so far. -/
def MapSerializer.writeSync (key value : List Value → Result Bytes) (column : List Value) :
    Result Bytes := do
  let entries ← Outcome.traverse MapSerializer.entries column
  let offsets := endOffsets 0 (entries.map fun e => e.1.length)
  let totalKeys := entries.flatMap Prod.fst
  let totalValues := entries.flatMap Prod.snd
  let keyBytes ← key totalKeys
  let valueBytes ← value totalValues
  .ok (offsets.flatMap putUsize ++ keyBytes ++ valueBytes)

/-- `NullableSerializer::write_sync`. -/
def NullableSerializer.writeSync (inner : List Value → Result Bytes) (column : List Value) :
    Result Bytes := do
  let mask := column.map fun value => if value.isNull then (1 : UInt8) else 0
  let body ← inner column
  .ok (mask ++ body)

namespace LowCardinalitySerializer

open LowCardinality

/-- The type of the indexes, as the flag word of `write_sync` gets it. -/
def indexTypeSync (keyCount : Nat) : IndexType :=
  if 4294967295 < keyCount then .uint64
  else if 65535 < keyCount then .uint32
  else if 255 < keyCount then .uint16
  else .uint8

/-- One index; the tests of the number of keys are made again for every index. -/
def putIndexSync (keyCount index : Nat) : Bytes :=
  if 4294967295 < keyCount then putLe (UInt64.ofNat index)
  else if 65535 < keyCount then putLe (UInt32.ofNat index)
  else if 255 < keyCount then putLe (UInt16.ofNat index)
  else putLe (UInt8.ofNat index)

/-- The index of one value, unwrapped. -/
def writeIndexSync (keys : List Value) (value : Value) : Result Bytes :=
  match indexOfKey Value.sameKey keys value with
  | some index => .ok (putIndexSync keys.length index)
  | none => .panic .unwrapNone

/-- `LowCardinalitySerializer::write_sync`. -/
def writeSync (isNullable : Bool) (inner : List Value → Result Bytes) (column : List Value) :
    Result Bytes :=
  if column.isEmpty then .ok []
  else do
    let nulled : List Value := if isNullable then [.null] else []
    let keys := insertKeys Value.sameKey nulled column
    let flags := (indexTypeSync keys.length).code ||| hasAdditionalKeysBit
    let dictionary ← inner keys
    let indexes ← Outcome.emit (writeIndexSync keys) column
    .ok (putUsize flags ++ putUsize keys.length ++ dictionary ++ putUsize column.length ++ indexes)

end LowCardinalitySerializer

/-! ## Columns of any type -/

namespace ChType

/-- `serialize_prefix`.  A map goes on with the array of pairs it normalizes to. -/
def serializePrefixSync : ChType → Bytes
  | .nullable inner | .array inner => inner.serializePrefixSync
  | .map key value => key.serializePrefixSync ++ value.serializePrefixSync
  | .tuple items => prefixesSync items
  | .lowCardinality _ => putLe (UInt64.ofNat LowCardinality.version)
  | .object => putLe (1 : Int8)
  | _ => []
where
  prefixesSync : List ChType → Bytes
    | [] => []
    | t :: ts => t.serializePrefixSync ++ prefixesSync ts

mutual

/-- `Type::serialize_column_sync`. -/
def serializeColumnSync : ChType → List Value → Result Bytes
  | .string, column => Outcome.emit (StringSerializer.writeEntrySync .string) column
  | .fixedSizedString n, column =>
      Outcome.emit (StringSerializer.writeEntrySync (.fixedSizedString n)) column
  | .binary, column => Outcome.emit (StringSerializer.writeEntrySync .binary) column
  | .fixedSizedBinary n, column =>
      Outcome.emit (StringSerializer.writeEntrySync (.fixedSizedBinary n)) column
  | .array inner, column =>
      ArraySerializer.writeSync Value.unwrapArray inner.serializeColumnSync column
  | .tuple items, column => do
      let columns ← TupleSerializer.columns (List.replicate items.length []) column
      serializeColumnsSync items columns
  | .point, column => PointSerializer.writeSync column
  | .ring, column => RingSerializer.writeSync column
  | .polygon, column => PolygonSerializer.writeSync column
  | .multiPolygon, column => MultiPolygonSerializer.writeSync column
  | .nullable inner, column => NullableSerializer.writeSync inner.serializeColumnSync column
  | .map key value, column =>
      MapSerializer.writeSync key.serializeColumnSync value.serializeColumnSync column
  | .lowCardinality (.nullable inner), column =>
      LowCardinalitySerializer.writeSync true inner.serializeColumnSync column
  | .lowCardinality inner, column =>
      LowCardinalitySerializer.writeSync false inner.serializeColumnSync column
  | .object, column => Outcome.emit (ObjectSerializer.writeEntrySync .object) column
  | sized, column => Outcome.emit (SizedSerializer.writeEntrySync sized) column

/-- The columns of a tuple, as they are zipped with the types. -/
def serializeColumnsSync : List ChType → List (List Value) → Result Bytes
  | t :: ts, column :: columns => do
      let bytes ← t.serializeColumnSync column
      let rest ← serializeColumnsSync ts columns
      .ok (bytes ++ rest)
  | _, _ => .ok []

end

theorem serializeColumnSync_lowCardinality (inner : ChType) (column : List Value) :
    (ChType.lowCardinality inner).serializeColumnSync column =
      LowCardinalitySerializer.writeSync inner.isNullable inner.stripNull.serializeColumnSync
        column := by
  cases inner <;> simp [serializeColumnSync, isNullable, stripNull]

end ChType

/-! ## The two families agree -/

theorem SizedSerializer.writeEntrySync_eq (type : ChType) (value : Value) :
    writeEntrySync type value = writeEntry type value := by
  unfold writeEntrySync writeEntry
  cases value.justifyNullRef type <;> rfl

theorem StringSerializer.writeEntrySync_eq (type : ChType) (value : Value) :
    writeEntrySync type value = writeEntry type value := by
  have hemit : ∀ bytes, emitBytesSync type bytes = emitBytes type bytes := by
    intro bytes
    cases type <;> rfl
  unfold writeEntrySync writeEntry
  cases value.justifyNullRef type <;> simp only [hemit]

theorem ObjectSerializer.writeEntrySync_eq (type : ChType) (value : Value) :
    writeEntrySync type value = writeEntry type value := by
  unfold writeEntrySync writeEntry
  cases value.justifyNullRef type <;> rfl

theorem PointSerializer.writeSync_eq (column : List Value) : writeSync column = write column := by
  have hentry : SizedSerializer.writeEntrySync .float64 = SizedSerializer.writeEntry .float64 :=
    funext (SizedSerializer.writeEntrySync_eq .float64)
  rw [writeSync, write, hentry]

theorem RingSerializer.writeSync_eq (column : List Value) : writeSync column = write column := by
  have hpoint : PointSerializer.writeSync = PointSerializer.write :=
    funext PointSerializer.writeSync_eq
  rw [writeSync, write, hpoint]
  rfl

theorem PolygonSerializer.writeSync_eq (column : List Value) :
    writeSync column = write column := by
  have hring : RingSerializer.writeSync = RingSerializer.write := funext RingSerializer.writeSync_eq
  rw [writeSync, write, hring]
  rfl

theorem MultiPolygonSerializer.writeSync_eq (column : List Value) :
    writeSync column = write column := by
  have hpolygon : PolygonSerializer.writeSync = PolygonSerializer.write :=
    funext PolygonSerializer.writeSync_eq
  rw [writeSync, write, hpolygon]
  rfl

namespace LowCardinalitySerializer

open LowCardinality

/-- The width that is chosen for the flag word is the one chosen for every index. -/
theorem putIndexSync_eq (keyCount index : Nat) :
    putIndexSync keyCount index = (IndexType.ofKeyCount keyCount).put index := by
  unfold putIndexSync IndexType.ofKeyCount
  split
  · rfl
  · split
    · rfl
    · split <;> rfl

theorem writeIndexSync_eq (keys : List Value) (value : Value) :
    writeIndexSync keys value = writeIndex keys value := by
  unfold writeIndexSync writeIndex
  cases indexOfKey Value.sameKey keys value with
  | some index => exact congrArg Except.ok (putIndexSync_eq keys.length index)
  | none => rfl

theorem writeSync_eq (isNullable : Bool) (inner : List Value → Result Bytes)
    (column : List Value) : writeSync isNullable inner column = write isNullable inner column := by
  have hindex : ∀ keys, writeIndexSync keys = writeIndex keys := fun keys =>
    funext (writeIndexSync_eq keys)
  unfold writeSync write
  simp only [hindex]
  rfl

end LowCardinalitySerializer

namespace ChType

theorem serializePrefixSync_eq (t : ChType) : t.serializePrefixSync = t.serializePrefix := by
  induction t using inductionOn with
  | hleaf t hflat =>
      cases t with
      | nullable | lowCardinality | array | tuple | map => cases hflat
      | _ => rfl
  | hnullable inner ih => rw [serializePrefixSync, serializePrefix, ih]
  | hlowCardinality inner _ ih => rfl
  | harray inner ih => rw [serializePrefixSync, serializePrefix, ih]
  | htuple items ih =>
      rw [serializePrefixSync, serializePrefix]
      induction items with
      | nil => rfl
      | cons t ts ihs =>
          rw [serializePrefixSync.prefixesSync, serializePrefix.prefixes,
            ih t List.mem_cons_self, ihs fun u hu => ih u (List.mem_cons_of_mem t hu)]
  | hmap key value ihkey ihvalue => rw [serializePrefixSync, serializePrefix, ihkey, ihvalue]

theorem serializeColumnsSync_eq {items : List ChType}
    (h : ∀ t ∈ items, ∀ column, t.serializeColumnSync column = t.serializeColumn column)
    (columns : List (List Value)) :
    serializeColumnsSync items columns = serializeColumns items columns := by
  induction items generalizing columns with
  | nil => rw [serializeColumnsSync, serializeColumns] <;> simp
  | cons t ts ih =>
      cases columns with
      | nil => rw [serializeColumnsSync, serializeColumns] <;> simp
      | cons column columns =>
          rw [serializeColumnsSync, serializeColumns, h t List.mem_cons_self,
            ih fun u hu => h u (List.mem_cons_of_mem t hu)]

/-- The two column serializers write the same bytes, or end with the same error or panic. -/
theorem serializeColumnSync_eq (t : ChType) (column : List Value) :
    t.serializeColumnSync column = t.serializeColumn column := by
  induction t using inductionOn generalizing column with
  | hleaf t hflat =>
      have hsized : SizedSerializer.writeEntrySync t = SizedSerializer.writeEntry t :=
        funext (SizedSerializer.writeEntrySync_eq t)
      have hstring : StringSerializer.writeEntrySync t = StringSerializer.writeEntry t :=
        funext (StringSerializer.writeEntrySync_eq t)
      cases t with
      | nullable | lowCardinality | array | tuple | map => cases hflat
      | string | fixedSizedString | binary | fixedSizedBinary =>
          rw [serializeColumnSync, serializeColumn, hstring]
      | object =>
          rw [serializeColumnSync, serializeColumn,
            funext (ObjectSerializer.writeEntrySync_eq .object)]
      | point => exact PointSerializer.writeSync_eq column
      | ring => exact RingSerializer.writeSync_eq column
      | polygon => exact PolygonSerializer.writeSync_eq column
      | multiPolygon => exact MultiPolygonSerializer.writeSync_eq column
      | _ =>
          -- Every other leaf is written entry by entry by the sized serializer.
          change Outcome.emit (SizedSerializer.writeEntrySync _) column =
            Outcome.emit (SizedSerializer.writeEntry _) column
          rw [hsized]
  | hnullable inner ih =>
      rw [serializeColumnSync, serializeColumn, funext ih]
      rfl
  | hlowCardinality inner ih _ =>
      rw [serializeColumnSync_lowCardinality, serializeColumn_lowCardinality, funext ih,
        LowCardinalitySerializer.writeSync_eq]
  | harray inner ih =>
      rw [serializeColumnSync, serializeColumn, funext ih]
      rfl
  | htuple items ih =>
      rw [serializeColumnSync, serializeColumn]
      simp only [serializeColumnsSync_eq ih]
  | hmap key value ihkey ihvalue =>
      rw [serializeColumnSync, serializeColumn, funext ihkey, funext ihvalue]
      rfl

/-- `serialize_prefix_async` followed by `serialize_column`. -/
def writePrefixed (t : ChType) (column : List Value) : Result Bytes := do
  let bytes ← t.serializeColumn column
  .ok (t.serializePrefix ++ bytes)

/-- `serialize_prefix` followed by `serialize_column_sync`. -/
def writePrefixedSync (t : ChType) (column : List Value) : Result Bytes := do
  let bytes ← t.serializeColumnSync column
  .ok (t.serializePrefixSync ++ bytes)

/-- **The two families of encoders agree**: for every type and every list of values they
write the same bytes, or both fail. -/
theorem writePrefixedSync_eq (t : ChType) (column : List Value) :
    t.writePrefixedSync column = t.writePrefixed column := by
  rw [writePrefixedSync, writePrefixed, serializeColumnSync_eq, serializePrefixSync_eq]

end ChType

end ClickhouseArrow
