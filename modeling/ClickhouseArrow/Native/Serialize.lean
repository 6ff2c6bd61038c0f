import ClickhouseArrow.Native.Io
import ClickhouseArrow.Wire.Layout

/-!
# Writing a column

`Type::serialize_column` and the serializers under `native/types/serialize`.  A writer
returns the bytes of the whole column; what reached the socket before an error is not
part of its result.  The asynchronous and the synchronous serializers of the source are
the same code over two kinds of writer, so one definition stands for both.
-/

namespace ClickhouseArrow

open Wire

/-! ## Fixed-size values and strings -/

namespace SizedSerializer

/-- `swap_endian_256`. -/
def swapEndian256 (input : Octets 32) : Octets 32 := input.reverse

/-- One value of a fixed-size column; a null is written as the default of the type. -/
def writeEntry (type : ChType) (value : Value) : Result Bytes :=
  match value.justifyNullRef type with
  | .int8 x => .ok (putLe x)
  | .enum8 _ x => .ok (putLe x)
  | .int16 x => .ok (putLe x)
  | .enum16 _ x => .ok (putLe x)
  | .int32 x => .ok (putLe x)
  | .decimal32 _ x => .ok (putLe x)
  | .int64 x => .ok (putLe x)
  | .decimal64 _ x => .ok (putLe x)
  | .int128 x => .ok (putLe x)
  | .decimal128 _ x => .ok (putLe x)
  | .int256 x => .ok (swapEndian256 x).bytes
  | .decimal256 _ x => .ok (swapEndian256 x).bytes
  | .uint8 x => .ok (putLe x)
  | .uint16 x => .ok (putLe x)
  | .uint32 x => .ok (putLe x)
  | .uint64 x => .ok (putLe x)
  | .uint128 x => .ok (putLe x)
  | .uint256 x => .ok (swapEndian256 x).bytes
  | .float32 bits => .ok (putLe bits)
  | .float64 bits => .ok (putLe bits)
  -- The high half goes first, each half least significant byte first.
  | .uuid x => .ok (putLe (UInt64.ofNat (x.toNat >>> 64)) ++ putLe (UInt64.ofNat x.toNat))
  | .date days => .ok (putLe days)
  | .date32 days => .ok (putLe days)
  | .dateTime _ seconds => .ok (putLe seconds)
  | .dateTime64 _ ticks _ => .ok (putLe ticks)
  | .ipv4 x => .ok (putLe x)
  | .ipv6 octets => .ok octets.bytes
  | _ =>
      .fail (.serializeError
        [.text "SizedSerializer unimplemented: ", .type type, .text " for value = ", .value value])

end SizedSerializer

namespace StringSerializer

/-- `emit_bytes`: only a fixed-size string is cut or padded to its size. -/
def emitBytes (type : ChType) (bytes : Bytes) : Bytes :=
  match type with
  | .fixedSizedString s =>
      if s ≤ bytes.length then bytes.take s
      else bytes ++ List.replicate (s - bytes.length) 0
  | _ => writeString bytes

/-- The byte an item of an array stands for when the array is written as a string. -/
def itemByte : Value → Option UInt8
  | .uint8 x => some x
  | .int8 x => some x.toUInt8
  | _ => none

def writeEntry (type : ChType) (value : Value) : Result Bytes :=
  match value.justifyNullRef type with
  | .string bytes => .ok (emitBytes type bytes)
  | .array items => .ok (emitBytes type (items.filterMap itemByte))
  | value =>
      .fail (.serializeError
        [.text "StringSerializer unimplemented: ", .type type, .text " for value = ", .value value])

end StringSerializer

/-- One value of a JSON column. -/
def ObjectSerializer.writeEntry (type : ChType) (value : Value) : Result Bytes :=
  match value.justifyNullRef type with
  | .object bytes => .ok (writeString bytes)
  | value =>
      .fail (.serializeError
        [.text "ObjectSerializer unimplemented: ", .type type, .text " for value = ", .value value])

/-! ## Arrays and geo types -/

/-- `Value::unwrap_array`. -/
def Value.unwrapArray : Value → Result (List Value)
  | .array items => .ok items
  | v => .fail (.protocol [.text "Expected array, got ", .value v])

/-- `Value::unwrap_tuple`. -/
def Value.unwrapTuple : Value → Result (List Value)
  | .tuple items => .ok items
  | v => .fail (.protocol [.text "Expected tuple, got ", .value v])

/-- `ArraySerializerGeneric`: the end offset of every value, then the items of all values
as one column.  `values` gives the items of one value. -/
def ArraySerializer.write (values : Value → Result (List Value))
    (inner : List Value → Result Bytes) (column : List Value) : Result Bytes := do
  let parts ← Outcome.traverse values column
  let body ← inner parts.flatten
  .ok ((endOffsets 0 (parts.map List.length)).flatMap putUsize ++ body)

namespace PointSerializer

/-- The two coordinate columns, extended by one point at a time. -/
def columns : List Value → Result (List Value × List Value)
  | [] => .ok ([], [])
  | .point p :: values => do
      let (xs, ys) ← columns values
      .ok (.float64 p.x :: xs, .float64 p.y :: ys)
  | _ :: _ => .panic .unreachable

def write (column : List Value) : Result Bytes := do
  let (xs, ys) ← columns column
  let first ← Outcome.emit (SizedSerializer.writeEntry .float64) xs
  let second ← Outcome.emit (SizedSerializer.writeEntry .float64) ys
  .ok (first ++ second)

end PointSerializer

/-- The items of a ring, a polygon or a multi-polygon. -/
def Value.ringItems : Value → Result (List Value)
  | .ring r => .ok (r.map .point)
  | _ => .fail (.serializeError [.text "Expected Value::Ring"])

def Value.polygonItems : Value → Result (List Value)
  | .polygon p => .ok (p.map .ring)
  | _ => .fail (.serializeError [.text "Expected Value::Polygon"])

def Value.multiPolygonItems : Value → Result (List Value)
  | .multiPolygon p => .ok (p.map .polygon)
  | _ => .fail (.serializeError [.text "Expected Value::MultiPolygon"])

def RingSerializer.write : List Value → Result Bytes :=
  ArraySerializer.write Value.ringItems PointSerializer.write

def PolygonSerializer.write : List Value → Result Bytes :=
  ArraySerializer.write Value.polygonItems RingSerializer.write

def MultiPolygonSerializer.write : List Value → Result Bytes :=
  ArraySerializer.write Value.multiPolygonItems PolygonSerializer.write

/-! ## Maps, tuples and nullable columns -/

/-- The keys and the values of one map; their numbers are asserted to agree. -/
def MapSerializer.entries : Value → Result (List Value × List Value)
  | .map keys values =>
      if keys.length = values.length then .ok (keys, values) else .panic .assertionFailed
  | v =>
      .fail (.serializeError [.text "MapSerializer called with non-map value: ", .value v])

def MapSerializer.write (key value : List Value → Result Bytes) (column : List Value) :
    Result Bytes := do
  let entries ← Outcome.traverse MapSerializer.entries column
  let keyBytes ← key (entries.flatMap Prod.fst)
  let valueBytes ← value (entries.flatMap Prod.snd)
  .ok ((endOffsets 0 (entries.map fun e => e.1.length)).flatMap putUsize
    ++ keyBytes ++ valueBytes)

/-- The columns of a tuple column, extended by one tuple at a time. -/
def TupleSerializer.columns (columns : List (List Value)) : List Value → Result (List (List Value))
  | [] => .ok columns
  | value :: values => do
      let tuple ← value.unwrapTuple
      let columns' ← pushEach columns tuple
      TupleSerializer.columns columns' values

/-- One byte for each value: whether it is null. -/
def NullableSerializer.mask (column : List Value) : Bytes :=
  column.map fun value => if value.isNull then 1 else 0

def NullableSerializer.write (inner : List Value → Result Bytes) (column : List Value) :
    Result Bytes := do
  let body ← inner column
  .ok (NullableSerializer.mask column ++ body)

/-! ## Low cardinality -/

namespace LowCardinality

/-- `NEED_GLOBAL_DICTIONARY_BIT`. -/
def needGlobalDictionaryBit : Nat := 256

/-- `HAS_ADDITIONAL_KEYS_BIT`. -/
def hasAdditionalKeysBit : Nat := 512

/-- `NEED_UPDATE_DICTIONARY_BIT`. -/
def needUpdateDictionaryBit : Nat := 1024

/-- `LOW_CARDINALITY_VERSION`. -/
def version : Nat := 1

/-- The type of the indexes, with the codes `TUINT8` to `TUINT64`. -/
inductive IndexType
  | uint8
  | uint16
  | uint32
  | uint64
  deriving DecidableEq, Repr

namespace IndexType

def code : IndexType → Nat
  | .uint8 => 0
  | .uint16 => 1
  | .uint32 => 2
  | .uint64 => 3

/-- The narrowest type for a dictionary of this many keys. -/
def ofKeyCount (n : Nat) : IndexType :=
  if 4294967295 < n then .uint64
  else if 65535 < n then .uint32
  else if 255 < n then .uint16
  else .uint8

/-- An index cast to the type and written. -/
def put : IndexType → Nat → Bytes
  | .uint8, i => putLe (UInt8.ofNat i)
  | .uint16, i => putLe (UInt16.ofNat i)
  | .uint32, i => putLe (UInt32.ofNat i)
  | .uint64, i => putLe (UInt64.ofNat i)

end IndexType

/-- The distinct values of the column, the null first when the column is nullable. -/
def keys (isNullable : Bool) (column : List Value) : List Value :=
  insertKeys Value.sameKey (if isNullable then [.null] else []) column

end LowCardinality

namespace LowCardinalitySerializer

open LowCardinality

/-- The index of one value; it is unwrapped. -/
def writeIndex (keys : List Value) (value : Value) : Result Bytes :=
  match indexOfKey Value.sameKey keys value with
  | some index => .ok ((IndexType.ofKeyCount keys.length).put index)
  | none => .panic .unwrapNone

/-- One block: the flag word, the dictionary as a column of the inner type without its
`Nullable`, and the indexes. -/
def write (isNullable : Bool) (inner : List Value → Result Bytes) (column : List Value) :
    Result Bytes :=
  if column.isEmpty then .ok []
  else do
    let keys := keys isNullable column
    let flags := (IndexType.ofKeyCount keys.length).code ||| hasAdditionalKeysBit
    let dictionary ← inner keys
    let indexes ← Outcome.emit (writeIndex keys) column
    .ok (putUsize flags ++ putUsize keys.length ++ dictionary ++ putUsize column.length ++ indexes)

end LowCardinalitySerializer

/-! ## Columns of any type -/

namespace ChType

/-- `serialize_prefix_async` and `serialize_prefix`.  The prefix of a map is that of the
array of pairs it normalizes to. -/
def serializePrefix : ChType → Bytes
  | .nullable inner => inner.serializePrefix
  | .array inner => inner.serializePrefix
  | .tuple items => prefixes items
  | .map key value => key.serializePrefix ++ value.serializePrefix
  | .lowCardinality _ => putUsize LowCardinality.version
  | .object => [1]
  | _ => []
where
  prefixes : List ChType → Bytes
    | [] => []
    | t :: ts => t.serializePrefix ++ prefixes ts

/-- `normalize_map_type`. -/
def normalizeMapType (key value : ChType) : ChType := .array (.tuple [key, value])

theorem serializePrefix_map (key value : ChType) :
    (ChType.map key value).serializePrefix = (normalizeMapType key value).serializePrefix := by
  simp [serializePrefix, normalizeMapType, serializePrefix.prefixes]

mutual

/-- `Type::serialize_column` and `Type::serialize_column_sync`. -/
def serializeColumn : ChType → List Value → Result Bytes
  | .string, column => Outcome.emit (StringSerializer.writeEntry .string) column
  | .fixedSizedString n, column =>
      Outcome.emit (StringSerializer.writeEntry (.fixedSizedString n)) column
  | .binary, column => Outcome.emit (StringSerializer.writeEntry .binary) column
  | .fixedSizedBinary n, column =>
      Outcome.emit (StringSerializer.writeEntry (.fixedSizedBinary n)) column
  | .object, column => Outcome.emit (ObjectSerializer.writeEntry .object) column
  | .point, column => PointSerializer.write column
  | .ring, column => RingSerializer.write column
  | .polygon, column => PolygonSerializer.write column
  | .multiPolygon, column => MultiPolygonSerializer.write column
  | .nullable inner, column => NullableSerializer.write inner.serializeColumn column
  | .array inner, column => ArraySerializer.write Value.unwrapArray inner.serializeColumn column
  | .map key value, column =>
      MapSerializer.write key.serializeColumn value.serializeColumn column
  | .tuple items, column => do
      let columns ← TupleSerializer.columns (List.replicate items.length []) column
      serializeColumns items columns
  | .lowCardinality (.nullable inner), column =>
      LowCardinalitySerializer.write true inner.serializeColumn column
  | .lowCardinality inner, column =>
      LowCardinalitySerializer.write false inner.serializeColumn column
  | sized, column => Outcome.emit (SizedSerializer.writeEntry sized) column

/-- The columns of a tuple, each with the serializer of its type. -/
def serializeColumns : List ChType → List (List Value) → Result Bytes
  | t :: ts, column :: columns => do
      let bytes ← t.serializeColumn column
      let rest ← serializeColumns ts columns
      .ok (bytes ++ rest)
  | _, _ => .ok []

end

/-- The two arms of a low-cardinality column are one: the dictionary is written with the
inner type without its `Nullable`. -/
theorem serializeColumn_lowCardinality (inner : ChType) (column : List Value) :
    (ChType.lowCardinality inner).serializeColumn column =
      LowCardinalitySerializer.write inner.isNullable inner.stripNull.serializeColumn column := by
  cases inner <;> simp [serializeColumn, isNullable, stripNull]

end ChType

end ClickhouseArrow
