import ClickhouseArrow.Arrow.Serialize

/-!
# Writing an Arrow array synchronously

`Type::serialize` with the `put_*` functions, which fill the buffer that is compressed.  They
are a family of their own next to the `write_*` functions; what the source shares between the
two (coercions of single values, errors) is shared here.  The two families write the same
bytes.
-/

namespace ClickhouseArrow

open Wire

namespace Arrow

/-! ## Fixed-width values -/

namespace Primitive

/-- The loop of `put_primitive_values!`: every row through the coercion, a null as the
default. -/
def putRows {α β : Type} (default : β) (coerce : α → ArrowResult β) (put : β → Bytes)
    (rows : List (Option α)) : ArrowResult Bytes :=
  Outcome.emit (fun row =>
    match row with
    | none => .ok (put default)
    | some value => do
        let x ← coerce value
        .ok (put x)) rows

def putI8Values : ArrowArray → ArrowResult Bytes
  | .primitive .int8 values nulls => putRows (0 : Int8) .ok putLe (slots values nulls)
  | _ => .fail (expected "Int8Array")

def putI16Values : ArrowArray → ArrowResult Bytes
  | .primitive .int16 values nulls => putRows (0 : Int16) .ok putLe (slots values nulls)
  | _ => .fail (expected "Int16Array")

def putI32Values : ArrowArray → ArrowResult Bytes
  | .primitive .int32 values nulls => putRows (0 : Int32) .ok putLe (slots values nulls)
  | _ => .fail (expected "Int32Array")

def putI64Values : ArrowArray → ArrowResult Bytes
  | .primitive .int64 values nulls => putRows (0 : Int64) .ok putLe (slots values nulls)
  | _ => .fail (expected "Int64Array")

def putU8Values : ArrowArray → ArrowResult Bytes
  | .primitive .uint8 values nulls => putRows (0 : UInt8) .ok putLe (slots values nulls)
  | _ => .fail (expected "UInt8Array")

def putBoolValues : ArrowArray → ArrowResult Bytes
  | .boolean values nulls =>
      putRows (0 : UInt8) (fun b => .ok (if b then 1 else 0)) putLe (slots values nulls)
  | _ => .fail (expected "BooleanArray")

def putU16Values : ArrowArray → ArrowResult Bytes
  | .primitive .uint16 values nulls => putRows (0 : UInt16) .ok putLe (slots values nulls)
  | _ => .fail (expected "UInt16Array")

def putU32Values : ArrowArray → ArrowResult Bytes
  | .primitive .uint32 values nulls => putRows (0 : UInt32) .ok putLe (slots values nulls)
  | _ => .fail (expected "UInt32Array")

def putU64Values : ArrowArray → ArrowResult Bytes
  | .primitive .uint64 values nulls => putRows (0 : UInt64) .ok putLe (slots values nulls)
  | _ => .fail (expected "UInt64Array")

def putI128Values : ArrowArray → ArrowResult Bytes
  | .primitive .int64 values nulls =>
      putRows (0 : BitVec 128) (fun v : Int64 => .ok (BitVec.ofInt 128 v.toInt)) putLe
        (slots values nulls)
  | .bytes .binary values nulls =>
      putRows 0 (from128 "Binary must be 16 bytes for Int128") putLe (slots values nulls)
  | .fixedSizeBinary _ values nulls =>
      putRows 0 (from128 "FixedSizeBinary must be 16 bytes for Int128") putLe
        (slots values nulls)
  | _ => .fail (expectedOneOf ["Int64Array", "BinaryArray", "FixedSizeBinaryArray"])

def putU128Values : ArrowArray → ArrowResult Bytes
  | .primitive .uint64 values nulls =>
      putRows (0 : BitVec 128) (fun v : UInt64 => .ok (BitVec.ofNat 128 v.toNat)) putLe
        (slots values nulls)
  | .bytes .binary values nulls =>
      putRows 0 (from128 "Binary must be 16 bytes for UInt128") putLe (slots values nulls)
  | .fixedSizeBinary _ values nulls =>
      putRows 0 (from128 "FixedSizeBinary must be 16 bytes for UInt128") putLe
        (slots values nulls)
  | _ => .fail (expectedOneOf ["UInt64Array", "BinaryArray", "FixedSizeBinaryArray"])

def putI256Values : ArrowArray → ArrowResult Bytes
  | .primitive .int64 values nulls =>
      putRows zero256
        (fun v : Int64 => .ok (swapEndian256 (signExtended (BitVec.ofInt 128 v.toInt)))) id
        (slots values nulls)
  | .bytes .binary values nulls =>
      putRows zero256 (fun v => swapEndian256 <$> exactly 32 "Binary must be 32 bytes for Int256" v)
        id (slots values nulls)
  | .fixedSizeBinary _ values nulls =>
      putRows zero256
        (fun v => swapEndian256 <$> exactly 32 "FixedSizeBinary must be 32 bytes for Int256" v) id
        (slots values nulls)
  | _ => .fail (expectedOneOf ["Int64Array", "BinaryArray", "FixedSizeBinaryArray"])

def putU256Values : ArrowArray → ArrowResult Bytes
  | .primitive .uint64 values nulls =>
      putRows zero256
        (fun v : UInt64 => .ok (swapEndian256 (putLe v ++ List.replicate 24 0))) id
        (slots values nulls)
  | .bytes .binary values nulls =>
      putRows zero256
        (fun v => swapEndian256 <$> exactly 32 "Binary must be 32 bytes for UInt256" v) id
        (slots values nulls)
  | .fixedSizeBinary _ values nulls =>
      putRows zero256
        (fun v => swapEndian256 <$> exactly 32 "FixedSizeBinary must be 32 bytes for UInt256" v) id
        (slots values nulls)
  | _ => .fail (expectedOneOf ["UInt64Array", "BinaryArray", "FixedSizeBinaryArray"])

def putDecimal32Values : ArrowArray → ArrowResult Bytes
  | .primitive (.decimal128 _ _) values nulls =>
      putRows (0 : Int32) (fun v => Int32.ofInt <$> inDigits "Decimal32" 9 v) putLe
        (slots values nulls)
  | _ => .fail (expectedOneOf ["Decimal128Array"])

def putDecimal64Values : ArrowArray → ArrowResult Bytes
  | .primitive (.decimal128 _ _) values nulls =>
      putRows (0 : Int64) (fun v => Int64.ofInt <$> inDigits "Decimal64" 18 v) putLe
        (slots values nulls)
  | _ => .fail (expectedOneOf ["Decimal128Array"])

def putDecimal128Values : ArrowArray → ArrowResult Bytes
  | .primitive (.decimal128 _ _) values nulls =>
      putRows (0 : BitVec 128) .ok putLe (slots values nulls)
  | _ => .fail (expectedOneOf ["Decimal128Array"])

def putDecimal256Values : ArrowArray → ArrowResult Bytes
  | .primitive (.decimal256 _ _) values nulls =>
      putRows zero256 (fun v : Octets 32 => .ok (swapEndian256 v.bytes)) id (slots values nulls)
  | .primitive (.decimal128 _ _) values nulls =>
      putRows zero256 (fun v => .ok (swapEndian256 (signExtended v))) id (slots values nulls)
  | _ => .fail (expectedOneOf ["Decimal256Array", "Decimal128Array"])

def putDateValues : ArrowArray → ArrowResult Bytes
  | .primitive .date32 values nulls =>
      putRows (0 : UInt16) dateOfDays putLe (slots values nulls)
  | _ => .fail (expectedOneOf ["Date32Array"])

def putDate32Values : ArrowArray → ArrowResult Bytes
  | .primitive .date32 values nulls =>
      putRows (0 : Int32) (fun v => addI32 v days1900To1970) putLe (slots values nulls)
  | _ => .fail (expectedOneOf ["Date32Array"])

def putDatetimeValues : ArrowArray → ArrowResult Bytes
  | .primitive (.timestamp .second _) values nulls =>
      putRows (0 : UInt32) dateTimeOfSeconds putLe (slots values nulls)
  | _ => .fail (expectedOneOf ["TimestampSecondArray"])

def putDatetime64Values3 : ArrowArray → ArrowResult Bytes
  | .primitive (.timestamp .millisecond _) values nulls =>
      putRows (0 : UInt64) (fun v : Int64 => .ok v.toUInt64) putLe (slots values nulls)
  | .primitive (.timestamp .microsecond _) values nulls =>
      putRows (0 : UInt64) (fun v : Int64 => .ok (v.toUInt64 / 1000)) putLe (slots values nulls)
  | .primitive (.timestamp .nanosecond _) values nulls =>
      putRows (0 : UInt64) (fun v : Int64 => .ok (v.toUInt64 / 1000000)) putLe
        (slots values nulls)
  | .primitive (.timestamp .second _) values nulls =>
      putRows (0 : UInt64) (fun v : Int64 => mulU64 v.toUInt64 1000) putLe (slots values nulls)
  | _ => .fail (expectedOneOf timestampArrays)

def putDatetime64Values6 : ArrowArray → ArrowResult Bytes
  | .primitive (.timestamp .microsecond _) values nulls =>
      putRows (0 : UInt64) (fun v : Int64 => .ok v.toUInt64) putLe (slots values nulls)
  | .primitive (.timestamp .millisecond _) values nulls =>
      putRows (0 : UInt64) (fun v : Int64 => mulU64 v.toUInt64 1000) putLe (slots values nulls)
  | .primitive (.timestamp .nanosecond _) values nulls =>
      putRows (0 : UInt64) (fun v : Int64 => .ok (v.toUInt64 / 1000)) putLe (slots values nulls)
  | .primitive (.timestamp .second _) values nulls =>
      putRows (0 : UInt64) (fun v : Int64 => mulU64 v.toUInt64 1000000) putLe
        (slots values nulls)
  | _ => .fail (expectedOneOf timestampArrays)

def putDatetime64Values9 : ArrowArray → ArrowResult Bytes
  | .primitive (.timestamp .nanosecond _) values nulls =>
      putRows (0 : UInt64) (fun v : Int64 => .ok v.toUInt64) putLe (slots values nulls)
  | .primitive (.timestamp .millisecond _) values nulls =>
      putRows (0 : UInt64) (fun v : Int64 => mulU64 v.toUInt64 1000000) putLe
        (slots values nulls)
  | .primitive (.timestamp .microsecond _) values nulls =>
      putRows (0 : UInt64) (fun v : Int64 => mulU64 v.toUInt64 1000) putLe (slots values nulls)
  | .primitive (.timestamp .second _) values nulls =>
      putRows (0 : UInt64) (fun v : Int64 => mulU64 v.toUInt64 1000000000) putLe
        (slots values nulls)
  | _ => .fail (expectedOneOf timestampArrays)

def putDatetime64UnknownValues : ArrowArray → ArrowResult Bytes
  | .primitive (.timestamp .second _) values nulls =>
      putRows (0 : UInt64) (fun v : Int64 => .ok v.toUInt64) putLe (slots values nulls)
  | .primitive (.timestamp .millisecond _) values nulls =>
      putRows (0 : UInt64) (fun v : Int64 => .ok (v.toUInt64 / 1000)) putLe (slots values nulls)
  | .primitive (.timestamp .microsecond _) values nulls =>
      putRows (0 : UInt64) (fun v : Int64 => .ok (v.toUInt64 / 1000000)) putLe
        (slots values nulls)
  | .primitive (.timestamp .nanosecond _) values nulls =>
      putRows (0 : UInt64) (fun v : Int64 => .ok (v.toUInt64 / 1000000000)) putLe
        (slots values nulls)
  | _ => .fail (expectedOneOf timestampArrays)

def putIpv4Values : ArrowArray → ArrowResult Bytes
  | .fixedSizeBinary _ values nulls =>
      putRows (0 : UInt32)
        (fun v => (fun bytes => UInt32.ofNat (ofLeBytes bytes)) <$> exactly 4 "IPv4 must be 4 bytes" v)
        putLe (slots values nulls)
  | _ => .fail (expectedOneOf ["FixedSizeBinaryArray"])

def putIpv6Values : ArrowArray → ArrowResult Bytes
  | .fixedSizeBinary _ values nulls =>
      putRows (List.replicate 16 0) (exactly 16 "IPv6 must be 16 bytes") id (slots values nulls)
  | _ => .fail (expectedOneOf ["FixedSizeBinaryArray"])

def putF32Values : ArrowArray → ArrowResult Bytes
  | .primitive .float32 values nulls => putRows (0 : UInt32) .ok putLe (slots values nulls)
  | .primitive .float16 values nulls =>
      putRows (0 : UInt32) (fun v : UInt16 => .ok (f32OfF16 v)) putLe (slots values nulls)
  | _ => .fail (expectedOneOf ["Float32Array", "Float16Array"])

def putF64Values : ArrowArray → ArrowResult Bytes
  | .primitive .float64 values nulls => putRows (0 : UInt64) .ok putLe (slots values nulls)
  | .primitive .float32 values nulls =>
      putRows (0 : UInt64) (fun v : UInt32 => .ok (f64OfF32 v)) putLe (slots values nulls)
  | .primitive .float16 values nulls =>
      putRows (0 : UInt64) (fun v : UInt16 => .ok (f64OfF16 v)) putLe (slots values nulls)
  | _ => .fail (expectedOneOf ["Float64Array", "Float32Array", "Float16Array"])

/-- The arm of a UUID: the high half goes first, each half least significant byte first. -/
def putUuidValues : ArrowArray → ArrowResult Bytes
  | .fixedSizeBinary _ values nulls =>
      putRows (List.replicate 16 0) (exactly 16 "UUID must be 16 bytes")
        (fun bytes => bytes.drop 8 ++ bytes.take 8) (slots values nulls)
  | _ => .fail (.arrowSerialize [.text "Expected FixedSizeBinaryArray for Uuid"])

/-- `primitive::serialize`. -/
def serialize (t : ChType) (values : ArrowArray) (d : DataType) : ArrowResult Bytes :=
  match t with
  | .int8 => putI8Values values
  | .int16 => putI16Values values
  | .int32 => putI32Values values
  | .int64 => putI64Values values
  | .int128 => putI128Values values
  | .int256 => putI256Values values
  | .uint8 => if d = .boolean then putBoolValues values else putU8Values values
  | .uint16 => putU16Values values
  | .uint32 => putU32Values values
  | .uint64 => putU64Values values
  | .uint128 => putU128Values values
  | .uint256 => putU256Values values
  | .float32 => putF32Values values
  | .float64 => putF64Values values
  | .decimal32 _ => putDecimal32Values values
  | .decimal64 _ => putDecimal64Values values
  | .decimal128 _ => putDecimal128Values values
  | .decimal256 _ => putDecimal256Values values
  | .date => putDateValues values
  | .date32 => putDate32Values values
  | .dateTime _ => putDatetimeValues values
  | .dateTime64 p _ =>
      if p = 0 then putDatetime64UnknownValues values
      else if p ≤ 3 then putDatetime64Values3 values
      else if p ≤ 6 then putDatetime64Values6 values
      else if p ≤ 9 then putDatetime64Values9 values
      else .fail (.arrowSerialize [.text "Unsupported precision for DateTime64: ", .number p])
  | .ipv4 => putIpv4Values values
  | .ipv6 => putIpv6Values values
  | .uuid => putUuidValues values
  | t => .fail (unsupportedType t)

end Primitive

/-! ## Strings and binary values -/

namespace Binary

/-- The loop of `put_variable_values!`: a null is the empty string. -/
def putVariable (rows : List (Option Bytes)) : Bytes :=
  rows.flatMap fun row => writeString (row.getD [])

def putStringValues : ArrowArray → ArrowResult Bytes
  | .bytes _ values nulls => .ok (putVariable (slots values nulls))
  | _ => .fail (expectedOneOf ["StringArray", "BinaryArray", "StringViewArray", "BinaryViewArray",
      "LargeStringArray", "LargeBinaryArray"])

def putBinaryValues : ArrowArray → ArrowResult Bytes
  | .bytes _ values nulls => .ok (putVariable (slots values nulls))
  | _ => .fail (expectedOneOf ["BinaryArray", "StringArray", "StringViewArray", "BinaryViewArray",
      "LargeBinaryArray", "LargeStringArray"])

/-- One row of `put_fixed_values!`: a null is zeros, a value of another length is cut or
padded. -/
def putFixed (len : Nat) : Option Bytes → ArrowResult Bytes
  | none => zeroed len
  | some value =>
      if value.length ≠ len then do
        let padded ← zeroed len
        .ok (value.take len ++ padded.drop (min value.length len))
      else .ok value

def putFixedStringValues (len : Nat) : ArrowArray → ArrowResult Bytes
  | .bytes _ values nulls | .fixedSizeBinary _ values nulls =>
      Outcome.emit (putFixed len) (slots values nulls)
  | _ => .fail (expectedOneOf ["StringArray", "FixedSizeBinaryArray", "BinaryArray",
      "StringViewArray", "BinaryViewArray", "LargeStringArray", "LargeBinaryArray"])

def putFixedBinaryValues (len : Nat) : ArrowArray → ArrowResult Bytes
  | .bytes _ values nulls | .fixedSizeBinary _ values nulls =>
      Outcome.emit (putFixed len) (slots values nulls)
  | _ => .fail (expectedOneOf ["FixedSizeBinaryArray", "BinaryArray", "LargeBinaryArray",
      "BinaryViewArray", "StringArray", "StringViewArray", "LargeStringArray"])

/-- `binary::serialize`. -/
def serialize (t : ChType) (values : ArrowArray) : ArrowResult Bytes :=
  match t with
  | .string | .object => putStringValues values
  | .binary => putBinaryValues values
  | .fixedSizedString len => putFixedStringValues len values
  | .fixedSizedBinary len => putFixedBinaryValues len values
  | t => .fail (unsupportedType t)

end Binary

/-! ## Enums -/

namespace Enums

section Values

variable {α : Type} [Word α] [DecidableEq α]

/-- `put_enum_values!` over the values of the enum, to which `cast` casts an integer. -/
def putEnumValues (cast : Int → α) (toInt : α → Int) (pairs : List (String × α))
    (array : ArrowArray) : ArrowResult Bytes :=
  match array with
  | .dictionary _ keys nulls (.bytes .utf8 labels _) =>
      if labels.length ≠ pairs.length then
        .fail (.arrowSerialize [.text "Enum value count mismatch: ", .number labels.length,
          .text " vs ", .number pairs.length])
      else do
        checkLabels 0 labels pairs
        Outcome.emit (fun key =>
          match key with
          | none => .ok (putLe (cast 0))
          | some k =>
              match pairs[k]? with
              | some pair => .ok (putLe pair.2)
              | none => .fail (.arrowSerialize [.text "Dictionary key ", .number k,
                  .text " out of bounds"])) (slots keys nulls)
  | .dictionary _ _ _ _ => .fail (.arrowSerialize [.text "Enum values must be strings"])
  | .bytes t values nulls =>
      Outcome.emit (fun row =>
        match row with
        | none => .ok (putLe (cast 0))
        | some value => do
            let value ← text t value
            match valueOf pairs value with
            | some key => .ok (putLe key)
            | none => .fail (.arrowSerialize [.text "String '", .bytes value, .text "' not in enum"]))
        (slots values nulls)
  | array =>
      match integers array with
      | some rows =>
          Outcome.emit (fun row =>
            let value := cast (row.getD 0)
            -- A null is looked up as well.
            if pairs.any fun pair => pair.2 = value then .ok (putLe value)
            else .fail (.arrowSerialize [.text "Value ", .number (toInt value),
              .text " not found in enum"])) rows
      | none => .fail (.arrowSerialize
          [.text "Expected DictionaryArray, PrimitiveArray, StringArray, or BinaryArray, got ",
            .dataType array.dataType])

end Values

def putEnum8Values (pairs : List (String × Int8)) (array : ArrowArray) : ArrowResult Bytes :=
  putEnumValues Int8.ofInt Int8.toInt pairs array

def putEnum16Values (pairs : List (String × Int16)) (array : ArrowArray) : ArrowResult Bytes :=
  putEnumValues Int16.ofInt Int16.toInt pairs array

/-- `enums::serialize`. -/
def serialize (t : ChType) (values : ArrowArray) : ArrowResult Bytes :=
  match t with
  | .enum8 pairs => putEnum8Values pairs values
  | .enum16 pairs => putEnum16Values pairs values
  | t => .fail (unsupportedType t)

end Enums

/-! ## Default values -/

mutual

/-- `put_default` of a type that stands in a `Nullable` or does not. -/
def putDefaultOf (isNull : Bool) : ChType → ArrowResult Bytes
  | .string | .binary => .ok (writeString [])
  | .fixedSizedString n | .fixedSizedBinary n => zeroed n
  | .int8 | .enum8 _ => .ok (putLe (0 : Int8))
  | .int16 => .ok (putLe (0 : Int16))
  | .int32 | .date32 | .decimal32 _ => .ok (putLe (0 : Int32))
  | .int64 | .decimal64 _ => .ok (putLe (0 : Int64))
  | .int128 | .uint128 | .uuid | .ipv6 | .decimal128 _ => .ok (List.replicate 16 0)
  | .int256 | .uint256 | .decimal256 _ => .ok (List.replicate 32 0)
  | .uint8 => .ok (putLe (0 : UInt8))
  | .uint16 | .date => .ok (putLe (0 : UInt16))
  | .uint32 | .ipv4 | .dateTime _ => .ok (putLe (0 : UInt32))
  | .uint64 => .ok (putLe (0 : UInt64))
  | .float32 => .ok (putLe (0 : UInt32))
  | .float64 => .ok (putLe (0 : UInt64))
  | .dateTime64 precision _ => zeroWord precision
  | .array _ | .map _ _ => .ok (writeVarUint 0)
  -- `put_i16` writes the most significant byte first.
  | .enum16 _ => .ok (putLe (0 : Int16)).reverse
  | .lowCardinality inner => putDefaultOf false inner
  | .tuple inner => putDefaults inner
  | .nullable inner =>
      if isNull then .fail (noDefault (.nullable (.nullable inner))) else putDefaultOf true inner
  | t => .fail (noDefault (if isNull then .nullable t else t))

def putDefaults : List ChType → ArrowResult Bytes
  | [] => .ok []
  | t :: ts => do
      let bytes ← putDefaultOf false t
      let rest ← putDefaults ts
      .ok (bytes ++ rest)

end

/-- `put_default`. -/
def putDefault (t : ChType) : ArrowResult Bytes := putDefaultOf false t

/-! ## Nulls -/

namespace Null

/-- `serialize_nulls`. -/
def serializeNulls (inner : ChType) (array : ArrowArray) : Bytes :=
  match inner with
  | .array _ | .map _ _ => []
  | _ =>
      match array.nulls with
      | some valid => valid.map fun isValid => if isValid then 0 else 1
      | none => List.replicate array.len 0

end Null

/-! ## Dictionaries -/

namespace LowCardinality

open ClickhouseArrow.LowCardinality

/-- One key of `put_dictionary_keys!`. -/
def putKey (flag : IndexType) (modifier : Nat) (key : Option Nat) : Bytes :=
  flag.put (key.elim 0 fun k => k + modifier)

/-- `put_values`. -/
def putValues (key : KeyType) (inner : ChType)
    (serialize : ArrowArray → DataType → ArrowResult Bytes) (values : ArrowArray) :
    ArrowResult Bytes :=
  match downcast key values with
  | none => .fail (.arrowSerialize [.text "Failed to downcast to DictionaryArray"])
  | some (keys, nulls, dictionary) =>
      if keys.isEmpty then .ok []
      else do
        let alreadyHasNull := decide (0 < dictionary.nullCount)
        let modifier := (inner.isNullable && !alreadyHasNull).toNat
        let adjustedDictLen := dictionary.len + modifier
        let flag := keyTypeFlag adjustedDictLen
        let default ← if modifier = 1 then putDefault inner else .ok []
        let body ← serialize dictionary dictionary.dataType
        .ok (putUsize (flag.code ||| hasAdditionalKeysBit) ++ putUsize adjustedDictLen ++ default ++
          body ++ putUsize keys.length ++ (slots keys nulls).flatMap (putKey flag modifier))

/-- `put_string_values`. -/
def putStringValues (values : ArrowArray) (nullable : Bool) : ArrowResult Bytes :=
  match values with
  | .bytes _ rows nulls => do
      let nullable := decide (0 < values.nullCount) || nullable
      let interned := internRows (if nullable then [[]] else []) (slots rows nulls)
      let flag := keyTypeFlag interned.1.length
      let dict ← binaryArrayOf interned.1
      let body ← Binary.serialize .binary dict
      .ok (putUsize (flag.code ||| hasAdditionalKeysBit) ++ putUsize interned.1.length ++ body ++
        putUsize interned.2.length ++ interned.2.flatMap (writeIndex flag))
  | values => .fail (.arrowSerialize
      [.text "Expected string-like array, got ", .dataType values.dataType])

/-- `low_cardinality::serialize`. -/
def serialize (inner : ChType) (isNull : Bool)
    (serialize : ArrowArray → DataType → ArrowResult Bytes) (values : ArrowArray) (d : DataType) :
    ArrowResult Bytes :=
  if values.len = 0 then .ok []
  else
    match d with
    | .dictionary keyType _ =>
        match keyTypeOf keyType with
        | some key => putValues key inner serialize values
        | none => .panic .unreachable
    | .bytes _ => putStringValues values isNull
    | d => .fail (.arrowSerialize
        [.text "`LowCardinality` must be either String or Dictionary: ", .dataType d])

end LowCardinality

/-! ## Nested values -/

namespace Lists

/-- `put_list_array!`. -/
def putListArray (serialize : ArrowArray → DataType → ArrowResult Bytes) (d : DataType)
    (offsets : List Nat) (values : ArrowArray) : ArrowResult Bytes := do
  let innerDt ← unwrapArrayDataType d
  let offsets ← tailOffsets offsets
  let body ← serialize values innerDt
  .ok (offsets.flatMap putUsize ++ body)

/-- `list::serialize`. -/
def serialize (inner : ChType) (serialize : ArrowArray → DataType → ArrowResult Bytes)
    (values : ArrowArray) (d : DataType) : ArrowResult Bytes :=
  match values with
  | .list _ _ offsets values _ => putListArray serialize d offsets values
  | .listView _ _ offsets _ values _ => putListArray serialize d offsets values
  | .fixedSizeList _ size rows values _ => do
      let innerDt ← unwrapArrayDataType d
      let offsets ← fixedOffsets size rows
      let body ← serialize values innerDt
      .ok (offsets.flatMap putUsize ++ body)
  | _ => .fail (.arrowSerialize [.text "Expected ListArray or FixedSizeListArray: type=",
      .type inner, .text ", data_type=", .dataType d])

end Lists

namespace Maps

/-- `map::serialize` for a hint that is a map. -/
def serialize (key value : ArrowArray → DataType → ArrowResult Bytes) (column : ArrowArray)
    (d : DataType) : ArrowResult Bytes :=
  match column with
  | .map _ _ offsets keys values _ =>
      match d with
      | .map entries _ =>
          match entries.dataType with
          | .struct [keyField, valueField] => do
              let keyBytes ← key keys keyField.dataType
              let valueBytes ← value values valueField.dataType
              .ok ((totalLengths 0 offsets).flatMap putUsize ++ keyBytes ++ valueBytes)
          | .struct _ => .fail (.arrowSerialize
              [.text "MapArray struct must have exactly two fields (key, value)"])
          | _ => .fail (.arrowSerialize [.text "MapArray field must be a Struct"])
      | _ => .fail (.arrowSerialize [.text "Expected Map data type for MapArray"])
  | _ => .fail (.arrowSerialize [.text "Expected MapArray for Map type"])

end Maps

namespace Tuples

/-- `tuple::serialize`. -/
def serialize (arity : Nat) (serialize : List Field → List ArrowArray → ArrowResult Bytes)
    (column : ArrowArray) : ArrowResult Bytes :=
  match column with
  | .struct fields columns _ _ =>
      if fields.length ≠ arity then
        .fail (.arrowSerialize [.text "StructArray has ", .number fields.length,
          .text " fields, but Tuple expects ", .number arity])
      else serialize fields columns
  | _ => .fail (.arrowSerialize [.text "Expected StructArray for Tuple type"])

end Tuples

/-! ## Columns of any type -/

/-- The coordinates of a point. -/
def serializeCoordinates : List Field → List ArrowArray → ArrowResult Bytes
  | [f, g], columns => do
      let (x, columns) ← Tuples.column columns
      let xs ← Primitive.serialize .float64 x f.dataType
      let (y, _) ← Tuples.column columns
      let ys ← Primitive.serialize .float64 y g.dataType
      .ok (xs ++ ys)
  | _, _ => .ok []

def serializePoint (column : ArrowArray) : ArrowResult Bytes :=
  Tuples.serialize 2 serializeCoordinates column

def serializeRing (column : ArrowArray) (d : DataType) : ArrowResult Bytes :=
  Lists.serialize (.tuple [.float64, .float64]) (fun a _ => serializePoint a) column d

def serializePolygon (column : ArrowArray) (d : DataType) : ArrowResult Bytes :=
  Lists.serialize ringType serializeRing column d

def serializeMultiPolygon (column : ArrowArray) (d : DataType) : ArrowResult Bytes :=
  Lists.serialize (.array ringType) serializePolygon column d

mutual

/-- `Type::serialize` of a type that stands in a `Nullable` or does not. -/
def serializeOf (isNull : Bool) : ChType → ArrowArray → DataType → ArrowResult Bytes
  | .nullable inner, column, d =>
      if isNull then .panic .unreachable
      else do
        let body ← serializeOf true inner column d
        .ok (Null.serializeNulls inner column ++ body)
  | .string, column, _ => Binary.serialize .string column
  | .binary, column, _ => Binary.serialize .binary column
  | .fixedSizedString n, column, _ => Binary.serialize (.fixedSizedString n) column
  | .fixedSizedBinary n, column, _ => Binary.serialize (.fixedSizedBinary n) column
  | .object, column, _ => Binary.serialize .object column
  | .enum8 pairs, column, _ => Enums.serialize (.enum8 pairs) column
  | .enum16 pairs, column, _ => Enums.serialize (.enum16 pairs) column
  | .lowCardinality (.nullable inner), column, d =>
      LowCardinality.serialize (.nullable inner) isNull (serializeOf false inner) column d
  | .lowCardinality inner, column, d =>
      LowCardinality.serialize inner isNull (serializeOf false inner) column d
  | .array inner, column, d => Lists.serialize inner (serializeOf false inner) column d
  | .map key value, column, d =>
      if isNull then .fail (.unexpectedType (.nullable (.map key value)))
      else Maps.serialize (serializeOf false key) (serializeOf false value) column d
  | .tuple items, column, _ => Tuples.serialize items.length (serializeColumns items) column
  | .point, column, _ => serializePoint column
  | .ring, column, d => serializeRing column d
  | .polygon, column, d => serializePolygon column d
  | .multiPolygon, column, d => serializeMultiPolygon column d
  | t, column, d => Primitive.serialize t column d

/-- The columns of a tuple. -/
def serializeColumns : List ChType → List Field → List ArrowArray → ArrowResult Bytes
  | t :: ts, f :: fs, columns => do
      let (column, columns) ← Tuples.column columns
      let bytes ← serializeOf false t column f.dataType
      let rest ← serializeColumns ts fs columns
      .ok (bytes ++ rest)
  | _, _, _ => .ok []

end

/-- `Type::serialize`. -/
def serialize (t : ChType) (column : ArrowArray) (d : DataType) : ArrowResult Bytes :=
  serializeOf false t column d

/-! ## Agreement -/

theorem Binary.serialize_eq (t : ChType) (values : ArrowArray) :
    Binary.serialize t values = Binary.serializeAsync t values := by
  cases t <;> rfl

theorem putDefaults_eq {ts : List ChType}
    (h : ∀ t ∈ ts, ∀ isNull, putDefaultOf isNull t = writeDefaultOf isNull t) :
    putDefaults ts = writeDefaults ts := by
  induction ts with
  | nil => rfl
  | cons t ts ih =>
      have hrest := ih fun u hu => h u (List.mem_cons_of_mem t hu)
      rw [putDefaults, writeDefaults, h t (by simp), hrest]

theorem putDefaultOf_eq (t : ChType) (isNull : Bool) :
    putDefaultOf isNull t = writeDefaultOf isNull t := by
  induction t using ChType.inductionOn generalizing isNull with
  | hleaf t hflat =>
      cases t with
      | nullable | lowCardinality | tuple => cases hflat
      -- The two bytes of an `Enum16` are both zero.
      | enum16 pairs => rfl
      | _ => rfl
  | hnullable inner ih => rw [putDefaultOf, writeDefaultOf, ih]
  | hlowCardinality inner _ ih => rw [putDefaultOf, writeDefaultOf, ih]
  | harray inner ih => rfl
  | htuple items ih => rw [putDefaultOf, writeDefaultOf, putDefaults_eq ih]
  | hmap key value ihkey ihvalue => rfl

theorem putDefault_eq (t : ChType) : putDefault t = writeDefault t := putDefaultOf_eq t false

theorem LowCardinality.putKey_eq : putKey = writeKey := by
  funext flag modifier key
  cases key <;> rfl

theorem LowCardinality.putValues_eq (key : KeyType) (inner : ChType)
    (serialize : ArrowArray → DataType → ArrowResult Bytes) (values : ArrowArray) :
    putValues key inner serialize values = writeValues key inner serialize values := by
  cases h : downcast key values with
  | none => simp only [putValues, writeValues, h]
  | some column =>
      obtain ⟨keys, nulls, dictionary⟩ := column
      simp only [putValues, writeValues, h, putDefault_eq, putKey_eq]

theorem LowCardinality.putStringValues_eq (values : ArrowArray) (nullable : Bool) :
    putStringValues values nullable = writeStringValues values nullable := by
  cases values <;> simp only [putStringValues, writeStringValues, Binary.serialize_eq]

theorem LowCardinality.serialize_eq (inner : ChType) (isNull : Bool)
    (serialize : ArrowArray → DataType → ArrowResult Bytes) (values : ArrowArray) (d : DataType) :
    LowCardinality.serialize inner isNull serialize values d =
      LowCardinality.serializeAsync inner isNull serialize values d := by
  unfold LowCardinality.serialize LowCardinality.serializeAsync
  split_ifs
  · rfl
  · cases d with
    | dictionary keyType value =>
        cases h : keyTypeOf keyType with
        | none => simp only [h]
        | some key => simpa only [h] using putValues_eq key inner serialize values
    | bytes t => exact putStringValues_eq values isNull
    | _ => rfl

theorem serializeOf_lowCardinality (isNull : Bool) (inner : ChType) (column : ArrowArray)
    (d : DataType) :
    serializeOf isNull (.lowCardinality inner) column d =
      LowCardinality.serialize inner isNull (serializeOf false inner.stripNull) column d := by
  cases inner <;> rfl

theorem serializeColumns_eq {ts : List ChType}
    (h : ∀ t ∈ ts, ∀ isNull, serializeOf isNull t = serializeAsyncOf isNull t)
    (fields : List Field) (columns : List ArrowArray) :
    serializeColumns ts fields columns = serializeColumnsAsync ts fields columns := by
  induction ts generalizing fields columns with
  | nil => rfl
  | cons t ts ih =>
      have hrest := ih fun u hu => h u (List.mem_cons_of_mem t hu)
      cases fields with
      | nil => rfl
      | cons f fs => simp only [serializeColumns, serializeColumnsAsync, h t (by simp), hrest]

theorem serializeOf_eq (t : ChType) (isNull : Bool) :
    serializeOf isNull t = serializeAsyncOf isNull t := by
  induction t using ChType.inductionOn generalizing isNull with
  | hleaf t hflat =>
      funext column d
      cases t with
      | nullable | lowCardinality | array | tuple | map => cases hflat
      | _ => rfl
  | hnullable inner ih =>
      funext column d
      rw [serializeOf, serializeAsyncOf, ih]
      rfl
  | hlowCardinality inner ih _ =>
      funext column d
      rw [serializeOf_lowCardinality, serializeAsyncOf_lowCardinality, ih,
        LowCardinality.serialize_eq]
  | harray inner ih =>
      funext column d
      rw [serializeOf, serializeAsyncOf, ih]
      rfl
  | htuple items ih =>
      funext column d
      -- The columns are written by the inner serializers, which are the same by induction.
      have hcolumns : serializeColumns items = serializeColumnsAsync items := by
        funext fields columns
        exact serializeColumns_eq ih fields columns
      rw [serializeOf, serializeAsyncOf, hcolumns]
      rfl
  | hmap key value ihkey ihvalue =>
      funext column d
      rw [serializeOf, serializeAsyncOf, ihkey, ihvalue]
      rfl

/-- **The two families of serializers agree**: for every type, array and data type they write
the same bytes, or fail alike. -/
theorem serialize_eq (t : ChType) (column : ArrowArray) (d : DataType) :
    serialize t column d = serializeAsync t column d := by
  rw [serialize, serializeAsync, serializeOf_eq]

end Arrow

end ClickhouseArrow
