import ClickhouseArrow.Arrow.Arrays
import ClickhouseArrow.Arrow.TypeMap
import ClickhouseArrow.Native.Block

/-!
# Writing an Arrow array

`Type::serialize_async` and the modules under `arrow/serialize`, which write the arrays of a
batch to a socket.  A writer returns the bytes of the whole array.  A downcast is a match on
the constructor of the array.  The state that the source passes along is not read by any of
these functions.
-/

namespace ClickhouseArrow

open Wire

namespace Arrow

/-! ## Arithmetic -/

/-- A sum of two `i32`. -/
def addI32 (a b : Int32) : ArrowResult Int32 :=
  let sum := a.toInt + b.toInt
  if -2 ^ 31 ≤ sum ∧ sum < 2 ^ 31 then .ok (Int32.ofInt sum) else .panic .addOverflow

/-- A product of two `u64`. -/
def mulU64 (a b : UInt64) : ArrowResult UInt64 :=
  if a.toNat * b.toNat < 2 ^ 64 then .ok (UInt64.ofNat (a.toNat * b.toNat))
  else .panic .mulOverflow

/-- `vec![0u8; n]`. -/
def zeroed (n : Nat) : ArrowResult Bytes :=
  if isizeMax < n then .panic .capacityOverflow else .ok (List.replicate n 0)

/-- `From` a binary float of `e` exponent and `m` mantissa bits into one of `e'` and `m'`: the
number stays the same, and a NaN becomes quiet. -/
def widenFloat (e m e' m' bits : Nat) : Nat :=
  let sign := bits / 2 ^ (e + m) * 2 ^ (e' + m')
  let exponent := bits / 2 ^ m % 2 ^ e
  let mantissa := bits % 2 ^ m
  let bias := 2 ^ (e - 1) - 1
  let bias' := 2 ^ (e' - 1) - 1
  if exponent = 2 ^ e - 1 then
    sign + (2 ^ e' - 1) * 2 ^ m' +
      (if mantissa = 0 then 0 else mantissa * 2 ^ (m' - m) ||| 2 ^ (m' - 1))
  else if exponent = 0 then
    if mantissa = 0 then sign
    else
      -- A subnormal number has a leading bit of its own in the wider format.
      let k := Nat.log2 mantissa
      sign + (bias' + k + 1 - bias - m) * 2 ^ m' + (mantissa - 2 ^ k) * 2 ^ (m' - k)
  else sign + (exponent + bias' - bias) * 2 ^ m' + mantissa * 2 ^ (m' - m)

/-- `f32::from` of an `f16`. -/
def f32OfF16 (bits : UInt16) : UInt32 := UInt32.ofNat (widenFloat 5 10 8 23 bits.toNat)

/-- `f64::from` of an `f16`. -/
def f64OfF16 (bits : UInt16) : UInt64 := UInt64.ofNat (widenFloat 5 10 11 52 bits.toNat)

/-- `f64::from` of an `f32`. -/
def f64OfF32 (bits : UInt32) : UInt64 := UInt64.ofNat (widenFloat 8 23 11 52 bits.toNat)

/-- One, the least subnormal number and a NaN. -/
example : f64OfF32 0x3F800000 = 0x3FF0000000000000 ∧ f32OfF16 1 = 0x33800000 ∧
    f32OfF16 0x7C01 = 0x7FC02000 := by decide

/-! ## Fixed-width values -/

/-- The error of a writer that none of its downcasts suits. -/
def expectedOneOf (arrays : List String) : ArrowError :=
  .arrowSerialize [.text ("Expected one of: " ++ String.join (arrays.map (· ++ " ")))]

/-- The error of a dispatch that the type does not belong to. -/
def unsupportedType (t : ChType) : ArrowError :=
  .arrowSerialize [.text "Unsupported data type: ", .type t]

namespace Primitive

def expected (array : String) : ArrowError := .arrowSerialize [.text ("Expected " ++ array)]

/-- The loop of `write_primitive_values!`: every row through the coercion, a null as the
default. -/
def writeRows {α β : Type} (default : β) (coerce : α → ArrowResult β) (write : β → Bytes)
    (rows : List (Option α)) : ArrowResult Bytes :=
  Outcome.emit (fun row =>
    match row with
    | none => .ok (write default)
    | some value => do
        let x ← coerce value
        .ok (write x)) rows

def writeI8Values : ArrowArray → ArrowResult Bytes
  | .primitive .int8 values nulls => writeRows (0 : Int8) .ok putLe (slots values nulls)
  | _ => .fail (expected "Int8Array")

def writeI16Values : ArrowArray → ArrowResult Bytes
  | .primitive .int16 values nulls => writeRows (0 : Int16) .ok putLe (slots values nulls)
  | _ => .fail (expected "Int16Array")

def writeI32Values : ArrowArray → ArrowResult Bytes
  | .primitive .int32 values nulls => writeRows (0 : Int32) .ok putLe (slots values nulls)
  | _ => .fail (expected "Int32Array")

def writeI64Values : ArrowArray → ArrowResult Bytes
  | .primitive .int64 values nulls => writeRows (0 : Int64) .ok putLe (slots values nulls)
  | _ => .fail (expected "Int64Array")

def writeU8Values : ArrowArray → ArrowResult Bytes
  | .primitive .uint8 values nulls => writeRows (0 : UInt8) .ok putLe (slots values nulls)
  | _ => .fail (expected "UInt8Array")

def writeBoolValues : ArrowArray → ArrowResult Bytes
  | .boolean values nulls =>
      writeRows (0 : UInt8) (fun b => .ok (if b then 1 else 0)) putLe (slots values nulls)
  | _ => .fail (expected "BooleanArray")

def writeU16Values : ArrowArray → ArrowResult Bytes
  | .primitive .uint16 values nulls => writeRows (0 : UInt16) .ok putLe (slots values nulls)
  | _ => .fail (expected "UInt16Array")

def writeU32Values : ArrowArray → ArrowResult Bytes
  | .primitive .uint32 values nulls => writeRows (0 : UInt32) .ok putLe (slots values nulls)
  | _ => .fail (expected "UInt32Array")

def writeU64Values : ArrowArray → ArrowResult Bytes
  | .primitive .uint64 values nulls => writeRows (0 : UInt64) .ok putLe (slots values nulls)
  | _ => .fail (expected "UInt64Array")

/-- A byte string that has to be `n` bytes long. -/
def exactly (n : Nat) (complaint : String) (value : Bytes) : ArrowResult Bytes :=
  if value.length = n then .ok value else .fail (.arrowSerialize [.text complaint])

/-- `from_le_bytes` of 16 bytes. -/
def from128 (complaint : String) (value : Bytes) : ArrowResult (BitVec 128) := do
  let bytes ← exactly 16 complaint value
  .ok (BitVec.ofNat 128 (ofLeBytes bytes))

def writeI128Values : ArrowArray → ArrowResult Bytes
  | .primitive .int64 values nulls =>
      writeRows (0 : BitVec 128) (fun v : Int64 => .ok (BitVec.ofInt 128 v.toInt)) putLe
        (slots values nulls)
  | .bytes .binary values nulls =>
      writeRows 0 (from128 "Binary must be 16 bytes for Int128") putLe (slots values nulls)
  | .fixedSizeBinary _ values nulls =>
      writeRows 0 (from128 "FixedSizeBinary must be 16 bytes for Int128") putLe
        (slots values nulls)
  | _ => .fail (expectedOneOf ["Int64Array", "BinaryArray", "FixedSizeBinaryArray"])

def writeU128Values : ArrowArray → ArrowResult Bytes
  | .primitive .uint64 values nulls =>
      writeRows (0 : BitVec 128) (fun v : UInt64 => .ok (BitVec.ofNat 128 v.toNat)) putLe
        (slots values nulls)
  | .bytes .binary values nulls =>
      writeRows 0 (from128 "Binary must be 16 bytes for UInt128") putLe (slots values nulls)
  | .fixedSizeBinary _ values nulls =>
      writeRows 0 (from128 "FixedSizeBinary must be 16 bytes for UInt128") putLe
        (slots values nulls)
  | _ => .fail (expectedOneOf ["UInt64Array", "BinaryArray", "FixedSizeBinaryArray"])

/-- `[u8; 32]::default()`. -/
def zero256 : Bytes := List.replicate 32 0

/-- `swap_endian_256`. -/
def swapEndian256 (input : Bytes) : Bytes := input.reverse

/-- The 32 bytes of a sign-extended 128-bit number, least significant first. -/
def signExtended (v : BitVec 128) : Bytes :=
  putLe v ++ List.replicate 16 (if v.toInt < 0 then 0xFF else 0)

def writeI256Values : ArrowArray → ArrowResult Bytes
  | .primitive .int64 values nulls =>
      writeRows zero256
        (fun v : Int64 => .ok (swapEndian256 (signExtended (BitVec.ofInt 128 v.toInt)))) id
        (slots values nulls)
  | .bytes .binary values nulls =>
      writeRows zero256 (fun v => swapEndian256 <$> exactly 32 "Binary must be 32 bytes for Int256" v)
        id (slots values nulls)
  | .fixedSizeBinary _ values nulls =>
      writeRows zero256
        (fun v => swapEndian256 <$> exactly 32 "FixedSizeBinary must be 32 bytes for Int256" v) id
        (slots values nulls)
  | _ => .fail (expectedOneOf ["Int64Array", "BinaryArray", "FixedSizeBinaryArray"])

def writeU256Values : ArrowArray → ArrowResult Bytes
  | .primitive .uint64 values nulls =>
      writeRows zero256
        (fun v : UInt64 => .ok (swapEndian256 (putLe v ++ List.replicate 24 0))) id
        (slots values nulls)
  | .bytes .binary values nulls =>
      writeRows zero256
        (fun v => swapEndian256 <$> exactly 32 "Binary must be 32 bytes for UInt256" v) id
        (slots values nulls)
  | .fixedSizeBinary _ values nulls =>
      writeRows zero256
        (fun v => swapEndian256 <$> exactly 32 "FixedSizeBinary must be 32 bytes for UInt256" v) id
        (slots values nulls)
  | _ => .fail (expectedOneOf ["UInt64Array", "BinaryArray", "FixedSizeBinaryArray"])

/-- A number of at most so many digits. -/
def inDigits (name : String) (digits : Nat) (v : BitVec 128) : ArrowResult Int :=
  if -(10 ^ digits : Int) < v.toInt ∧ v.toInt < 10 ^ digits then .ok v.toInt
  else .fail (.arrowSerialize [.text name, .text " out of range of (max ", .number digits,
    .text " digits): ", .number v.toInt])

def writeDecimal32Values : ArrowArray → ArrowResult Bytes
  | .primitive (.decimal128 _ _) values nulls =>
      writeRows (0 : Int32) (fun v => Int32.ofInt <$> inDigits "Decimal32" 9 v) putLe
        (slots values nulls)
  | _ => .fail (expectedOneOf ["Decimal128Array"])

def writeDecimal64Values : ArrowArray → ArrowResult Bytes
  | .primitive (.decimal128 _ _) values nulls =>
      writeRows (0 : Int64) (fun v => Int64.ofInt <$> inDigits "Decimal64" 18 v) putLe
        (slots values nulls)
  | _ => .fail (expectedOneOf ["Decimal128Array"])

def writeDecimal128Values : ArrowArray → ArrowResult Bytes
  | .primitive (.decimal128 _ _) values nulls =>
      writeRows (0 : BitVec 128) .ok putLe (slots values nulls)
  | _ => .fail (expectedOneOf ["Decimal128Array"])

def writeDecimal256Values : ArrowArray → ArrowResult Bytes
  | .primitive (.decimal256 _ _) values nulls =>
      writeRows zero256 (fun v : Octets 32 => .ok (swapEndian256 v.bytes)) id (slots values nulls)
  | .primitive (.decimal128 _ _) values nulls =>
      writeRows zero256 (fun v => .ok (swapEndian256 (signExtended v))) id (slots values nulls)
  | _ => .fail (expectedOneOf ["Decimal256Array", "Decimal128Array"])

/-- Days since 1970, as `ClickHouse` keeps them in 16 bits. -/
def dateOfDays (v : Int32) : ArrowResult UInt16 :=
  if v < 0 ∨ 65535 < v then
    .fail (.arrowSerialize [.text "Date out of range for Date32 (ClickHouse uses u16): ",
      .number v.toInt])
  else .ok (UInt16.ofNat v.toInt.toNat)

def writeDateValues : ArrowArray → ArrowResult Bytes
  | .primitive .date32 values nulls =>
      writeRows (0 : UInt16) dateOfDays putLe (slots values nulls)
  | _ => .fail (expectedOneOf ["Date32Array"])

/-- `DAYS_1900_TO_1970`. -/
def days1900To1970 : Int32 := 25567

def writeDate32Values : ArrowArray → ArrowResult Bytes
  | .primitive .date32 values nulls =>
      writeRows (0 : Int32) (fun v => addI32 v days1900To1970) putLe (slots values nulls)
  | _ => .fail (expectedOneOf ["Date32Array"])

/-- Seconds since 1970, as `ClickHouse` keeps them in 32 bits; there is no lower bound. -/
def dateTimeOfSeconds (v : Int64) : ArrowResult UInt32 :=
  if 4294967295 < v then
    .fail (.arrowSerialize [.text "DateTime out of range for TimestampSecond (ClickHouse uses u32): ",
      .number v.toInt])
  else .ok v.toUInt64.toUInt32

def writeDatetimeValues : ArrowArray → ArrowResult Bytes
  | .primitive (.timestamp .second _) values nulls =>
      writeRows (0 : UInt32) dateTimeOfSeconds putLe (slots values nulls)
  | _ => .fail (expectedOneOf ["TimestampSecondArray"])

def timestampArrays : List String :=
  ["TimestampMillisecondArray", "TimestampMicrosecondArray", "TimestampNanosecondArray",
    "TimestampSecondArray"]

def writeDatetime64Values3 : ArrowArray → ArrowResult Bytes
  | .primitive (.timestamp .millisecond _) values nulls =>
      writeRows (0 : UInt64) (fun v : Int64 => .ok v.toUInt64) putLe (slots values nulls)
  | .primitive (.timestamp .microsecond _) values nulls =>
      writeRows (0 : UInt64) (fun v : Int64 => .ok (v.toUInt64 / 1000)) putLe (slots values nulls)
  | .primitive (.timestamp .nanosecond _) values nulls =>
      writeRows (0 : UInt64) (fun v : Int64 => .ok (v.toUInt64 / 1000000)) putLe
        (slots values nulls)
  | .primitive (.timestamp .second _) values nulls =>
      writeRows (0 : UInt64) (fun v : Int64 => mulU64 v.toUInt64 1000) putLe (slots values nulls)
  | _ => .fail (expectedOneOf timestampArrays)

def writeDatetime64Values6 : ArrowArray → ArrowResult Bytes
  | .primitive (.timestamp .microsecond _) values nulls =>
      writeRows (0 : UInt64) (fun v : Int64 => .ok v.toUInt64) putLe (slots values nulls)
  | .primitive (.timestamp .millisecond _) values nulls =>
      writeRows (0 : UInt64) (fun v : Int64 => mulU64 v.toUInt64 1000) putLe (slots values nulls)
  | .primitive (.timestamp .nanosecond _) values nulls =>
      writeRows (0 : UInt64) (fun v : Int64 => .ok (v.toUInt64 / 1000)) putLe (slots values nulls)
  | .primitive (.timestamp .second _) values nulls =>
      writeRows (0 : UInt64) (fun v : Int64 => mulU64 v.toUInt64 1000000) putLe
        (slots values nulls)
  | _ => .fail (expectedOneOf timestampArrays)

def writeDatetime64Values9 : ArrowArray → ArrowResult Bytes
  | .primitive (.timestamp .nanosecond _) values nulls =>
      writeRows (0 : UInt64) (fun v : Int64 => .ok v.toUInt64) putLe (slots values nulls)
  | .primitive (.timestamp .millisecond _) values nulls =>
      writeRows (0 : UInt64) (fun v : Int64 => mulU64 v.toUInt64 1000000) putLe
        (slots values nulls)
  | .primitive (.timestamp .microsecond _) values nulls =>
      writeRows (0 : UInt64) (fun v : Int64 => mulU64 v.toUInt64 1000) putLe (slots values nulls)
  | .primitive (.timestamp .second _) values nulls =>
      writeRows (0 : UInt64) (fun v : Int64 => mulU64 v.toUInt64 1000000000) putLe
        (slots values nulls)
  | _ => .fail (expectedOneOf timestampArrays)

def writeDatetime64UnknownValues : ArrowArray → ArrowResult Bytes
  | .primitive (.timestamp .second _) values nulls =>
      writeRows (0 : UInt64) (fun v : Int64 => .ok v.toUInt64) putLe (slots values nulls)
  | .primitive (.timestamp .millisecond _) values nulls =>
      writeRows (0 : UInt64) (fun v : Int64 => .ok (v.toUInt64 / 1000)) putLe (slots values nulls)
  | .primitive (.timestamp .microsecond _) values nulls =>
      writeRows (0 : UInt64) (fun v : Int64 => .ok (v.toUInt64 / 1000000)) putLe
        (slots values nulls)
  | .primitive (.timestamp .nanosecond _) values nulls =>
      writeRows (0 : UInt64) (fun v : Int64 => .ok (v.toUInt64 / 1000000000)) putLe
        (slots values nulls)
  | _ => .fail (expectedOneOf timestampArrays)

def writeIpv4Values : ArrowArray → ArrowResult Bytes
  | .fixedSizeBinary _ values nulls =>
      writeRows (0 : UInt32)
        (fun v => (fun bytes => UInt32.ofNat (ofLeBytes bytes)) <$> exactly 4 "IPv4 must be 4 bytes" v)
        putLe (slots values nulls)
  | _ => .fail (expectedOneOf ["FixedSizeBinaryArray"])

def writeIpv6Values : ArrowArray → ArrowResult Bytes
  | .fixedSizeBinary _ values nulls =>
      writeRows (List.replicate 16 0) (exactly 16 "IPv6 must be 16 bytes") id (slots values nulls)
  | _ => .fail (expectedOneOf ["FixedSizeBinaryArray"])

def writeF32Values : ArrowArray → ArrowResult Bytes
  | .primitive .float32 values nulls => writeRows (0 : UInt32) .ok putLe (slots values nulls)
  | .primitive .float16 values nulls =>
      writeRows (0 : UInt32) (fun v : UInt16 => .ok (f32OfF16 v)) putLe (slots values nulls)
  | _ => .fail (expectedOneOf ["Float32Array", "Float16Array"])

def writeF64Values : ArrowArray → ArrowResult Bytes
  | .primitive .float64 values nulls => writeRows (0 : UInt64) .ok putLe (slots values nulls)
  | .primitive .float32 values nulls =>
      writeRows (0 : UInt64) (fun v : UInt32 => .ok (f64OfF32 v)) putLe (slots values nulls)
  | .primitive .float16 values nulls =>
      writeRows (0 : UInt64) (fun v : UInt16 => .ok (f64OfF16 v)) putLe (slots values nulls)
  | _ => .fail (expectedOneOf ["Float64Array", "Float32Array", "Float16Array"])

/-- The arm of a UUID: the high half goes first, each half least significant byte first. -/
def writeUuidValues : ArrowArray → ArrowResult Bytes
  | .fixedSizeBinary _ values nulls =>
      writeRows (List.replicate 16 0) (exactly 16 "UUID must be 16 bytes")
        (fun bytes => bytes.drop 8 ++ bytes.take 8) (slots values nulls)
  | _ => .fail (.arrowSerialize [.text "Expected FixedSizeBinaryArray for Uuid"])

/-- `primitive::serialize_async`. -/
def serializeAsync (t : ChType) (values : ArrowArray) (d : DataType) : ArrowResult Bytes :=
  match t with
  | .int8 => writeI8Values values
  | .int16 => writeI16Values values
  | .int32 => writeI32Values values
  | .int64 => writeI64Values values
  | .int128 => writeI128Values values
  | .int256 => writeI256Values values
  | .uint8 => if d = .boolean then writeBoolValues values else writeU8Values values
  | .uint16 => writeU16Values values
  | .uint32 => writeU32Values values
  | .uint64 => writeU64Values values
  | .uint128 => writeU128Values values
  | .uint256 => writeU256Values values
  | .float32 => writeF32Values values
  | .float64 => writeF64Values values
  | .decimal32 _ => writeDecimal32Values values
  | .decimal64 _ => writeDecimal64Values values
  | .decimal128 _ => writeDecimal128Values values
  | .decimal256 _ => writeDecimal256Values values
  | .date => writeDateValues values
  | .date32 => writeDate32Values values
  | .dateTime _ => writeDatetimeValues values
  | .dateTime64 p _ =>
      if p = 0 then writeDatetime64UnknownValues values
      else if p ≤ 3 then writeDatetime64Values3 values
      else if p ≤ 6 then writeDatetime64Values6 values
      else if p ≤ 9 then writeDatetime64Values9 values
      else .fail (.arrowSerialize [.text "Unsupported precision for DateTime64: ", .number p])
  | .ipv4 => writeIpv4Values values
  | .ipv6 => writeIpv6Values values
  | .uuid => writeUuidValues values
  | t => .fail (unsupportedType t)

end Primitive

/-! ## Strings and binary values -/

namespace Binary

/-- The loop of `write_variable_values!`: a null is the empty string. -/
def writeVariable (rows : List (Option Bytes)) : Bytes :=
  rows.flatMap fun row => writeString (row.getD [])

def writeStringValues : ArrowArray → ArrowResult Bytes
  | .bytes _ values nulls => .ok (writeVariable (slots values nulls))
  | _ => .fail (expectedOneOf ["StringArray", "BinaryArray", "StringViewArray", "BinaryViewArray",
      "LargeStringArray", "LargeBinaryArray"])

def writeBinaryValues : ArrowArray → ArrowResult Bytes
  | .bytes _ values nulls => .ok (writeVariable (slots values nulls))
  | _ => .fail (expectedOneOf ["BinaryArray", "StringArray", "StringViewArray", "BinaryViewArray",
      "LargeBinaryArray", "LargeStringArray"])

/-- One row of `write_fixed_values!`: a null is zeros, a value of another length is cut or
padded. -/
def writeFixed (len : Nat) : Option Bytes → ArrowResult Bytes
  | none => zeroed len
  | some value =>
      if value.length ≠ len then do
        let padded ← zeroed len
        .ok (value.take len ++ padded.drop (min value.length len))
      else .ok value

def writeFixedStringValues (len : Nat) : ArrowArray → ArrowResult Bytes
  | .bytes _ values nulls | .fixedSizeBinary _ values nulls =>
      Outcome.emit (writeFixed len) (slots values nulls)
  | _ => .fail (expectedOneOf ["StringArray", "FixedSizeBinaryArray", "BinaryArray",
      "StringViewArray", "BinaryViewArray", "LargeStringArray", "LargeBinaryArray"])

def writeFixedBinaryValues (len : Nat) : ArrowArray → ArrowResult Bytes
  | .bytes _ values nulls | .fixedSizeBinary _ values nulls =>
      Outcome.emit (writeFixed len) (slots values nulls)
  | _ => .fail (expectedOneOf ["FixedSizeBinaryArray", "BinaryArray", "LargeBinaryArray",
      "BinaryViewArray", "StringArray", "StringViewArray", "LargeStringArray"])

/-- `binary::serialize_async`. -/
def serializeAsync (t : ChType) (values : ArrowArray) : ArrowResult Bytes :=
  match t with
  | .string | .object => writeStringValues values
  | .binary => writeBinaryValues values
  | .fixedSizedString len => writeFixedStringValues len values
  | .fixedSizedBinary len => writeFixedBinaryValues len values
  | t => .fail (unsupportedType t)

end Binary

/-! ## Enums -/

namespace Enums

/-- The integers of an integer array. -/
def integers : ArrowArray → Option (List (Option Int))
  | .primitive .int8 values nulls => some (slots (values.map Int8.toInt) nulls)
  | .primitive .int16 values nulls => some (slots (values.map Int16.toInt) nulls)
  | .primitive .int32 values nulls => some (slots (values.map Int32.toInt) nulls)
  | .primitive .int64 values nulls => some (slots (values.map Int64.toInt) nulls)
  | .primitive .uint8 values nulls => some (slots (values.map fun v : UInt8 => (v.toNat : Int)) nulls)
  | .primitive .uint16 values nulls =>
      some (slots (values.map fun v : UInt16 => (v.toNat : Int)) nulls)
  | .primitive .uint32 values nulls =>
      some (slots (values.map fun v : UInt32 => (v.toNat : Int)) nulls)
  | .primitive .uint64 values nulls =>
      some (slots (values.map fun v : UInt64 => (v.toNat : Int)) nulls)
  | _ => none

/-- `std::str::from_utf8`. -/
def strOfUtf8 (value : Bytes) : ArrowResult Unit :=
  if (String.fromUTF8? ⟨value.toArray⟩).isSome then .ok () else .fail .utf8

/-- The text of a value, which is checked where the array is one of bytes. -/
def text (t : BytesType) (value : Bytes) : ArrowResult Bytes := do
  if t.isUtf8 then .ok value
  else
    strOfUtf8 value
    .ok value

section Values

variable {α : Type} [Word α] [DecidableEq α]

/-- The dictionary has the labels of the type, in their order. -/
def checkLabels : Nat → List Bytes → List (String × α) → ArrowResult Unit
  | i, value :: values, (label, _) :: pairs =>
      if value ≠ utf8Bytes label then
        .fail (.arrowSerialize [.text "Enum value mismatch at index ", .number i, .text ": '",
          .bytes value, .text "' vs '", .text label, .text "'"])
      else checkLabels (i + 1) values pairs
  | _, _, _ => .ok ()

/-- `HashMap::get` in the map collected from the pairs: of equal labels the last one stays. -/
def valueOf (pairs : List (String × α)) (value : Bytes) : Option α :=
  ((pairs.filter fun pair => utf8Bytes pair.1 = value).getLast?).map Prod.snd

/-- `write_enum_values!` over the values of the enum, to which `cast` casts an integer. -/
def writeEnumValues (cast : Int → α) (toInt : α → Int) (pairs : List (String × α))
    (array : ArrowArray) : ArrowResult Bytes :=
  match array with
  | .dictionary _ keys nulls (.bytes .utf8 labels _) =>
      if labels.length ≠ pairs.length then
        .fail (.arrowSerialize [.text "Enum value count mismatch: ", .number labels.length,
          .text " vs ", .number pairs.length])
      else do
        checkLabels 0 labels pairs
        Outcome.emit (fun key =>
          match key with
          | none => .ok (putLe (cast 0))
          | some k =>
              match pairs[k]? with
              | some pair => .ok (putLe pair.2)
              | none => .fail (.arrowSerialize [.text "Dictionary key ", .number k,
                  .text " out of bounds"])) (slots keys nulls)
  | .dictionary _ _ _ _ => .fail (.arrowSerialize [.text "Enum values must be strings"])
  | .bytes t values nulls =>
      Outcome.emit (fun row =>
        match row with
        | none => .ok (putLe (cast 0))
        | some value => do
            let value ← text t value
            match valueOf pairs value with
            | some key => .ok (putLe key)
            | none => .fail (.arrowSerialize [.text "String '", .bytes value, .text "' not in enum"]))
        (slots values nulls)
  | array =>
      match integers array with
      | some rows =>
          Outcome.emit (fun row =>
            let value := cast (row.getD 0)
            -- A null is looked up as well.
            if pairs.any fun pair => pair.2 = value then .ok (putLe value)
            else .fail (.arrowSerialize [.text "Value ", .number (toInt value),
              .text " not found in enum"])) rows
      | none => .fail (.arrowSerialize
          [.text "Expected DictionaryArray, PrimitiveArray, StringArray, or BinaryArray, got ",
            .dataType array.dataType])

end Values

def writeEnum8Values (pairs : List (String × Int8)) (array : ArrowArray) : ArrowResult Bytes :=
  writeEnumValues Int8.ofInt Int8.toInt pairs array

def writeEnum16Values (pairs : List (String × Int16)) (array : ArrowArray) : ArrowResult Bytes :=
  writeEnumValues Int16.ofInt Int16.toInt pairs array

/-- `enums::serialize_async`. -/
def serializeAsync (t : ChType) (values : ArrowArray) : ArrowResult Bytes :=
  match t with
  | .enum8 pairs => writeEnum8Values pairs values
  | .enum16 pairs => writeEnum16Values pairs values
  | t => .fail (unsupportedType t)

end Enums

/-! ## Default values -/

/-- `put_slice(&bytes[..n])` of the eight bytes of a zero. -/
def zeroWord (n : Nat) : ArrowResult Bytes :=
  if n ≤ 8 then .ok (List.replicate n 0) else .panic .indexOutOfBounds

def noDefault (t : ChType) : ArrowError :=
  .serializeError [.text "No default value for type: ", .type t]

mutual

/-- The default of a type that stands in a `Nullable` or does not. -/
def writeDefaultOf (isNull : Bool) : ChType → ArrowResult Bytes
  | .string | .binary => .ok (writeString [])
  | .fixedSizedString n | .fixedSizedBinary n => zeroed n
  | .int8 | .enum8 _ => .ok (putLe (0 : Int8))
  | .int16 | .enum16 _ => .ok (putLe (0 : Int16))
  | .int32 | .date32 | .decimal32 _ => .ok (putLe (0 : Int32))
  | .int64 | .decimal64 _ => .ok (putLe (0 : Int64))
  | .int128 | .uint128 | .uuid | .ipv6 | .decimal128 _ => .ok (List.replicate 16 0)
  | .int256 | .uint256 | .decimal256 _ => .ok (List.replicate 32 0)
  | .uint8 => .ok (putLe (0 : UInt8))
  | .uint16 | .date => .ok (putLe (0 : UInt16))
  | .uint32 | .ipv4 | .dateTime _ => .ok (putLe (0 : UInt32))
  | .uint64 => .ok (putLe (0 : UInt64))
  | .float32 => .ok (putLe (0 : UInt32))
  | .float64 => .ok (putLe (0 : UInt64))
  | .dateTime64 precision _ => zeroWord precision
  | .array _ | .map _ _ => .ok (writeVarUint 0)
  | .lowCardinality inner => writeDefaultOf false inner
  | .tuple inner => writeDefaults inner
  | .nullable inner =>
      if isNull then .fail (noDefault (.nullable (.nullable inner))) else writeDefaultOf true inner
  | t => .fail (noDefault (if isNull then .nullable t else t))

def writeDefaults : List ChType → ArrowResult Bytes
  | [] => .ok []
  | t :: ts => do
      let bytes ← writeDefaultOf false t
      let rest ← writeDefaults ts
      .ok (bytes ++ rest)

end

/-- `write_default`. -/
def writeDefault (t : ChType) : ArrowResult Bytes := writeDefaultOf false t

/-! ## Nulls -/

namespace Null

/-- `serialize_nulls_async`: a byte for every row, 1 for a null.  An array or a map has no
nulls. -/
def serializeNullsAsync (inner : ChType) (array : ArrowArray) : Bytes :=
  match inner with
  | .array _ | .map _ _ => []
  | _ =>
      match array.nulls with
      | some valid => valid.map fun isValid => if isValid then 0 else 1
      | none => List.replicate array.len 0

end Null

/-! ## Dictionaries -/

namespace LowCardinality

open ClickhouseArrow.LowCardinality

/-- `downcast_ref::<DictionaryArray<K>>`. -/
def downcast (key : KeyType) : ArrowArray → Option (List Nat × Nulls × ArrowArray)
  | .dictionary key' keys nulls values => if key = key' then some (keys, nulls, values) else none
  | _ => none

/-- The type of the keys that a data type names. -/
def keyTypeOf : DataType → Option KeyType
  | .primitive .int8 => some .int8
  | .primitive .int16 => some .int16
  | .primitive .int32 => some .int32
  | .primitive .int64 => some .int64
  | .primitive .uint8 => some .uint8
  | .primitive .uint16 => some .uint16
  | .primitive .uint32 => some .uint32
  | .primitive .uint64 => some .uint64
  | _ => none

/-- The index type in the flag word, for a dictionary of so many values. -/
def keyTypeFlag (dictLen : Nat) : IndexType :=
  if 4294967295 < dictLen then .uint64
  else if 65535 < dictLen then .uint32
  else if 255 < dictLen then .uint16
  else .uint8

/-- One key of `write_dictionary_keys!`.  A null gets the first index. -/
def writeKey (flag : IndexType) (modifier : Nat) (key : Option Nat) : Bytes :=
  flag.put (key.elim 0 fun k => k + modifier)

/-- `write_values`: the flag word, the values with the default of the type before them where
the values have no null of their own, and the keys. -/
def writeValues (key : KeyType) (inner : ChType)
    (serialize : ArrowArray → DataType → ArrowResult Bytes) (values : ArrowArray) :
    ArrowResult Bytes :=
  match downcast key values with
  | none => .fail (.arrowSerialize [.text "Failed to downcast to DictionaryArray"])
  | some (keys, nulls, dictionary) =>
      if keys.isEmpty then .ok []
      else do
        let alreadyHasNull := decide (0 < dictionary.nullCount)
        let modifier := (inner.isNullable && !alreadyHasNull).toNat
        let adjustedDictLen := dictionary.len + modifier
        let flag := keyTypeFlag adjustedDictLen
        let default ← if modifier = 1 then writeDefault inner else .ok []
        let body ← serialize dictionary dictionary.dataType
        .ok (putUsize (flag.code ||| hasAdditionalKeysBit) ++ putUsize adjustedDictLen ++ default ++
          body ++ putUsize keys.length ++ (slots keys nulls).flatMap (writeKey flag modifier))

/-- The loop of `handle_string_array!`: the dictionary so far, extended by every value that is
not in it, and the key of each row. -/
def internRows : List Bytes → List (Option Bytes) → List Bytes × List Nat
  | dict, [] => (dict, [])
  | dict, none :: rows =>
      let rest := internRows dict rows
      (rest.1, 0 :: rest.2)
  | dict, some value :: rows =>
      match dict.findIdx? (· = value) with
      | some index =>
          let rest := internRows dict rows
          (rest.1, index :: rest.2)
      | none =>
          let rest := internRows (dict ++ [value]) rows
          (rest.1, dict.length :: rest.2)

/-- An index as `i32`, cast to the index type. -/
def writeIndex (flag : IndexType) (index : Nat) : Bytes :=
  flag.put (usizeOfInt (i32OfUsize index).toInt)

/-- `BinaryArray::from_iter_values`: the offsets are 32 bits wide. -/
def binaryArrayOf (values : List Bytes) : ArrowResult ArrowArray :=
  if 2 ^ 31 ≤ values.flatten.length then .panic .unwrapNone else .ok (.bytes .binary values none)

/-- `write_string_values`. -/
def writeStringValues (values : ArrowArray) (nullable : Bool) : ArrowResult Bytes :=
  match values with
  | .bytes _ rows nulls => do
      let nullable := decide (0 < values.nullCount) || nullable
      let interned := internRows (if nullable then [[]] else []) (slots rows nulls)
      let flag := keyTypeFlag interned.1.length
      let dict ← binaryArrayOf interned.1
      let body ← Binary.serializeAsync .binary dict
      .ok (putUsize (flag.code ||| hasAdditionalKeysBit) ++ putUsize interned.1.length ++ body ++
        putUsize interned.2.length ++ interned.2.flatMap (writeIndex flag))
  | values => .fail (.arrowSerialize
      [.text "Expected string-like array, got ", .dataType values.dataType])

/-- `low_cardinality::serialize_async`. -/
def serializeAsync (inner : ChType) (isNull : Bool)
    (serialize : ArrowArray → DataType → ArrowResult Bytes) (values : ArrowArray) (d : DataType) :
    ArrowResult Bytes :=
  if values.len = 0 then .ok []
  else
    match d with
    | .dictionary keyType _ =>
        match keyTypeOf keyType with
        | some key => writeValues key inner serialize values
        | none => .panic .unreachable
    | .bytes _ => writeStringValues values isNull
    | d => .fail (.arrowSerialize
        [.text "`LowCardinality` must be either String or Dictionary: ", .dataType d])

end LowCardinality

/-! ## Nested values -/

namespace Lists

/-- `unwrap_array_data_type`. -/
def unwrapArrayDataType : DataType → ArrowResult DataType
  | .list _ f | .listView _ f | .fixedSizeList f _ => .ok f.dataType
  | d => .fail (.arrowSerialize [.text "Expected List or FixedSizeList, got ", .dataType d])

/-- `offsets[1..]`. -/
def tailOffsets : List Nat → ArrowResult (List Nat)
  | [] => .panic .indexOutOfBounds
  | _ :: offsets => .ok offsets

/-- The end of each row of a list of so many values a row. -/
def fixedOffsets (size : Int32) (rows : Nat) : ArrowResult (List Nat) :=
  Outcome.traverse (fun i =>
    let offset := usizeOfInt size.toInt * (i + 1)
    if offset < 2 ^ 64 then .ok offset else .panic .mulOverflow) (List.range rows)

/-- `write_list_array!` over the offsets of a list or the starts of a list view. -/
def writeListArray (serialize : ArrowArray → DataType → ArrowResult Bytes) (d : DataType)
    (offsets : List Nat) (values : ArrowArray) : ArrowResult Bytes := do
  let innerDt ← unwrapArrayDataType d
  let offsets ← tailOffsets offsets
  let body ← serialize values innerDt
  .ok (offsets.flatMap putUsize ++ body)

/-- `list::serialize_async`. -/
def serializeAsync (inner : ChType) (serialize : ArrowArray → DataType → ArrowResult Bytes)
    (values : ArrowArray) (d : DataType) : ArrowResult Bytes :=
  match values with
  | .list _ _ offsets values _ => writeListArray serialize d offsets values
  | .listView _ _ offsets _ values _ => writeListArray serialize d offsets values
  | .fixedSizeList _ size rows values _ => do
      let innerDt ← unwrapArrayDataType d
      let offsets ← fixedOffsets size rows
      let body ← serialize values innerDt
      .ok (offsets.flatMap putUsize ++ body)
  | _ => .fail (.arrowSerialize [.text "Expected ListArray or FixedSizeListArray: type=",
      .type inner, .text ", data_type=", .dataType d])

end Lists

namespace Maps

/-- The lengths of the rows of a map, added up. -/
def totalLengths : Nat → List Nat → List Nat
  | total, a :: b :: offsets => (total + (b - a)) :: totalLengths (total + (b - a)) (b :: offsets)
  | _, _ => []

/-- `map::serialize_async` for a hint that is a map. -/
def serializeAsync (key value : ArrowArray → DataType → ArrowResult Bytes) (column : ArrowArray)
    (d : DataType) : ArrowResult Bytes :=
  match column with
  | .map _ _ offsets keys values _ =>
      match d with
      | .map entries _ =>
          match entries.dataType with
          | .struct [keyField, valueField] => do
              let keyBytes ← key keys keyField.dataType
              let valueBytes ← value values valueField.dataType
              .ok ((totalLengths 0 offsets).flatMap putUsize ++ keyBytes ++ valueBytes)
          | .struct _ => .fail (.arrowSerialize
              [.text "MapArray struct must have exactly two fields (key, value)"])
          | _ => .fail (.arrowSerialize [.text "MapArray field must be a Struct"])
      | _ => .fail (.arrowSerialize [.text "Expected Map data type for MapArray"])
  | _ => .fail (.arrowSerialize [.text "Expected MapArray for Map type"])

end Maps

namespace Tuples

/-- `tuple::serialize_async`, where `columns` writes the columns under their fields. -/
def serializeAsync (arity : Nat)
    (serialize : List Field → List ArrowArray → ArrowResult Bytes) (column : ArrowArray) :
    ArrowResult Bytes :=
  match column with
  | .struct fields columns _ _ =>
      if fields.length ≠ arity then
        .fail (.arrowSerialize [.text "StructArray has ", .number fields.length,
          .text " fields, but Tuple expects ", .number arity])
      else serialize fields columns
  | _ => .fail (.arrowSerialize [.text "Expected StructArray for Tuple type"])

/-- The column at an index. -/
def column : List ArrowArray → ArrowResult (ArrowArray × List ArrowArray)
  | [] => .panic .indexOutOfBounds
  | a :: columns => .ok (a, columns)

end Tuples

/-! ## Columns of any type -/

/-- The coordinates of a point. -/
def serializeCoordinatesAsync : List Field → List ArrowArray → ArrowResult Bytes
  | [f, g], columns => do
      let (x, columns) ← Tuples.column columns
      let xs ← Primitive.serializeAsync .float64 x f.dataType
      let (y, _) ← Tuples.column columns
      let ys ← Primitive.serializeAsync .float64 y g.dataType
      .ok (xs ++ ys)
  | _, _ => .ok []

/-- A point is written as the tuple that it is an alias of, and the other geo types as arrays
of it. -/
def serializePointAsync (column : ArrowArray) : ArrowResult Bytes :=
  Tuples.serializeAsync 2 serializeCoordinatesAsync column

def serializeRingAsync (column : ArrowArray) (d : DataType) : ArrowResult Bytes :=
  Lists.serializeAsync (.tuple [.float64, .float64]) (fun a _ => serializePointAsync a) column d

def serializePolygonAsync (column : ArrowArray) (d : DataType) : ArrowResult Bytes :=
  Lists.serializeAsync ringType serializeRingAsync column d

def serializeMultiPolygonAsync (column : ArrowArray) (d : DataType) : ArrowResult Bytes :=
  Lists.serializeAsync (.array ringType) serializePolygonAsync column d

mutual

/-- `Type::serialize_async` of a type that stands in a `Nullable` or does not. -/
def serializeAsyncOf (isNull : Bool) : ChType → ArrowArray → DataType → ArrowResult Bytes
  | .nullable inner, column, d =>
      if isNull then .panic .unreachable
      else do
        let body ← serializeAsyncOf true inner column d
        .ok (Null.serializeNullsAsync inner column ++ body)
  | .string, column, _ => Binary.serializeAsync .string column
  | .binary, column, _ => Binary.serializeAsync .binary column
  | .fixedSizedString n, column, _ => Binary.serializeAsync (.fixedSizedString n) column
  | .fixedSizedBinary n, column, _ => Binary.serializeAsync (.fixedSizedBinary n) column
  | .object, column, _ => Binary.serializeAsync .object column
  | .enum8 pairs, column, _ => Enums.serializeAsync (.enum8 pairs) column
  | .enum16 pairs, column, _ => Enums.serializeAsync (.enum16 pairs) column
  | .lowCardinality (.nullable inner), column, d =>
      LowCardinality.serializeAsync (.nullable inner) isNull (serializeAsyncOf false inner) column d
  | .lowCardinality inner, column, d =>
      LowCardinality.serializeAsync inner isNull (serializeAsyncOf false inner) column d
  | .array inner, column, d => Lists.serializeAsync inner (serializeAsyncOf false inner) column d
  | .map key value, column, d =>
      -- The hint is unwrapped with its `Nullable`.
      if isNull then .fail (.unexpectedType (.nullable (.map key value)))
      else Maps.serializeAsync (serializeAsyncOf false key) (serializeAsyncOf false value) column d
  | .tuple items, column, _ =>
      Tuples.serializeAsync items.length (serializeColumnsAsync items) column
  | .point, column, _ => serializePointAsync column
  | .ring, column, d => serializeRingAsync column d
  | .polygon, column, d => serializePolygonAsync column d
  | .multiPolygon, column, d => serializeMultiPolygonAsync column d
  | t, column, d => Primitive.serializeAsync t column d

/-- The columns of a tuple, each with the type and the field it is zipped with. -/
def serializeColumnsAsync : List ChType → List Field → List ArrowArray → ArrowResult Bytes
  | t :: ts, f :: fs, columns => do
      let (column, columns) ← Tuples.column columns
      let bytes ← serializeAsyncOf false t column f.dataType
      let rest ← serializeColumnsAsync ts fs columns
      .ok (bytes ++ rest)
  | _, _, _ => .ok []

end

theorem serializeAsyncOf_lowCardinality (isNull : Bool) (inner : ChType) (column : ArrowArray)
    (d : DataType) :
    serializeAsyncOf isNull (.lowCardinality inner) column d =
      LowCardinality.serializeAsync inner isNull (serializeAsyncOf false inner.stripNull) column
        d := by
  cases inner <;> rfl

/-- `Type::serialize_async`. -/
def serializeAsync (t : ChType) (column : ArrowArray) (d : DataType) : ArrowResult Bytes :=
  serializeAsyncOf false t column d

theorem serializeColumnsAsync_coordinates (fields : List Field) (columns : List ArrowArray)
    (h : fields.length = 2) :
    serializeColumnsAsync [.float64, .float64] fields columns =
      serializeCoordinatesAsync fields columns := by
  match fields, h with
  | [f, g], _ =>
      simp [serializeColumnsAsync, serializeCoordinatesAsync, serializeAsyncOf, bind_assoc]

theorem serializePointAsync_eq (column : ArrowArray) :
    serializePointAsync column =
      Tuples.serializeAsync 2 (serializeColumnsAsync [.float64, .float64]) column := by
  cases column with
  | struct fields columns len nulls =>
      by_cases h : fields.length = 2
      · simp [serializePointAsync, Tuples.serializeAsync, h, serializeColumnsAsync_coordinates]
      · simp [serializePointAsync, Tuples.serializeAsync, h]
  | _ => rfl

/-- A geo type is written as its alias. -/
theorem serializeAsync_geo {t u : ChType} (h : normalizeGeoType t = .ok u) (column : ArrowArray)
    (d : DataType) : serializeAsync t column d = serializeAsync u column d := by
  have hring : serializeRingAsync = serializeAsyncOf false ringType := by
    funext column d
    simp only [serializeRingAsync, serializePointAsync_eq]
    rfl
  have hpolygon : serializePolygonAsync = serializeAsyncOf false (.array ringType) := by
    funext column d
    rw [serializePolygonAsync, hring]
    rfl
  cases t <;> simp only [normalizeGeoType, Outcome.fail, reduceCtorEq, Except.ok.injEq] at h
  all_goals subst h
  · exact serializePointAsync_eq column
  · exact congrFun (congrFun hring column) d
  · exact congrFun (congrFun hpolygon column) d
  · change serializeMultiPolygonAsync column d = _
    rw [serializeMultiPolygonAsync, hpolygon]
    rfl

end Arrow

end ClickhouseArrow
