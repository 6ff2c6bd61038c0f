import ClickhouseArrow.Arrow.Timestamps
import ClickhouseArrow.Wire.Cells
import Mathlib.Data.Rat.Floor
import Mathlib.Algebra.Order.Field.Power
import Mathlib.Tactic.FieldSimp

/-!
# What the bytes of a scalar mean

A value of an Arrow array and the bytes of a `ClickHouse` value both denote an instant, a day,
a number or the index of an enum.  The module says what each denotes, and, for every pair of an
Arrow type and a `ClickHouse` type that the serializers take, which values are written as
bytes of the same meaning.

A 256-bit number has its most significant byte first in the Arrow codec and its least
significant byte first in the native one.  Everything is said for both orders.
-/

namespace ClickhouseArrow

open Wire

namespace Arrow

/-! ## Meanings -/

/-- What a scalar denotes. -/
inductive Meaning
  /-- So many seconds after the beginning of 1970. -/
  | instant (seconds : ℚ)
  /-- So many days after the first day of 1970. -/
  | day (days : Int)
  | number (value : ℚ)
  /-- An index of an enum. -/
  | index (i : Int)

/-- The order of the bytes of a 256-bit number. -/
inductive Order256
  | mostSignificantFirst
  | leastSignificantFirst
  deriving DecidableEq, Repr

/-- The two's complement number of bytes, the least significant first. -/
def signed (bytes : Bytes) : Int :=
  if 2 * ofLeBytes bytes < 256 ^ bytes.length then ofLeBytes bytes
  else ofLeBytes bytes - 256 ^ bytes.length

/-- The bytes of a 256-bit number, the least significant first. -/
def ordered (order : Order256) (bytes : Bytes) : Bytes :=
  match order with
  | .mostSignificantFirst => bytes.reverse
  | .leastSignificantFirst => bytes

/-- The bytes of a value of the type denote this. -/
def Denotes (order : Order256) : ChType → Bytes → Meaning → Prop
  | .int8, bytes, .number q | .int16, bytes, .number q | .int32, bytes, .number q
  | .int64, bytes, .number q | .int128, bytes, .number q => (signed bytes : ℚ) = q
  | .uint8, bytes, .number q | .uint16, bytes, .number q | .uint32, bytes, .number q
  | .uint64, bytes, .number q | .uint128, bytes, .number q => (ofLeBytes bytes : ℚ) = q
  | .int256, bytes, .number q => (signed (ordered order bytes) : ℚ) = q
  | .uint256, bytes, .number q => (ofLeBytes (ordered order bytes) : ℚ) = q
  | .decimal32 s, bytes, .number q | .decimal64 s, bytes, .number q
  | .decimal128 s, bytes, .number q => (signed bytes : ℚ) / 10 ^ s = q
  | .decimal256 s, bytes, .number q => (signed (ordered order bytes) : ℚ) / 10 ^ s = q
  | .date, bytes, .day d => (ofLeBytes bytes : Int) = d
  -- Days since the first day of 1900.
  | .date32, bytes, .day d => signed bytes - 25567 = d
  | .dateTime _, bytes, .instant q => (ofLeBytes bytes : Int) = ⌊q⌋
  | .dateTime64 p _, bytes, .instant q => signed bytes = ⌊q * 10 ^ p⌋
  | .enum8 _, bytes, .index i | .enum16 _, bytes, .index i => signed bytes = i
  | _, _, _ => False

/-- How many bytes a value of the type has. -/
def widthOf : ChType → Nat
  | .int8 | .uint8 | .enum8 _ => 1
  | .int16 | .uint16 | .date | .enum16 _ => 2
  | .int32 | .uint32 | .decimal32 _ | .date32 | .dateTime _ => 4
  | .int64 | .uint64 | .decimal64 _ | .dateTime64 _ _ => 8
  | .int128 | .uint128 | .decimal128 _ => 16
  | .int256 | .uint256 | .decimal256 _ => 32
  | _ => 0

/-- The number of an integer of an Arrow type. -/
def integerOf : (t : PrimitiveType) → t.Native → Option Int
  | .int8, v => some (Int8.toInt v)
  | .int16, v => some (Int16.toInt v)
  | .int32, v => some (Int32.toInt v)
  | .int64, v => some (Int64.toInt v)
  | .uint8, v => some (UInt8.toNat v)
  | .uint16, v => some (UInt16.toNat v)
  | .uint32, v => some (UInt32.toNat v)
  | .uint64, v => some (UInt64.toNat v)
  | _, _ => none

/-- What a value of an Arrow array denotes for a column of the type: an integer is the index of
an enum where the column is one. -/
def meaningOf (t : ChType) : (pt : PrimitiveType) → pt.Native → Option Meaning
  | .decimal128 _ s, v => some (.number (BitVec.toInt v / (10 : ℚ) ^ s.toInt))
  | .decimal256 _ s, v => some (.number (signed (Octets.bytes v) / (10 : ℚ) ^ s.toInt))
  | .date32, v => some (.day (Int32.toInt v))
  | .timestamp unit _, v => some (.instant (Int64.toInt v / unit.perSecond))
  | pt, v =>
      (integerOf pt v).map fun i =>
        match t with
        | .enum8 _ | .enum16 _ => .index i
        | _ => .number i

/-- The cell has the width of the type and denotes what the row does, if the row is not null. -/
def SaysRow (order : Order256) (t : ChType) (pt : PrimitiveType) (row : Option pt.Native)
    (cell : Bytes) : Prop :=
  cell.length = widthOf t ∧
    ∀ v, row = some v → ∃ meaning, meaningOf t pt v = some meaning ∧ Denotes order t cell meaning

/-- The types of integers, decimals, dates, instants and enums.  The precision of an instant is at
most 9. -/
def IsScalar : ChType → Prop
  | .int8 | .int16 | .int32 | .int64 | .int128 | .int256 => True
  | .uint8 | .uint16 | .uint32 | .uint64 | .uint128 | .uint256 => True
  | .decimal32 _ | .decimal64 _ | .decimal128 _ | .decimal256 _ => True
  | .date | .date32 | .dateTime _ | .enum8 _ | .enum16 _ => True
  | .dateTime64 p _ => p ≤ 9
  | _ => False

/-- Either serializer returns an error, or writes for every row a cell of its meaning. -/
def WritesMeaning (order : Order256) (t : ChType) (pt : PrimitiveType) (values : List pt.Native)
    (nulls : Nulls) : Prop :=
  ∀ m, Tells (SaysRow order t pt) (slots values nulls)
    (serializeBy m t (.primitive pt values nulls) (.primitive pt))

/-! ## Which values keep their meaning -/

/-- The number of which the 32 bytes are those of a number in the opposite order. -/
def mirrored (n : Int) : Int := signed (leBytes 32 (n % 2 ^ 256).toNat).reverse

/-- The same for a number that is not negative. -/
def mirroredNat (n : Nat) : Nat := ofLeBytes (leBytes 32 n).reverse

/-- A decimal is written with its digits, whatever its scale. -/
def decimalFate (s : Nat) (scale : Int8) (v : Int) : Fate :=
  if v = 0 ∨ scale.toInt = s then .kept else .changed

/-- The digits have to be so many at most. -/
def narrowFate (digits s : Nat) (scale : Int8) (v : Int) : Fate :=
  if -(10 ^ digits) < v ∧ v < 10 ^ digits then decimalFate s scale v else .refused

def wideFate (order : Order256) (s : Nat) (scale : Int8) (v : Int) : Fate :=
  match order with
  | .mostSignificantFirst => decimalFate s scale v
  | .leastSignificantFirst =>
      if (mirrored v : ℚ) / 10 ^ s = v / (10 : ℚ) ^ scale.toInt then .kept else .changed

/-- Days that do not fit are refused. -/
def dateFate (v : Int) : Fate := if v < 0 ∨ 65535 < v then .refused else .kept

/-- The distance to 1900 is added to days of 32 bits. -/
def date32Fate (v : Int) : Fate := if 2 ^ 31 ≤ v + 25567 then .overflows else .kept

/-- Seconds after 2106 are refused, those before 1970 are not. -/
def secondsFate (v : Int) : Fate :=
  if 2 ^ 32 ≤ v then .refused else if 0 ≤ v then .kept else .changed

/-- The precision whose ticks are written for a precision. -/
def writtenPrecision (p : Nat) : Nat :=
  if p = 0 then 0 else if p ≤ 3 then 3 else if p ≤ 6 then 6 else 9

/-- Ticks of a coarser unit are multiplied, those of a finer one divided, as numbers without a
sign, to the ticks of one of the precisions 0, 3, 6 and 9. -/
def ticksFate (p : Nat) (unit : TimeUnit) (v : Int) : Fate :=
  let written := 10 ^ writtenPrecision p
  if unit.perSecond < written then
    let factor := written / unit.perSecond
    if v < 0 ∨ 2 ^ 64 ≤ v * factor then .overflows
    else if v * factor < 2 ^ 63 ∧ (p = writtenPrecision p ∨ v = 0) then .kept
    else .changed
  else
    let divisor := unit.perSecond / written
    if 0 ≤ v ∧ (p = writtenPrecision p ∨ v < divisor) ∨
        divisor = 1 ∧ (p = writtenPrecision p ∨ v = -1) then .kept
    else .changed

/-- An integer is cast to the width of the enum before it is looked up. -/
def indexFate (cast : Int → Int) (indexes : List Int) (v : Int) : Fate :=
  if cast v ∈ indexes then if cast v = v then .kept else .changed else .refused

/-- What becomes of a value. -/
def valueFate (order : Order256) : (t : ChType) → (pt : PrimitiveType) → pt.Native → Fate
  | .int8, .int8, _ | .int16, .int16, _ | .int32, .int32, _ | .int64, .int64, _
  | .uint8, .uint8, _ | .uint16, .uint16, _ | .uint32, .uint32, _ | .uint64, .uint64, _
  | .int128, .int64, _ | .uint128, .uint64, _ => .kept
  | .int256, .int64, v =>
      if order = .mostSignificantFirst ∨ mirrored (Int64.toInt v) = Int64.toInt v then .kept
      else .changed
  | .uint256, .uint64, v =>
      if order = .mostSignificantFirst ∨ mirroredNat (UInt64.toNat v) = UInt64.toNat v then .kept
      else .changed
  | .decimal32 s, .decimal128 _ scale, v => narrowFate 9 s scale (BitVec.toInt v)
  | .decimal64 s, .decimal128 _ scale, v => narrowFate 18 s scale (BitVec.toInt v)
  | .decimal128 s, .decimal128 _ scale, v => decimalFate s scale (BitVec.toInt v)
  | .decimal256 s, .decimal128 _ scale, v => wideFate order s scale (BitVec.toInt v)
  | .decimal256 s, .decimal256 _ scale, v => wideFate order s scale (signed (Octets.bytes v))
  | .date, .date32, v => dateFate (Int32.toInt v)
  | .date32, .date32, v => date32Fate (Int32.toInt v)
  | .dateTime _, .timestamp .second _, v => secondsFate (Int64.toInt v)
  | .dateTime64 p _, .timestamp unit _, v => ticksFate p unit (Int64.toInt v)
  | .enum8 pairs, pt, v =>
      (integerOf pt v).elim .refused
        (indexFate (fun i => (Int8.ofInt i).toInt) (pairs.map fun pair => pair.2.toInt))
  | .enum16 pairs, pt, v =>
      (integerOf pt v).elim .refused
        (indexFate (fun i => (Int16.ofInt i).toInt) (pairs.map fun pair => pair.2.toInt))
  -- The serializer of the type does not take the array.
  | _, _, _ => .refused

/-- What becomes of a row: a null is a zero, which an enum has to have. -/
def rowFate (order : Order256) (t : ChType) (pt : PrimitiveType) : Option pt.Native → Fate
  | some v => valueFate order t pt v
  | none =>
      match t with
      | .enum8 pairs => if 0 ∈ pairs.map fun pair => pair.2.toInt then .kept else .refused
      | .enum16 pairs => if 0 ∈ pairs.map fun pair => pair.2.toInt then .kept else .refused
      | _ => .kept

end Arrow

end ClickhouseArrow
