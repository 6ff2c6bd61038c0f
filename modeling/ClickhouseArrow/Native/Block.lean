import ClickhouseArrow.Native.Deserialize
import ClickhouseArrow.Native.TypeNames

/-!
# Blocks

`Block` and `BlockInfo`: how the columns of a block follow one another on the wire.  The
asynchronous and the synchronous writers are the same code over two kinds of writer; the
readers branch on the `Mode`, as the column readers do.
-/

namespace ClickhouseArrow

open Wire

/-! ## Strings -/

/-- The bytes of a string. -/
def utf8Bytes (s : String) : Bytes := s.toByteArray.data.toList

/-- `String::from_utf8`. -/
def fromUtf8 (bytes : Bytes) : Result String :=
  match String.fromUTF8? ⟨bytes.toArray⟩ with
  | some s => .ok s
  | none => .fail .fromUtf8

/-- `read_utf8_string`, and `try_get_string` followed by `String::from_utf8`. -/
def readUtf8String (m : Mode) : Reader Error String := do
  let bytes ← readString m
  Reader.ofOutcome (fromUtf8 bytes)

/-! ## Block info -/

/-- Metadata about a block. -/
structure BlockInfo where
  isOverflows : Bool
  bucketNum : Int32
  deriving DecidableEq

namespace BlockInfo

/-- The default. -/
def initial : BlockInfo := ⟨false, -1⟩

/-- `BlockInfo::write_async` and `BlockInfo::write`. -/
def write (info : BlockInfo) : Bytes :=
  writeVarUint 1 ++ (putLe (if info.isOverflows then 1 else 2 : UInt8) ++
    (writeVarUint 2 ++ (putLe info.bucketNum ++ writeVarUint 0)))

def unknownField (fieldNum : Nat) : Error :=
  .protocol [.text "unknown block info field number: ", .number fieldNum]

/-- The loop over the fields. -/
def readFields (m : Mode) : Nat → BlockInfo → Reader Error BlockInfo
  | 0, _ => Reader.panic .outOfFuel
  | fuel + 1, new => do
      let fieldNum ← readVarUint m
      match fieldNum with
      | 0 => pure new
      | 1 => do
          let b ← getLe UInt8 m.eof
          readFields m fuel { new with isOverflows := b ≠ 0 }
      | 2 => do
          let n ← getLe Int32 m.eof
          readFields m fuel { new with bucketNum := n }
      | n => Reader.fail (unknownField n)

/-- `BlockInfo::read_async` and `BlockInfo::read`.  Every field takes a byte at least. -/
def read (m : Mode) : Reader Error BlockInfo :=
  fun bs => readFields m (bs.length + 1) initial bs

end BlockInfo

/-! ## Blocks -/

/-- A chunk of data in columnar form. -/
structure Block where
  info : BlockInfo
  rows : UInt64
  /-- The type of each column by name, in order. -/
  columnTypes : List (String × ChType)
  /-- The data of the columns, one after the other. -/
  columnData : List Value

/-- `DBMS_MIN_PROTOCOL_VERSION_WITH_CUSTOM_SERIALIZATION`. -/
def minRevisionWithCustomSerialization : Nat := 54454

namespace Block

/-- What follows the names of a column: the flag of a custom serialization, the prefix and
the values, all of it only if there are rows. -/
def writeBody (revision rows : Nat) (t : ChType) (values : List Value) : Result Bytes :=
  if 0 < rows then do
    let column ← t.serializeColumn values
    .ok ((if minRevisionWithCustomSerialization ≤ revision then putLe (0 : UInt8) else []) ++
      (t.serializePrefix ++ column))
  else .ok []

/-- The columns, each with the next `rows` values of the data. -/
def writeColumns (revision rows : Nat) : List (String × ChType) → List Value → Result Bytes
  | [], _ => .ok []
  | (name, t) :: columns, data =>
      -- `drain(..rows)` is out of range.
      if data.length < rows then .panic .indexOutOfBounds
      else do
        let body ← writeBody revision rows t (data.take rows)
        let rest ← writeColumns revision rows columns (data.drop rows)
        .ok (writeString (utf8Bytes name) ++
          (writeString (utf8Bytes (String.ofList t.display)) ++ (body ++ rest)))

/-- `Block::write_async` and `Block::write`. -/
def write (b : Block) (revision : Nat) : Result Bytes := do
  let columns ← writeColumns revision b.rows.toNat b.columnTypes b.columnData
  .ok ((if 0 < revision then b.info.write else []) ++
    (writeVarUint b.columnTypes.length ++ (writeVarUint b.rows.toNat ++ columns)))

/-- The prefix and the values of a column. -/
def readValues (m : Mode) (t : ChType) (rows : Nat) : Reader Error (List Value) :=
  if 0 < rows then do
    t.deserializePrefix m
    t.readColumn m rows
  else pure []

/-- The flag of a custom serialization, read whether there are rows or not; its value is
not used. -/
def readFlag (m : Mode) (revision : Nat) : Reader Error Unit :=
  if minRevisionWithCustomSerialization ≤ revision then do
    let _ ← getLe UInt8 m.eof
    pure ()
  else pure ()

/-- The columns of a block, with their values one after the other. -/
def readColumns (lex : Lexicon) (m : Mode) (revision rows : Nat) :
    Nat → Reader Error (List (String × ChType) × List Value)
  | 0 => pure ([], [])
  | columns + 1 => do
      let name ← readUtf8String m
      let typeName ← readUtf8String m
      readFlag m revision
      let t ← Reader.ofOutcome (ChType.fromStr lex typeName.toList)
      let rowData ← readValues m t rows
      let (columnTypes, columnData) ← readColumns lex m revision rows columns
      pure ((name, t) :: columnTypes, rowData ++ columnData)

/-- The info of a block, or the default at revision zero. -/
def readInfo (m : Mode) (revision : Nat) : Reader Error BlockInfo :=
  if 0 < revision then BlockInfo.read m else pure BlockInfo.initial

/-- `Block::read_async` and `Block::read`. -/
def read (lex : Lexicon) (m : Mode) (revision : Nat) : Reader Error Block := do
  let info ← readInfo m revision
  let columns ← readVarUint m
  let rows ← readVarUint m
  let (columnTypes, columnData) ← readColumns lex m revision rows columns
  pure ⟨info, UInt64.ofNat rows, columnTypes, columnData⟩

end Block

/-! ## Estimated sizes -/

/-- A sum of two `usize`. -/
def addUsize (a b : Nat) : Result Nat :=
  if usizeMax < a + b then .panic .addOverflow else .ok (a + b)

/-- A product of two `usize`. -/
def mulUsize (a b : Nat) : Result Nat :=
  if usizeMax < a * b then .panic .mulOverflow else .ok (a * b)

namespace ChType

/-- `estimate_capacity`. -/
def estimateCapacity : ChType → Result Nat
  | .int8 | .uint8 => .ok 1
  | .int16 | .uint16 | .date => .ok 2
  | .int32 | .uint32 | .float32 | .date32 | .dateTime _ | .ipv4 => .ok 4
  | .int64 | .uint64 | .float64 | .dateTime64 _ _ => .ok 8
  | .int128 | .uint128 | .uuid | .ipv6 | .point => .ok 16
  | .int256 | .uint256 | .string | .binary => .ok 32
  | .fixedSizedString n | .fixedSizedBinary n => .ok n
  | .array inner => do
      let innerData ← inner.estimateCapacity
      let row ← addUsize 4 innerData
      mulUsize row 8
  | .nullable inner => inner.estimateCapacity
  | .tuple types => sum 0 types
  | .map key value => do
      let keyData ← key.estimateCapacity
      let valueData ← value.estimateCapacity
      let size ← addUsize 4 keyData
      addUsize size valueData
  | _ => .ok 64
where
  sum (size : Nat) : List ChType → Result Nat
    | [] => .ok size
    | t :: ts => do
        let capacity ← t.estimateCapacity
        let size' ← addUsize size capacity
        sum size' ts

end ChType

namespace Block

/-- The loop of `estimate_size` over the columns. -/
def estimateColumns (rows : Nat) (size : Nat) : List (String × ChType) → Result Nat
  | [] => .ok size
  | (name, t) :: columns => do
      let names ← addUsize (utf8Bytes name).length (utf8Bytes (String.ofList t.display)).length
      let overhead ← addUsize names 10
      let size ← addUsize size overhead
      let capacity ← t.estimateCapacity
      let data ← mulUsize rows capacity
      let size' ← addUsize size data
      estimateColumns rows size' columns

/-- `estimate_size`. -/
def estimateSize (b : Block) : Result Nat := do
  let size ← estimateColumns b.rows.toNat 16 b.columnTypes
  let size ← mulUsize size 6
  .ok (size / 5)

/-- `no_data` and `into_option`. -/
def intoOption (b : Block) : Option Block :=
  if b.columnData.isEmpty ∧ b.columnTypes.isEmpty then none else some b

end Block

end ClickhouseArrow
