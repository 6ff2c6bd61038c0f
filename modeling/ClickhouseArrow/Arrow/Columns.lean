import ClickhouseArrow.Arrow.Builder
import ClickhouseArrow.Native.Block

/-!
# Filling a builder

The macros that read the rows of a column into its builder (`deser_bulk!`, `opt_value!`,
`primitive!`, `binary!` and their asynchronous namesakes) and what the builders of the Arrow
library make of the rows.  The two families of macros differ in the reader alone, which is a
parameter here; which macro is used for which builder is said twice, as in the source.
-/

namespace ClickhouseArrow

open Wire

namespace Arrow

/-! ## Reading -/

/-- The end of the input, as the Arrow side reports it. -/
def eof (m : Mode) (requested available : Nat) : ArrowError := .native (m.eof requested available)

/-- A buffer of so many bytes, filled by `read_exact` or by `try_copy_to_slice`. -/
def readBuffer (m : Mode) (n : Nat) : Reader ArrowError Bytes :=
  if isizeMax < n then Reader.panic .capacityOverflow else Reader.takeExact (eof m) n

/-- `cast_slice` to values of so many bytes. -/
def castSlice (width : Nat) : Nat → Bytes → List Bytes
  | 0, _ => []
  | n + 1, bytes => bytes.take width :: castSlice width n (bytes.drop width)

/-- `from_le_bytes`. -/
def ofLe (α : Type) [Word α] (bytes : Bytes) : α := Word.ofNat (ofLeBytes bytes)

/-- `primitive_bulk!`: all values of the column in one read. -/
def readBulk (m : Mode) (α : Type) [Word α] (rows : Nat) : Reader ArrowError (List α) := do
  let bytes ← readBuffer m (rows * Word.width α)
  pure ((castSlice (Word.width α) rows bytes).map (ofLe α))

/-- `$nulls.is_empty() || $nulls[$row] == 0`. -/
def isValid (nulls : Bytes) (row : Nat) : ArrowResult Bool :=
  if nulls.isEmpty then .ok true
  else
    match nulls[row]? with
    | some n => .ok (n == 0)
    | none => .panic .indexOutOfBounds

/-- The values from the given row on, those that the mask leaves. -/
def maskFrom {α : Type} (nulls : Bytes) : Nat → List α → ArrowResult (List (Option α))
  | _, [] => .ok []
  | row, value :: values => do
      let valid ← isValid nulls row
      let rest ← maskFrom nulls (row + 1) values
      .ok ((if valid then some value else none) :: rest)

/-- `deser_bulk!`.  Nothing is read where there are no rows. -/
def deserBulk (m : Mode) (α : Type) [Word α] (rows : Nat) (nulls : Bytes) :
    Reader ArrowError (List (Option α)) :=
  if rows = 0 then pure []
  else do
    let values ← readBulk m α rows
    Reader.ofOutcome (maskFrom nulls 0 values)

/-- `opt_value!` of a value that has been read: it goes to the builder by `append`, unless the
row is null. -/
def appendRow {α β : Type} (append : α → ArrowResult β) (valid : Bool) (value : α) :
    ArrowResult (Option β) :=
  if valid then some <$> append value else .ok none

/-- `opt_value!` for every row from the given one on.  A null has a value in the stream too. -/
def optValues {α β : Type} (nulls : Bytes) (read : Reader ArrowError α)
    (append : α → ArrowResult β) : Nat → Nat → Reader ArrowError (List (Option β))
  | _, 0 => pure []
  | row, n + 1 => do
      let valid ← Reader.ofOutcome (isValid nulls row)
      let value ← read
      let entry ← Reader.ofOutcome (appendRow append valid value)
      let rest ← optValues nulls read append (row + 1) n
      pure (entry :: rest)

/-! ## Values -/

/-- A difference of two `i32`. -/
def subI32 (a b : Int32) : ArrowResult Int32 :=
  let difference := a.toInt - b.toInt
  if -2 ^ 31 ≤ difference ∧ difference < 2 ^ 31 then .ok (Int32.ofInt difference)
  else .panic .subtractOverflow

/-- `primitive!(Date32)`: days since 1970. -/
def readDate32 (m : Mode) : Reader ArrowError Int32 := do
  let days ← getLe Int32 (eof m)
  Reader.ofOutcome (subI32 days 25567)

/-- `primitive!(Decimal128)`. -/
def readDecimal128 (m : Mode) : Reader ArrowError (BitVec 128) := getLe (BitVec 128) (eof m)

/-- `primitive!(Decimal256)`: the most significant byte comes first. -/
def readDecimal256 (m : Mode) : Reader ArrowError (Octets 32) := do
  let octets ← getOctets (eof m) 32
  pure octets.reverse

/-- The second byte of a character may follow the first. -/
def secondByte (first second : UInt8) : Bool :=
  if first = 0xE0 then 0xA0 ≤ second && second ≤ 0xBF
  else if first = 0xED then 0x80 ≤ second && second ≤ 0x9F
  else if first = 0xF0 then 0x90 ≤ second && second ≤ 0xBF
  else if first = 0xF4 then 0x80 ≤ second && second ≤ 0x8F
  else 0x80 ≤ second && second ≤ 0xBF

def continuation (byte : UInt8) : Bool := 0x80 ≤ byte && byte ≤ 0xBF

/-- The length of a character by its first byte. -/
def charWidth (first : UInt8) : Nat :=
  if first < 0x80 then 1
  else if 0xC2 ≤ first && first ≤ 0xDF then 2
  else if 0xE0 ≤ first && first ≤ 0xEF then 3
  else if 0xF0 ≤ first && first ≤ 0xF4 then 4
  else 0

/-- How many bytes at the start are a character or the beginning of one, and whether it is
complete. -/
def nextChar : Bytes → Nat × Bool
  | [] => (0, true)
  | first :: rest =>
      match charWidth first, rest with
      | 0, _ => (1, false)
      | 1, _ => (1, true)
      | 2, b :: _ => if secondByte first b then (2, true) else (1, false)
      | 3, b :: c :: _ =>
          if secondByte first b then if continuation c then (3, true) else (2, false)
          else (1, false)
      | 3, [b] => if secondByte first b then (2, false) else (1, false)
      | 4, b :: c :: d :: _ =>
          if secondByte first b then
            if continuation c then if continuation d then (4, true) else (3, false) else (2, false)
          else (1, false)
      | 4, [b, c] =>
          if secondByte first b then if continuation c then (3, false) else (2, false)
          else (1, false)
      | 4, [b] => if secondByte first b then (2, false) else (1, false)
      | _, _ => (1, false)

/-- The characters of a text of at most so many bytes, U+FFFD for what is none. -/
def replaceInvalid : Nat → Bytes → Bytes
  | _, [] => []
  | 0, _ => []
  | n + 1, bytes =>
      let next := nextChar bytes
      (if next.2 then bytes.take next.1 else [0xEF, 0xBF, 0xBD]) ++
        replaceInvalid n (bytes.drop next.1)

/-- `String::from_utf8_lossy`. -/
def fromUtf8Lossy (bytes : Bytes) : Bytes := replaceInvalid bytes.length bytes

/-- A lone continuation byte, and a euro sign that is cut off. -/
example : fromUtf8Lossy [0x61, 0x80, 0xE2, 0x82, 0x62] =
    [0x61, 0xEF, 0xBF, 0xBD, 0xEF, 0xBF, 0xBD, 0x62] := by decide

/-- `read_string`, for the Arrow side. -/
def readText (m : Mode) : Reader ArrowError Bytes := (readString m).mapError .native

/-- `Ipv4Addr::octets`, most significant byte first. -/
def ipv4Octets (address : UInt32) : Bytes := (putLe address).reverse

/-! ## Finished arrays -/

/-- `PrimitiveBuilder::finish`. -/
def finishPrimitive (t : PrimitiveType) (rows : List (Option t.Native)) : ArrowArray :=
  .primitive t (valuesOf t.zero rows) (nullsOf rows)

/-- `GenericByteBuilder::finish`. -/
def finishBytes (t : BytesType) (rows : List (Option Bytes)) : ArrowArray :=
  .bytes t (valuesOf [] rows) (nullsOf rows)

/-- `FixedSizeBinaryBuilder::append_value`. -/
def appendFixed (size : Int32) (value : Bytes) : ArrowResult Bytes :=
  if (value.length : Int) = size.toInt then .ok value
  else .fail (.arrow [.text
    "Byte slice does not have the same length as FixedSizeBinaryBuilder value lengths"])

/-- `FixedSizeBinaryBuilder::finish`. -/
def finishFixed (size : Int32) (rows : List (Option Bytes)) : ArrowArray :=
  .fixedSizeBinary size (valuesOf (List.replicate size.toInt.toNat 0) rows) (nullsOf rows)

/-- `StringDictionaryBuilder::append_value`: the key of the value, which is a new one where the
value has not been met.  The key has to fit the type of the keys. -/
def appendLabel (maxKey : Nat) (labels : List Bytes) (value : Bytes) :
    ArrowResult (List Bytes × Nat) :=
  match labels.findIdx? (· = value) with
  | some key => .ok (labels, key)
  | none =>
      if maxKey < labels.length then .panic .unwrapNone
      else .ok (labels ++ [value], labels.length)

/-- The rows of an enum column from the given one on, with the labels met so far. -/
def enumRows {α : Type} [Word α] [DecidableEq α] (m : Mode) (notFound : α → ArrowError)
    (maxKey : Nat) (pairs : List (String × α)) (nulls : Bytes) :
    List Bytes → Nat → Nat → Reader ArrowError (List Bytes × List (Option Nat))
  | labels, _, 0 => pure (labels, [])
  | labels, row, n + 1 => do
      let idx ← getLe α (eof m)
      let valid ← Reader.ofOutcome (isValid nulls row)
      if valid then
        match pairs.find? fun pair => pair.2 = idx with
        | none => Reader.fail (notFound idx)
        | some pair => do
            let entry ← Reader.ofOutcome (appendLabel maxKey labels (utf8Bytes pair.1))
            let rest ← enumRows m notFound maxKey pairs nulls entry.1 (row + 1) n
            pure (rest.1, some entry.2 :: rest.2)
      else do
        let rest ← enumRows m notFound maxKey pairs nulls labels (row + 1) n
        pure (rest.1, none :: rest.2)

/-- `StringDictionaryBuilder::finish`. -/
def finishLabels (key : KeyType) (rows : List Bytes × List (Option Nat)) : ArrowArray :=
  .dictionary key (valuesOf 0 rows.2) (nullsOf rows.2) (.bytes .utf8 rows.1 none)

end Arrow

end ClickhouseArrow
