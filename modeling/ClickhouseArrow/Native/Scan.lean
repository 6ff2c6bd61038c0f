import ClickhouseArrow.Native.Termination

/-!
# Which bytes a column reader can take

`ChType.scanColumn` walks over the bytes of a column and looks only at what decides
the course of the reader: row counts, lengths, offsets, masks, flag words, dictionary
sizes and indexes.  It builds no value; it counts.  A scan ends with the number of
values that the column delivers, is refused where the bytes end early or name an unknown
thing, or meets a defect of the layout:

- an offset of an array that is smaller than the one before it,
- an offset of a map that is larger than the last one,
- a column that delivers fewer values than a map or a null mask counts on,
- a fixed-size string larger than any allocation.

`ChType.WellLaidOut` holds of the bytes whose scan meets no defect and delivers as many
values as rows.  The column reader follows the scan step by step, so it panics or
returns the wrong number of values on exactly the other bytes.
-/

namespace ClickhouseArrow

open Wire

/-- A walk over bytes; a refusal carries no message. -/
abbrev Scan := Reader Unit

namespace Scan

def eof (_ _ : Nat) : Unit := ()

/-- Pass over `n` bytes. -/
def skip (n : Nat) : Scan Unit := do
  let _ ← Reader.takeExact eof n
  pure ()

/-- A 64-bit count, size, offset or flag word. -/
def word : Scan Nat := do
  let n ← getLe UInt64 eof
  pure n.toNat

/-- Pass over a string. -/
def skipString : Scan Unit := do
  let len ← getLeb128 eof 9
  if maxStringSize < len then Reader.fail ()
  else skip len

/-- More rows than a column may have are refused. -/
def atMostMax (rows : Nat) (s : Scan Nat) : Scan Nat :=
  if maxStringSize < rows then Reader.fail () else s

end Scan

open Scan

namespace ChType

/-- The bytes of an entry of a fixed-size type. -/
def entryWidth : ChType → Nat
  | .int8 | .uint8 => 1
  | .int16 | .uint16 | .date => 2
  | .int32 | .uint32 | .float32 | .decimal32 _ | .date32 | .dateTime _ | .ipv4 => 4
  | .int64 | .uint64 | .float64 | .decimal64 _ | .dateTime64 _ _ => 8
  | .int128 | .uint128 | .decimal128 _ | .ipv6 => 16
  | .int256 | .uint256 | .decimal256 _ => 32
  | _ => 0

/-- Pass over one entry; an enum index must be declared. -/
def scanEntry : ChType → Scan Unit
  | .string | .binary | .object => skipString
  | .fixedSizedString n | .fixedSizedBinary n =>
      if isizeMax < n then Reader.panic .capacityOverflow else skip n
  | .uuid => do
      skip 8
      skip 8
  | .enum8 entries => do
      let index ← getLe Int8 eof
      if entries.any fun e => e.2 = index then pure () else Reader.fail ()
  | .enum16 entries => do
      let index ← getLe Int16 eof
      if entries.any fun e => e.2 = index then pure () else Reader.fail ()
  | t => skip t.entryWidth

end ChType

namespace Scan

/-- The entries of a column, one after the other. -/
def entries (entry : Scan Unit) (rows : Nat) : Scan Nat := do
  let _ ← Reader.readMany entry rows
  pure rows

/-- An array column: the items are a column of as many rows as the last offset says, and
no offset may be smaller than the one before it. -/
def array (inner : Nat → Scan Nat) (rows : Nat) : Scan Nat :=
  if rows = 0 then pure 0
  else do
    let offsets ← Reader.readMany word rows
    let _ ← inner (offsets.getLast?.getD 0)
    if Ascending 0 offsets then pure rows else Reader.panic .subtractOverflow

/-- Two columns of doubles. -/
def point (rows : Nat) : Scan Nat :=
  atMostMax rows (do
    let _ ← Reader.readMany (skip 8) rows
    let _ ← Reader.readMany (skip 8) rows
    pure rows)

def ring (rows : Nat) : Scan Nat := atMostMax rows (array point rows)

def polygon (rows : Nat) : Scan Nat := atMostMax rows (array ring rows)

def multiPolygon (rows : Nat) : Scan Nat := atMostMax rows (array polygon rows)

/-- A map column: keys and values must be as many as the last offset says, and no offset
may be larger. -/
def map (key value : Nat → Scan Nat) (rows : Nat) : Scan Nat :=
  if rows = 0 then pure 0
  else do
    let offsets ← Reader.readMany word rows
    let total := offsets.getLast?.getD 0
    let keys ← key total
    if keys ≠ total then Reader.panic .assertionFailed
    else do
      let values ← value total
      if values ≠ total then Reader.panic .assertionFailed
      else if offsets.all (· ≤ total) then pure rows
      else Reader.panic .unwrapNone

/-- A nullable column: the mask may mark only values that the inner column delivers. -/
def nullable (inner : Nat → Scan Nat) (rows : Nat) : Scan Nat := do
  let mask ← Reader.takeExact eof rows
  let delivered ← inner rows
  if (mask.drop delivered).any (· ≠ 0) then Reader.panic .indexOutOfBounds else pure delivered

/-! ## Dictionary columns -/

open LowCardinality

/-- What a scan knows between two blocks of a dictionary column. -/
structure Progress where
  limit : Nat
  /-- The sizes of the dictionaries that were read. -/
  global : Option Nat
  additional : Option Nat
  delivered : Nat

/-- What the head of a block says. -/
structure Head where
  indexType : IndexType
  needsGlobal : Bool
  hasAdditional : Bool
  pending : Nat

/-- The size of a dictionary, and the dictionary as a column. -/
def dictionary (announced : Bool) (inner : Nat → Scan Nat) (kept : Option Nat) :
    Scan (Option Nat) :=
  if announced then do
    let count ← word
    let delivered ← inner count
    pure (some delivered)
  else pure kept

def head (inner : Nat → Scan Nat) (s : Progress) : Scan (Head × Progress) := do
  let flags ← word
  let hasAdditional : Bool := flags &&& hasAdditionalKeysBit ≠ 0
  let needsGlobal : Bool := flags &&& needGlobalDictionaryBit ≠ 0
  let needsUpdate : Bool := flags &&& needUpdateDictionaryBit ≠ 0
  match IndexType.ofCode (flags &&& 255) with
  | none => Reader.fail ()
  | some indexType => do
      let global ← dictionary (needsGlobal && (s.global.isNone || needsUpdate)) inner s.global
      let additional ← dictionary hasAdditional inner s.additional
      let pending ← word
      pure (⟨indexType, needsGlobal, hasAdditional, pending⟩, { s with global, additional })

/-- An index names a null, a key of the block or an entry of the global dictionary. -/
def indexKnown (isNullable : Bool) (h : Head) (s : Progress) (index : Nat) : Bool :=
  let additional := if h.hasAdditional then s.additional.getD 0 else 0
  let global := if h.needsGlobal then s.global.getD 0 else 0
  (h.hasAdditional && isNullable && index == 0) || index < additional + global

def index (i : IndexType) : Scan Nat :=
  match i with
  | .uint8 => UInt8.toNat <$> getLe UInt8 eof
  | .uint16 => UInt16.toNat <$> getLe UInt16 eof
  | .uint32 => UInt32.toNat <$> getLe UInt32 eof
  | .uint64 => UInt64.toNat <$> getLe UInt64 eof

/-- One block.  It delivers its rows only if its flag word announces a dictionary. -/
def block (isNullable : Bool) (inner : Nat → Scan Nat) (s : Progress) : Scan Progress := do
  let (h, s) ← head inner s
  let rows := min s.limit h.pending
  let indexes ← Reader.readMany (index h.indexType) rows
  if h.hasAdditional || h.needsGlobal then
    if indexes.all (indexKnown isNullable h s) then
      pure { s with limit := s.limit - rows, delivered := s.delivered + rows }
    else Reader.fail ()
  else pure { s with limit := s.limit - rows }

/-- Blocks until no rows are wanted. -/
def blocks (isNullable : Bool) (inner : Nat → Scan Nat) : Nat → Progress → Scan Nat
  | 0, _ => Reader.panic .outOfFuel
  | fuel + 1, s =>
      if s.limit = 0 then pure s.delivered
      else do
        let s' ← block isNullable inner s
        blocks isNullable inner fuel s'

/-- A dictionary column.  A block takes sixteen bytes at least, so the blocks are fewer
than the bytes. -/
def lowCardinality (isNullable : Bool) (inner : Nat → Scan Nat) (rows : Nat) : Scan Nat :=
  fun bs => blocks isNullable inner (bs.length + 2) ⟨rows, none, none, 0⟩ bs

end Scan

namespace ChType

/-- Pass over the prefix of a type. -/
def scanPrefix : ChType → Scan Unit
  | .nullable inner => inner.scanPrefix
  | .array inner => inner.scanPrefix
  | .tuple items => prefixes items
  | .map key value => do
      key.scanPrefix
      value.scanPrefix
  | .lowCardinality _ => do
      let version ← word
      if version ≠ LowCardinality.version then Reader.fail () else pure ()
  | .object => skip 1
  | _ => pure ()
where
  prefixes : List ChType → Scan Unit
    | [] => pure ()
    | t :: ts => do
        t.scanPrefix
        prefixes ts

mutual

/-- Walk over a column; the result is the number of values that it delivers. -/
def scanColumn : ChType → Nat → Scan Nat
  | .nullable inner, rows => atMostMax rows (Scan.nullable inner.scanColumn rows)
  | .array inner, rows => atMostMax rows (Scan.array inner.scanColumn rows)
  | .map key value, rows => atMostMax rows (Scan.map key.scanColumn value.scanColumn rows)
  | .tuple items, rows => atMostMax rows (scanTuple items rows)
  | .lowCardinality (.nullable inner), rows =>
      atMostMax rows (Scan.lowCardinality true inner.scanColumn rows)
  | .lowCardinality inner, rows =>
      atMostMax rows (Scan.lowCardinality false inner.scanColumn rows)
  | .point, rows => Scan.point rows
  | .ring, rows => Scan.ring rows
  | .polygon, rows => Scan.polygon rows
  | .multiPolygon, rows => Scan.multiPolygon rows
  | entry, rows => atMostMax rows (Scan.entries entry.scanEntry rows)

/-- The columns of a tuple; there are as many tuples as rows, whatever the columns deliver. -/
def scanTuple : List ChType → Nat → Scan Nat
  | [], rows => pure rows
  | t :: ts, rows => do
      let _ ← t.scanColumn rows
      scanTuple ts rows

end

/-- Walk over the prefix and the column, as a block is read. -/
def scanPrefixedColumn (t : ChType) (rows : Nat) : Scan Nat := do
  t.scanPrefix
  t.scanColumn rows

/-- The layout of the bytes has no defect: the scan meets none, and where it comes to the
end of the column the column delivers one value for every row. -/
def WellLaidOut (t : ChType) (rows : Nat) (bytes : Bytes) : Bool :=
  match t.scanPrefixedColumn rows bytes with
  | .ok (delivered, _) => delivered == rows
  | .error (.error _) => true
  | .error (.panic _) => false

theorem scanColumn_lowCardinality (inner : ChType) (rows : Nat) :
    (ChType.lowCardinality inner).scanColumn rows =
      atMostMax rows (Scan.lowCardinality inner.isNullable inner.stripNull.scanColumn rows) := by
  cases inner <;> simp [scanColumn, isNullable, stripNull]

theorem scanColumn_entry {t : ChType} (h : t.isEntry = true) (rows : Nat) :
    t.scanColumn rows = atMostMax rows (Scan.entries t.scanEntry rows) := by
  cases t <;> first | rfl | simp [isEntry, isComposite, isGeo] at h

end ChType

end ClickhouseArrow
