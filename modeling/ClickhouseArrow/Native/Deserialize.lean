import ClickhouseArrow.Native.Serialize

/-!
# Reading a column

`Type::deserialize_column`, `Type::deserialize_column_sync` and the deserializers under
`native/types/deserialize`.  The two families share most of their code; where they
differ the definition branches on the `Mode`.  Unsigned subtraction is taken as in a
build with overflow checks: a negative difference is a panic.
-/

namespace ClickhouseArrow

open Wire

/-! ## Fixed-size values and strings -/

namespace SizedDeserializer

/-- The text of an unknown index of a 16-bit enum; the asynchronous one names the other
enum. -/
def invalidEnum16 : Mode → String
  | .async => "Invalid enum8 index: "
  | .sync => "Invalid enum16 index: "

/-- The declared label of an enum index: the first entry that carries it. -/
def lookup {ι : Type} [DecidableEq ι] (pairs : List (String × ι)) (index : ι) : Option String :=
  (pairs.find? fun p => p.2 = index).map Prod.fst

/-- An index has a label exactly if it is declared. -/
theorem isSome_lookup {ι : Type} [DecidableEq ι] (pairs : List (String × ι)) (index : ι) :
    (lookup pairs index).isSome = pairs.any fun e => e.2 = index := by
  rw [lookup, Option.isSome_map, Bool.eq_iff_iff, List.find?_isSome, List.any_eq_true]

/-- What the arm of an enum does: it reads an index and looks for its label. -/
def readIndex {ι : Type} [Word ι] [DecidableEq ι] (m : Mode) (pairs : List (String × ι))
    (found : String → ι → Value) (refused : ι → Error) : Reader Error Value := do
  let idx ← getLe ι m.eof
  match lookup pairs idx with
  | some label => pure (found label idx)
  | none => Reader.fail (refused idx)

/-- Read 32 bytes and reverse them. -/
def read256 (m : Mode) : Reader Error (Octets 32) := Octets.reverse <$> getOctets m.eof 32

/-- One value of a fixed-size column. -/
def readEntry (m : Mode) : ChType → Reader Error Value
  | .int8 => .int8 <$> getLe Int8 m.eof
  | .int16 => .int16 <$> getLe Int16 m.eof
  | .int32 => .int32 <$> getLe Int32 m.eof
  | .int64 => .int64 <$> getLe Int64 m.eof
  | .int128 => .int128 <$> getLe (BitVec 128) m.eof
  | .int256 => .int256 <$> read256 m
  | .uint8 => .uint8 <$> getLe UInt8 m.eof
  | .uint16 => .uint16 <$> getLe UInt16 m.eof
  | .uint32 => .uint32 <$> getLe UInt32 m.eof
  | .uint64 => .uint64 <$> getLe UInt64 m.eof
  | .uint128 => .uint128 <$> getLe (BitVec 128) m.eof
  | .uint256 => .uint256 <$> read256 m
  | .float32 => .float32 <$> getLe UInt32 m.eof
  | .float64 => .float64 <$> getLe UInt64 m.eof
  | .decimal32 s => .decimal32 s <$> getLe Int32 m.eof
  | .decimal64 s => .decimal64 s <$> getLe Int64 m.eof
  | .decimal128 s => .decimal128 s <$> getLe (BitVec 128) m.eof
  | .decimal256 s => .decimal256 s <$> read256 m
  | .uuid => do
      let n1 ← getLe UInt64 m.eof
      let n2 ← getLe UInt64 m.eof
      pure (.uuid (BitVec.ofNat 128 ((n1.toNat <<< 64) ||| n2.toNat)))
  | .date => .date <$> getLe UInt16 m.eof
  | .date32 => .date32 <$> getLe Int32 m.eof
  | .dateTime tz => .dateTime tz <$> getLe UInt32 m.eof
  | .ipv4 => .ipv4 <$> getLe UInt32 m.eof
  | .ipv6 => .ipv6 <$> getOctets m.eof 16
  | .dateTime64 precision tz => (Value.dateTime64 tz · precision) <$> getLe UInt64 m.eof
  | .enum8 pairs => do
      let idx ← getLe Int8 m.eof
      match lookup pairs idx with
      | some label => pure (.enum8 label idx)
      | none =>
          Reader.fail (.deserializeError [.text "Invalid enum8 index: ", .number idx.toInt])
  | .enum16 pairs => do
      let idx ← getLe Int16 m.eof
      match lookup pairs idx with
      | some label => pure (.enum16 label idx)
      | none =>
          Reader.fail (.deserializeError [.text (invalidEnum16 m), .number idx.toInt])
  | t => Reader.fail (.deserializeError [.text "SizedDeserializer unimplemented: ", .type t])

end SizedDeserializer

namespace StringDeserializer

/-- A fixed-size string: `n` bytes, cut at the first zero. -/
def readFixed (m : Mode) (n : Nat) : Reader Error Value :=
  if isizeMax < n then Reader.panic .capacityOverflow
  else do
    let buf ← Reader.takeExact m.eof n
    pure (.string (buf.takeWhile (· ≠ 0)))

def readEntry (m : Mode) : ChType → Reader Error Value
  | .string => .string <$> readString m
  | .binary => .string <$> readString m
  | .fixedSizedString n => readFixed m n
  | .fixedSizedBinary n => readFixed m n
  | _ => Reader.fail (.deserializeError [.text "StringDeserializer called with non-string type"])

end StringDeserializer

/-- One value of a JSON column. -/
def ObjectDeserializer.readEntry (m : Mode) : Reader Error Value := .object <$> readString m

/-! ## Arrays and geo types -/

/-- The check at the head of `deserialize_column`. -/
def guardRows (rows : Nat) (column : Reader Error (List Value)) : Reader Error (List Value) :=
  if maxStringSize < rows then
    Reader.fail (.protocol [.text "deserialize response size too large. ", .number rows,
      .text " > ", .number maxStringSize])
  else column

/-- `ArrayDeserializerGeneric`: the end offsets, the items of all values as one column,
and the items cut at the offsets.  Only the asynchronous reader looks for an empty column
before it takes the last offset. -/
def ArrayDeserializer.read (m : Mode) (inner : Nat → Reader Error (List Value))
    (innerValue : List Value → Result Value) (rows : Nat) : Reader Error (List Value) :=
  if m = .async ∧ rows = 0 then pure []
  else do
    let offsets ← Reader.readMany (getUsize m) rows
    match offsets.getLast? with
    | none => Reader.panic .subtractOverflow
    | some last => do
        let items ← inner last
        Reader.ofOutcome (cutAt innerValue 0 offsets items)

namespace PointDeserializer

/-- Store the entries of one coordinate column in the points. -/
def store (set : Point → UInt64 → Point) : List Point → List Value → Result (List Point)
  | points, [] => .ok points
  | [], .float64 _ :: _ => .panic .indexOutOfBounds
  | p :: points, .float64 bits :: values => do
      let rest ← store set points values
      .ok (set p bits :: rest)
  | _, _ :: _ => .panic .unreachable

def read (m : Mode) (rows : Nat) : Reader Error (List Value) := do
  let float64 := guardRows rows (Reader.readMany (SizedDeserializer.readEntry m .float64) rows)
  let xs ← float64
  let points ← Reader.ofOutcome
    (store (fun p bits => { p with x := bits }) (List.replicate rows ⟨0, 0⟩) xs)
  let ys ← float64
  let points ← Reader.ofOutcome (store (fun p bits => { p with y := bits }) points ys)
  pure (points.map .point)

/-- `item_mapping` of a ring. -/
def item : Value → Result Point
  | .point p => .ok p
  | _ => .panic .unreachable

end PointDeserializer

namespace RingDeserializer

def read (m : Mode) (rows : Nat) : Reader Error (List Value) :=
  ArrayDeserializer.read m (fun n => guardRows n (PointDeserializer.read m n))
    (fun items => .ring <$> Outcome.traverse PointDeserializer.item items) rows

/-- `item_mapping` of a polygon. -/
def item : Value → Result (List Point)
  | .ring r => .ok r
  | _ => .panic .unreachable

end RingDeserializer

namespace PolygonDeserializer

def read (m : Mode) (rows : Nat) : Reader Error (List Value) :=
  ArrayDeserializer.read m (fun n => guardRows n (RingDeserializer.read m n))
    (fun items => .polygon <$> Outcome.traverse RingDeserializer.item items) rows

/-- `item_mapping` of a multi-polygon. -/
def item : Value → Result (List (List Point))
  | .polygon p => .ok p
  | _ => .panic .unreachable

end PolygonDeserializer

def MultiPolygonDeserializer.read (m : Mode) (rows : Nat) : Reader Error (List Value) :=
  ArrayDeserializer.read m (fun n => guardRows n (PolygonDeserializer.read m n))
    (fun items => .multiPolygon <$> Outcome.traverse PolygonDeserializer.item items) rows

/-! ## Maps, tuples and nullable columns -/

/-- Columns of one length are asserted; then keys and values are taken one by one. -/
def MapDeserializer.read (m : Mode) (key value : Nat → Reader Error (List Value)) (rows : Nat) :
    Reader Error (List Value) :=
  match m with
  | .sync => Reader.fail (.deserializeError [.text "MapDeserializer sync not yet implemented"])
  | .async =>
      if maxStringSize < rows then
        Reader.fail (.protocol [.text "read_n response size too large for map. ", .number rows,
          .text " > ", .number maxStringSize])
      else if rows = 0 then pure []
      else do
        let offsets ← Reader.readMany (getUsize .async) rows
        match offsets.getLast? with
        | none => Reader.panic .unwrapNone
        | some total => do
            let keys ← key total
            if keys.length ≠ total then Reader.panic .assertionFailed
            else do
              let values ← value total
              if values.length ≠ total then Reader.panic .assertionFailed
              else
                Reader.ofOutcome
                  (List.map (fun e => .map e.1 e.2) <$> cutPairsAt 0 offsets keys values)

/-- Null out the entries that the mask marks. -/
def NullableDeserializer.applyMask : Bytes → List Value → Result (List Value)
  | [], out => .ok out
  | b :: mask, [] =>
      if b ≠ 0 then .panic .indexOutOfBounds else NullableDeserializer.applyMask mask []
  | b :: mask, v :: out => do
      let rest ← NullableDeserializer.applyMask mask out
      .ok ((if b ≠ 0 then .null else v) :: rest)

def NullableDeserializer.read (m : Mode) (inner : Nat → Reader Error (List Value)) (rows : Nat) :
    Reader Error (List Value) := do
  let mask ← Reader.takeExact m.eof rows
  let out ← inner rows
  Reader.ofOutcome (NullableDeserializer.applyMask mask out)

/-! ## Low cardinality -/

namespace LowCardinality.IndexType

/-- The index type of a flag word. -/
def ofCode : Nat → Option IndexType
  | 0 => some .uint8
  | 1 => some .uint16
  | 2 => some .uint32
  | 3 => some .uint64
  | _ => none

/-- One index, through the column reader of its type. -/
def get (m : Mode) : IndexType → Reader Error Nat
  | .uint8 => UInt8.toNat <$> getLe UInt8 m.eof
  | .uint16 => UInt16.toNat <$> getLe UInt16 m.eof
  | .uint32 => UInt32.toNat <$> getLe UInt32 m.eof
  | .uint64 => UInt64.toNat <$> getLe UInt64 m.eof

end LowCardinality.IndexType

namespace LowCardinalityDeserializer

open LowCardinality

/-- The variables of the reading loop. -/
structure State where
  numPendingRows : Nat
  limit : Nat
  indexedType : IndexType
  globalDictionary : Option (List Value)
  additionalKeys : Option (List Value)
  needsGlobalDictionary : Bool
  hasAdditionalKeys : Bool
  output : List Value

def State.init (rows : Nat) : State where
  numPendingRows := 0
  limit := rows
  indexedType := .uint8
  globalDictionary := none
  additionalKeys := none
  needsGlobalDictionary := false
  hasAdditionalKeys := false
  output := []

/-- A dictionary: its size, then a column of the inner type. -/
def readDictionary (inner : Nat → Reader Error (List Value)) : Reader Error (List Value) := do
  let count ← getUsize .async
  inner count

/-- A dictionary that is read when the flag word announces it, and kept otherwise. -/
def readAnnounced (announced : Bool) (inner : Nat → Reader Error (List Value))
    (kept : Option (List Value)) : Reader Error (Option (List Value)) :=
  if announced then some <$> readDictionary inner else pure kept

/-- The head of a block: the flag word, the dictionaries it announces, and the number of
rows. -/
def readHeader (inner : Nat → Reader Error (List Value)) (s : State) : Reader Error State := do
  let flags ← getUsize .async
  let hasAdditionalKeys : Bool := flags &&& hasAdditionalKeysBit ≠ 0
  let needsGlobalDictionary : Bool := flags &&& needGlobalDictionaryBit ≠ 0
  let needsUpdateDictionary : Bool := flags &&& needUpdateDictionaryBit ≠ 0
  match IndexType.ofCode (flags &&& 255) with
  | none =>
      Reader.fail (.deserializeError
        [.text "LowCardinality: bad index type: ", .number ((flags &&& 255 : Nat) : Int)])
  | some indexedType => do
      let globalDictionary ← readAnnounced
        (needsGlobalDictionary && (s.globalDictionary.isNone || needsUpdateDictionary)) inner
        s.globalDictionary
      let additionalKeys ← readAnnounced hasAdditionalKeys inner s.additionalKeys
      let numPendingRows ← getUsize .async
      pure { s with
        numPendingRows, indexedType, globalDictionary, additionalKeys
        needsGlobalDictionary, hasAdditionalKeys }

def missingAdditionalKeys : Error :=
  .deserializeError [.text "LowCardinality: missing additional keys"]

def missingGlobalDictionary : Error :=
  .deserializeError [.text "LowCardinality: missing global dictionary"]

/-- The entry of a dictionary at an index; `index` is the index the error reports. -/
def entryAt (dictionary : List Value) (position index : Nat) (name : String) : Result Value :=
  match dictionary[position]? with
  | some v => .ok v
  | none =>
      .fail (.deserializeError
        [.text "LowCardinality: illegal index ", .number index, .text " in ", .text name])

/-- The values of the indexes of one block.  A block whose flag word announces no
dictionary delivers none. -/
def resolve (isNullable : Bool) (s : State) (entries : List Nat) : Result (List Value) :=
  if s.hasAdditionalKeys ∧ ¬ s.needsGlobalDictionary then
    match s.additionalKeys with
    | none => .fail missingAdditionalKeys
    | some additional =>
        Outcome.traverse (fun entry =>
          if isNullable ∧ entry = 0 then .ok .null
          else entryAt additional entry entry "additional_keys") entries
  else if s.needsGlobalDictionary ∧ ¬ s.hasAdditionalKeys then
    match s.globalDictionary with
    | none => .fail missingGlobalDictionary
    | some global =>
        Outcome.traverse (fun entry => entryAt global entry entry "global_dictionary") entries
  else if s.needsGlobalDictionary ∧ s.hasAdditionalKeys then
    match s.additionalKeys, s.globalDictionary with
    | none, _ => .fail missingAdditionalKeys
    | some _, none => .fail missingGlobalDictionary
    | some additional, some global =>
        Outcome.traverse (fun entry =>
          if isNullable ∧ entry = 0 then .ok .null
          else if entry < additional.length then
            entryAt additional entry entry "additional_keys"
          else entryAt global (entry - additional.length) entry "global_dictionary") entries
  else .ok []

/-- One turn of the loop: a new head when no rows are pending, then as many rows as are
pending and still wanted. -/
def turn (isNullable : Bool) (inner : Nat → Reader Error (List Value)) (s : State) :
    Reader Error State := do
  let s ← if s.numPendingRows = 0 then readHeader inner s else pure s
  let readingRows := min s.limit s.numPendingRows
  let entries ← Reader.readMany (s.indexedType.get .async) readingRows
  let values ← Reader.ofOutcome (resolve isNullable s entries)
  pure { s with
    limit := s.limit - readingRows
    numPendingRows := s.numPendingRows - readingRows
    output := s.output ++ values }

/-- `while limit > 0`, for at most `fuel` turns. -/
def loop (isNullable : Bool) (inner : Nat → Reader Error (List Value)) :
    Nat → State → Reader Error (List Value)
  | 0, _ => Reader.panic .outOfFuel
  | fuel + 1, s =>
      if s.limit = 0 then pure s.output
      else do
        let s' ← turn isNullable inner s
        loop isNullable inner fuel s'

/-- Every turn that starts without pending rows reads a flag word and a row count, so
there are fewer turns than bytes. -/
def read (m : Mode) (isNullable : Bool) (inner : Nat → Reader Error (List Value)) (rows : Nat) :
    Reader Error (List Value) :=
  match m with
  | .sync =>
      Reader.fail (.deserializeError
        [.text "LowCardinalityDeserializer sync not yet implemented"])
  | .async => fun bs => loop isNullable inner (bs.length + 2) (State.init rows) bs

end LowCardinalityDeserializer

/-! ## Columns of any type -/

namespace ChType

/-- `deserialize_prefix_async` and `deserialize_prefix`. -/
def deserializePrefix (m : Mode) : ChType → Reader Error Unit
  | .nullable inner => inner.deserializePrefix m
  | .array inner => inner.deserializePrefix m
  | .tuple items => prefixes m items
  | .map key value => do
      key.deserializePrefix m
      value.deserializePrefix m
  | .lowCardinality _ => do
      let version ← getUsize m
      if version ≠ LowCardinality.version then
        Reader.fail (.deserializeError
          [.text "LowCardinality: invalid low cardinality version: ", .number version])
      else pure ()
  | .object => do
      let _ ← getLe Int8 m.eof
      pure ()
  | _ => pure ()
where
  prefixes (m : Mode) : List ChType → Reader Error Unit
    | [] => pure ()
    | t :: ts => do
        t.deserializePrefix m
        prefixes m ts

mutual

/-- The column reader of a type, in either mode. -/
def readColumn (m : Mode) : ChType → Nat → Reader Error (List Value)
  | .string, rows =>
      guardRows rows (Reader.readMany (StringDeserializer.readEntry m .string) rows)
  | .fixedSizedString n, rows =>
      guardRows rows (Reader.readMany (StringDeserializer.readEntry m (.fixedSizedString n)) rows)
  | .binary, rows =>
      guardRows rows (Reader.readMany (StringDeserializer.readEntry m .binary) rows)
  | .fixedSizedBinary n, rows =>
      guardRows rows (Reader.readMany (StringDeserializer.readEntry m (.fixedSizedBinary n)) rows)
  | .object, rows => guardRows rows (Reader.readMany (ObjectDeserializer.readEntry m) rows)
  | .point, rows => guardRows rows (PointDeserializer.read m rows)
  | .ring, rows => guardRows rows (RingDeserializer.read m rows)
  | .polygon, rows => guardRows rows (PolygonDeserializer.read m rows)
  | .multiPolygon, rows => guardRows rows (MultiPolygonDeserializer.read m rows)
  | .nullable inner, rows => guardRows rows (NullableDeserializer.read m (inner.readColumn m) rows)
  | .array inner, rows =>
      guardRows rows
        (ArrayDeserializer.read m (inner.readColumn m) (fun items => .ok (.array items)) rows)
  | .map key value, rows =>
      guardRows rows (MapDeserializer.read m (key.readColumn m) (value.readColumn m) rows)
  | .tuple items, rows =>
      guardRows rows (
        match m with
        | .sync =>
            Reader.fail (.deserializeError [.text "TupleDeserializer sync not yet implemented"])
        | .async => do
            let tuples ← readTuples m items rows (List.replicate rows [])
            pure (tuples.map .tuple))
  | .lowCardinality (.nullable inner), rows =>
      guardRows rows (LowCardinalityDeserializer.read m true (inner.readColumn m) rows)
  | .lowCardinality inner, rows =>
      guardRows rows (LowCardinalityDeserializer.read m false (inner.readColumn m) rows)
  | sized, rows => guardRows rows (Reader.readMany (SizedDeserializer.readEntry m sized) rows)

/-- The columns of a tuple column, each pushed onto the tuples read so far. -/
def readTuples (m : Mode) : List ChType → Nat → List (List Value) →
    Reader Error (List (List Value))
  | [], _, tuples => pure tuples
  | t :: ts, rows, tuples => do
      let column ← t.readColumn m rows
      let tuples' ← Reader.ofOutcome (pushEach tuples column)
      readTuples m ts rows tuples'

end

/-- `Type::deserialize_column`. -/
def deserializeColumn : ChType → Nat → Reader Error (List Value) := readColumn .async

/-- `Type::deserialize_column_sync`. -/
def deserializeColumnSync : ChType → Nat → Reader Error (List Value) := readColumn .sync

/-- The prefix reader followed by the column reader, as a block runs them. -/
def readPrefixedColumn (t : ChType) (rows : Nat) : Reader Error (List Value) := do
  t.deserializePrefix .async
  t.deserializeColumn rows

/-- The two arms of a low-cardinality column are one. -/
theorem readColumn_lowCardinality (m : Mode) (inner : ChType) (rows : Nat) :
    (ChType.lowCardinality inner).readColumn m rows =
      guardRows rows (LowCardinalityDeserializer.read m inner.isNullable
        (inner.stripNull.readColumn m) rows) := by
  cases inner <;> simp [readColumn, isNullable, stripNull]

end ChType

end ClickhouseArrow
