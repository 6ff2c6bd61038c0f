import ClickhouseArrow.Arrow.ColumnReads
import ClickhouseArrow.Arrow.TypeHint
import ClickhouseArrow.Native.Scan

/-!
# Which bytes an Arrow column can be read from

`walkColumn` goes over the bytes of a column as the Arrow decoders do and looks only at what decides
their course: lengths, offsets, masks, flag words, dictionary sizes and keys.  It makes no array; of
the rows it keeps which of them are valid.  A walk is refused where the bytes end early or name an
unknown thing, and it meets a defect where a constructor of the Arrow library would:

- an offset that is smaller than the one before it, both taken as `i32`,
- a key that is not null and, taken as an `i32`, is not that of a dictionary entry,
- a nullable dictionary without entries,
- a null in a field that is announced without nulls, and a column of a map or a tuple that is not of
  the data type announced for it,
- a tuple without columns,
- more distinct labels of an enum than keys,
- days that leave the range of an `i32`,
- a buffer larger than any allocation,
- a builder that is not made: that of a fixed string of a width that is negative as an `i32`, or of
  a geo type.

`WellLaidOut` holds of the bytes whose walk meets none of them.  The decoders follow the walk step
by step, so they panic on exactly the other bytes.
-/

namespace ClickhouseArrow

open Wire

namespace Arrow

/-- What is seen of an array: which rows are valid, and whether it is asked as one with nulls. -/
structure Seen where
  valid : List Bool
  nullable : Bool

/-- An array whose nulls are those of its own buffer. -/
def Seen.own (valid : List Bool) : Seen := ⟨valid, valid.contains false⟩

namespace Walk

open ClickhouseArrow.Scan (word skip skipString)

/-! ## Values -/

/-- A buffer of so many bytes. -/
def buffer (n : Nat) : Scan Bytes :=
  if isizeMax < n then Reader.panic .capacityOverflow else Reader.takeExact Scan.eof n

/-- The mask of a nullable column. -/
def mask (rows : Nat) : Scan Bytes := if 0 < rows then buffer rows else pure []

/-- All values of a column in one read. -/
def bulk (width rows : Nat) : Scan (List Bytes) :=
  if rows = 0 then pure []
  else do
    let bytes ← buffer (rows * width)
    pure (castSlice width rows bytes)

/-- A value for every row, by itself. -/
def each (value : Bool → Scan Unit) : List Bool → Scan Unit
  | [] => pure ()
  | valid :: rows => do
      value valid
      each value rows

/-- A fixed string.  The array has the width as an `i32`, and takes no other. -/
def fixed (n : Nat) (valid : Bool) : Scan Unit := do
  let _ ← buffer n
  if valid && decide ((n : Int) ≠ (i32OfUsize n).toInt) then Reader.fail () else pure ()

/-- Days since 1900, of which those since 1970 are made. -/
def days : Scan Unit := do
  let days ← getLe Int32 Scan.eof
  if -2 ^ 31 ≤ days.toInt - 25567 then pure () else Reader.panic .subtractOverflow

/-- The indexes of an enum, with the labels met so far: each new one takes a key. -/
def labels {α : Type} [Word α] [DecidableEq α] (maxKey : Nat) (pairs : List (String × α)) :
    List Bytes → List Bool → Scan Unit
  | _, [] => pure ()
  | met, valid :: rows => do
      let idx ← getLe α Scan.eof
      if valid then
        match pairs.find? fun pair => pair.2 = idx with
        | none => Reader.fail ()
        | some pair =>
            if utf8Bytes pair.1 ∈ met then labels maxKey pairs met rows
            else if maxKey < met.length then Reader.panic .unwrapNone
            else labels maxKey pairs (met ++ [utf8Bytes pair.1]) rows
      else labels maxKey pairs met rows

/-- The values of a type without parts. -/
def leaf (t : ChType) (valid : List Bool) : Scan Unit :=
  match t with
  | .string | .binary | .object => each (fun _ => skipString) valid
  | .fixedSizedString n | .fixedSizedBinary n => each (fixed n) valid
  | .date32 => each (fun _ => days) valid
  | .uuid => each (fun _ => skip 16) valid
  | .decimal128 _ | .decimal256 _ | .int128 | .uint128 | .int256 | .uint256 | .ipv4 | .ipv6 =>
      each (fun _ => skip t.entryWidth) valid
  | .enum8 pairs => labels 127 pairs [] valid
  | .enum16 pairs => labels 32767 pairs [] valid
  | t => do
      let _ ← bulk t.entryWidth valid.length
      pure ()

/-! ## Nested values -/

/-- The ends of the rows, after a zero. -/
def offsets (rows : Nat) : Scan (List UInt64) :=
  if isizeMax < 8 + rows * 8 then Reader.panic .capacityOverflow
  else do
    let bytes ← Reader.takeExact Scan.eof (rows * 8)
    pure (0 :: (castSlice 8 rows bytes).map (ofLe UInt64))

/-- Taken as `i32`, the offsets never decrease. -/
def ordered (offsets : List UInt64) : Bool :=
  decide ((offsets.map Lists.castI32).IsChain (· ≤ ·))

/-- A list: the items are a column of as many rows as the last offset says. -/
def list (itemNullable : Bool) (inner : Nat → Scan Seen) (rows : Nat) (nulls : Bytes) :
    Scan Seen := do
  let ends ← offsets rows
  if ordered ends then do
    let items ← inner (ends.getLastD 0).toNat
    if !itemNullable && items.nullable then Reader.panic .unwrapNone
    else pure (.own (validities nulls rows))
  else Reader.panic .assertionFailed

/-- A column of a map or a tuple suits its field. -/
def suitsField (f : Field) (built : DataType) (valid : List Bool) (s : Seen) : Bool :=
  decide (f.dataType = built) &&
    (f.nullable || !(List.zip s.valid valid).any fun row => !row.1 && row.2)

/-- A map: keys and values are columns of as many rows as the last offset says. -/
def map (fields : Field × Field) (keyType valueType : DataType) (key value : Nat → Scan Seen)
    (rows : Nat) (nulls : Bytes) : Scan Seen := do
  let ends ← offsets rows
  if ordered ends then do
    let total := (ends.getLastD 0).toNat
    let keys ← key total
    let values ← value total
    if suitsField fields.1 keyType (List.replicate total true) keys &&
        suitsField fields.2 valueType (List.replicate total true) values then
      pure (.own (validities nulls rows))
    else Reader.panic .unwrapNone
  else Reader.panic .assertionFailed

/-- A tuple, which without rows is made of two placeholders. -/
def tuple (items : List ChType) (fields : List Field) (columns : Scan Bool) (rows : Nat)
    (nulls : Bytes) : Scan Seen :=
  if rows = 0 then
    match StructArray.tryNewWithLength fields Tuples.emptyColumns none 0 with
    | .ok _ => pure (.own [])
    | .error _ => Reader.fail ()
  else do
    let suit ← columns
    if !items.isEmpty && suit then pure (.own (validities nulls rows))
    else Reader.panic .unwrapNone

/-- The keys of a dictionary column. -/
def keys (indexes : ClickhouseArrow.LowCardinality.IndexType) (rows : Nat) : Scan (List Nat) :=
  match indexes with
  | .uint8 => List.map (fun key => (ofLe UInt8 key).toNat) <$> bulk 1 rows
  | .uint16 => List.map (fun key => (ofLe UInt16 key).toNat) <$> bulk 2 rows
  | .uint32 => List.map (fun key => (ofLe UInt32 key).toNat) <$> bulk 4 rows
  | .uint64 => List.map (fun key => (ofLe UInt64 key).toNat) <$> bulk 8 rows

/-- What is seen of a dictionary column: a row is null where its key or the entry of it is. -/
def picked (entries : Seen) (keys : List (Option Int)) : Seen where
  valid := keys.map fun k => k.elim false fun k => entries.valid.getD k.toNat true
  nullable := !keys.isEmpty && ((keys.map Option.isSome).contains false || entries.nullable)

/-- A dictionary column: the entries are a column with a mask of its own. -/
def dictionary (inner : ChType) (entries : Nat → Bytes → Scan Seen) (rows : Nat) (nulls : Bytes) :
    Scan Seen := do
  let flags ← word
  match LowCardinality.indexType flags with
  | none => Reader.fail ()
  | some indexes => do
      let dictSize ← word
      if LowCardinality.hasDictionary flags then
        match LowCardinality.dictionaryMask inner dictSize with
        | .error _ => Reader.panic .indexOutOfBounds
        | .ok mask => do
            let values ← entries dictSize mask
            let numRows ← word
            if numRows ≠ rows then Reader.fail ()
            else do
              let indexes ← keys indexes rows
              let keys := masked nulls (indexes.map (LowCardinality.castKey .int32))
              if keys.all fun k => k.all fun k => decide ((0 : Int) ≤ k ∧ k < (dictSize : Int)) then
                pure (picked values keys)
              else Reader.panic .unwrapNone
      else Reader.fail ()

end Walk

/-! ## Columns of any type -/

/-- The data type of the items of a list. -/
def itemType : DataType → DataType
  | .list _ f => f.dataType
  | d => d

/-- The data type of the entries of a dictionary. -/
def entryType : DataType → DataType
  | .dictionary _ v => v
  | d => d

/-- The data type of the arrays of a type without parts. -/
def flatBuilt (t : ChType) (d : DataType) : DataType :=
  match typedBuild t d with
  | .ok b => b.flatType.getD d
  | .error _ => d

/-- The data type of the arrays that are made of a type for the data type that was announced. -/
def builtType : ChType → DataType → DataType
  | .nullable inner, d => builtType inner d
  | .array inner, d => listOf (builtType inner (itemType d), inner.stripLowCardinality.isNullable)
  | .lowCardinality inner, d => .dictionary (.primitive .int32) (builtType inner (entryType d))
  | .map _ _, d => d
  | .tuple _, d => d
  | t, d => flatBuilt t d

mutual

/-- Walk over a column; the result is what is seen of its array. -/
def walkColumn : ChType → DataType → Nat → Bytes → Scan Seen
  | .nullable inner => fun d rows _ => do
      let mask ← Walk.mask rows
      walkColumn inner d rows mask
  | .array inner => fun d =>
      Walk.list inner.stripLowCardinality.isNullable fun n => walkColumn inner (itemType d) n []
  | .lowCardinality (.nullable inner) => fun d =>
      Walk.dictionary (.nullable inner) (walkColumn inner (entryType d))
  | .lowCardinality inner => fun d => Walk.dictionary inner (walkColumn inner (entryType d))
  | .map key value => fun d rows nulls =>
      match getMapFields d with
      | .ok fields =>
          Walk.map fields (builtType key fields.1.dataType) (builtType value fields.2.dataType)
            (fun n => walkColumn key fields.1.dataType n [])
            (fun n => walkColumn value fields.2.dataType n []) rows nulls
      | .error _ => Reader.fail ()
  | .tuple items => fun d rows nulls =>
      match d with
      | .struct fields =>
          Walk.tuple items fields (walkColumns items fields rows (validities nulls rows)) rows nulls
      | _ => Reader.fail ()
  | t => fun _ rows nulls => do
      Walk.leaf t (validities nulls rows)
      pure (.own (validities nulls rows))

/-- Walk over the columns of a tuple; the result says whether all of them suit their fields. -/
def walkColumns : List ChType → List Field → Nat → List Bool → Scan Bool
  | t :: ts, f :: fs => fun rows valid => do
      let s ← walkColumn t f.dataType rows []
      let rest ← walkColumns ts fs rows valid
      pure (Walk.suitsField f (builtType t f.dataType) valid s && rest)
  | _, _ => fun _ _ => pure true

end

/-- Walk over the prefix and the column; the builder may be refused, or panic. -/
def walkPrefixedColumn (t : ChType) (d : DataType) (rows : Nat) : Scan Seen := do
  let _ ← (Reader.ofOutcome (TypedBuilder.tryNew (typeHint t d) d)).mapError fun _ => ()
  (typeHint t d).scanPrefix
  walkColumn (typeHint t d) d rows []

/-- The walk over the bytes meets no defect. -/
def WellLaidOut (t : ChType) (d : DataType) (rows : Nat) (bytes : Bytes) : Prop :=
  Outcome.ending (walkPrefixedColumn t d rows bytes) ≠ .aborted

instance (t : ChType) (d : DataType) (rows : Nat) (bytes : Bytes) :
    Decidable (WellLaidOut t d rows bytes) :=
  inferInstanceAs (Decidable (_ ≠ _))

end Arrow

end ClickhouseArrow
