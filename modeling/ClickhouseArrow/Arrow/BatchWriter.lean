import ClickhouseArrow.Arrow.DeserializerState
import ClickhouseArrow.Arrow.NestedColumns
import ClickhouseArrow.Native.SerializeSync

/-!
# Writing a record batch

`RecordBatch::write_async` and `RecordBatch::write`: the info of a block, the numbers of columns and
of rows, and for each column its name, its type, the flag of a custom serialization and, if the
column is not empty, its data.  The type is the one that the header of the server has for the name
of the column, else the one that is created for its field.
-/

namespace ClickhouseArrow

open Wire

namespace Arrow

/-- What a write of a block is told: the header that the server has sent, the options of the client
and the revision of the server. -/
structure BlockWriter where
  lex : Lexicon
  header : Option (List (String × ChType))
  options : ArrowOptions
  revision : Nat

/-- The type with a geo type replaced by its alias.  Geo types inside of it stay. -/
def simplifyGeo (t : ChType) : ArrowResult ChType :=
  match t with
  | .point | .polygon | .multiPolygon | .ring => normalizeGeoType t
  | t => .ok t

namespace BlockWriter

variable (w : BlockWriter)

/-- The type in the header, or the one that is created. -/
def chooseType (f : Field) : ArrowResult ChType :=
  match w.header.bind fun header => header.find? fun entry => entry.1 == f.name with
  | some entry => .ok entry.2
  | none => arrowToChType w.lex (some w.options) f.dataType f.nullable

/-- The type that a column is written as. -/
def typeOf (f : Field) : ArrowResult ChType := w.chooseType f >>= simplifyGeo

/-- The flag of a custom serialization, which a column without rows has as well. -/
def flag : Bytes :=
  if minRevisionWithCustomSerialization ≤ w.revision then putLe (0 : UInt8) else []

/-- The prefix and the data of a column that is not empty. -/
def writeData (m : Mode) (t : ChType) (f : Field) (column : ArrowArray) : ArrowResult Bytes :=
  if column.len = 0 then .ok []
  else do
    let body ← serializeBy m t column f.dataType
    match m with
    | .async => .ok (t.serializePrefix ++ body)
    | .sync => .ok (t.serializePrefixSync ++ body)

/-- One column. -/
def writeColumn (m : Mode) (f : Field) (column : ArrowArray) : ArrowResult Bytes := do
  let t ← w.typeOf f
  let data ← writeData m t f column
  .ok (writeString (utf8Bytes f.name) ++
    (writeString (utf8Bytes (String.ofList t.display)) ++ (w.flag ++ data)))

/-- The columns, each under its field. -/
def writeColumns (m : Mode) : List Field → List ArrowArray → ArrowResult Bytes
  | [], _ => .ok []
  | _ :: _, [] => .panic .indexOutOfBounds
  | f :: fields, column :: columns => do
      let bytes ← w.writeColumn m f column
      let rest ← writeColumns m fields columns
      .ok (bytes ++ rest)

/-- `RecordBatch::write_async` and `RecordBatch::write`.  The info is not that of a block that was
read, and at revision zero there is none. -/
def write (m : Mode) (batch : RecordBatch) : ArrowResult Bytes := do
  let columns ← w.writeColumns m batch.schema batch.columns
  .ok ((if 0 < w.revision then BlockInfo.initial.write else []) ++
    (writeVarUint batch.schema.length ++ (writeVarUint batch.rowCount ++ columns)))

/-! ## Both writers write the same -/

variable {w}

theorem writeData_eq (m : Mode) (t : ChType) (f : Field) (column : ArrowArray) :
    writeData m t f column = writeData .async t f column := by
  cases m with
  | async => rfl
  | sync =>
    unfold writeData
    rw [serializeBy_eq, serializeBy_eq]
    simp only [ChType.serializePrefixSync_eq]

theorem writeColumns_eq (m : Mode) (fields : List Field) (columns : List ArrowArray) :
    w.writeColumns m fields columns = w.writeColumns .async fields columns := by
  induction fields generalizing columns with
  | nil => rfl
  | cons f fields ih =>
    cases columns with
    | nil => rfl
    | cons column columns =>
      rw [writeColumns, writeColumns, writeColumn, writeColumn, ih]
      simp only [writeData_eq m]

/-- The bytes of a batch do not depend on the writer. -/
theorem write_eq (m : Mode) (batch : RecordBatch) : w.write m batch = w.write .async batch := by
  rw [write, write, writeColumns_eq]

end BlockWriter

end Arrow

end ClickhouseArrow
