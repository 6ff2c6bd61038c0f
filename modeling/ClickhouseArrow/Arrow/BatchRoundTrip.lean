import ClickhouseArrow.Arrow.SentColumns
import ClickhouseArrow.Formats.ArrowFormat

/-!
# Record batches that come back

A batch whose columns are nested ones is written as a block, and the block is read at the same
revision, from a new state.  The module says exactly which batches come back with the rows of every
column; the fields are those that are announced for the types that the columns were written as.
-/

namespace ClickhouseArrow

open Wire

namespace Arrow

open ArrowDeserializerState

/-! ## What is sent -/

/-- A column that is sent: it is of the data type of its field and a nested column of the type that
it is written as, and its names are ones that the reader takes. -/
structure SentColumn (w : BlockWriter) (rows : Nat) where
  field : Field
  array : ArrowArray
  type : ChType
  dataType_eq : field.dataType = array.dataType
  len_eq : array.len = rows
  typeOf_eq : w.typeOf field = .ok type
  nested : Nested type array
  ranged : type.ParametersInRange w.lex
  name_le : (utf8Bytes field.name).length ≤ maxStringSize
  typeName_le : (utf8Bytes (String.ofList type.display)).length ≤ maxStringSize

/-- A batch that is sent. -/
structure SentBatch (w : BlockWriter) where
  rows : Nat
  columns : List (SentColumn w rows)
  rows_lt : rows < 2 ^ 63
  columns_lt : columns.length < 2 ^ 63

/-- The batch itself. -/
def SentBatch.batch {w : BlockWriter} (sent : SentBatch w) : RecordBatch where
  schema := sent.columns.map SentColumn.field
  columns := sent.columns.map SentColumn.array
  rowCount := sent.rows

/-- The reader at the other end, with options of its own. -/
def BlockWriter.reader (w : BlockWriter) (json : Bytes → Bytes) (m : Mode)
    (options : ArrowOptions) : BlockReader where
  lex := w.lex
  json := json
  mode := m
  options := options
  revision := w.revision

/-- The rows of the column come back: there are none, or no string of a map is announced as bytes
and the rows are carried. -/
def SentColumn.Arrives {w : BlockWriter} {rows : Nat} (options : ArrowOptions)
    (column : SentColumn w rows) : Prop :=
  rows ≠ 0 → fitsBuilder (some options) false column.type.unaliased = true ∧
    Carried (some options) column.type.unaliased column.array

/-- The field that is made for a column: its name, and what is announced for the alias of its
type. -/
structure SentColumn.Announces {w : BlockWriter} {rows : Nat} (options : ArrowOptions)
    (column : SentColumn w rows) (f : Field) : Prop where
  name_eq : f.name = column.field.name
  announced : chToArrowType column.type.unaliased (some options) = .ok (f.dataType, f.nullable)

/-! ## Columns -/

section Columns

variable {w : BlockWriter} {rows : Nat} {options : ArrowOptions} {json : Bytes → Bytes}

/-- The header of a column. -/
theorem SentColumn.header_reads (column : SentColumn w rows) (m : Mode) {d : DataType} {n : Bool}
    (hd : chToArrowType column.type.unaliased (some options) = .ok (d, n)) :
    Reads (w.reader json m options).readHeader
      (writeString (utf8Bytes column.field.name) ++
        (writeString (utf8Bytes (String.ofList column.type.display)) ++ w.flag))
      ⟨column.type.unaliased, column.field.name, d, n⟩ := by
  have hname := (readUtf8String_reads .async column.name_le).mapError ArrowError.native
  have htypeName := (readUtf8String_reads .async column.typeName_le).mapError ArrowError.native
  have hflag := (Block.readFlag_reads .async w.revision).mapError ArrowError.native
  have hparse : ChType.fromStr w.lex (String.ofList column.type.display).toList =
      .ok column.type.unaliased := by
    rw [String.toList_ofList]
    exact ChType.fromStr_display_unaliased column.ranged
  have htype := (Reads.ofOutcome hparse).mapError ArrowError.native
  have hasync : Reads (w.reader json .async options).readHeader
      (writeString (utf8Bytes column.field.name) ++
        (writeString (utf8Bytes (String.ofList column.type.display)) ++ w.flag))
      ⟨column.type.unaliased, column.field.name, d, n⟩ := by
    refine hname.bind (htypeName.bind ?_)
    refine htype.nil_bind ((Reads.ofOutcome hd).nil_bind ?_)
    exact hflag.bind_nil (Reads.pure _)
  cases m with
  | async => exact hasync
  | sync => exact fun rest => (w.reader json .sync options).readHeader_extends _ _ (hasync rest)

/-- The data of a column are those of its array under the alias of its type. -/
theorem SentColumn.writeData_eq (column : SentColumn w rows) (hrows : rows ≠ 0) :
    BlockWriter.writeData .async column.type column.field column.array =
      serializeAsyncOf false column.type.unaliased column.array column.array.dataType := by
  have hlen := column.len_eq
  rw [BlockWriter.writeData, if_neg (by omega), serializeAsyncOf_unaliased column.nested,
    column.nested.serializePrefix_eq, column.dataType_eq]
  show (serializeAsyncOf false column.type column.array column.array.dataType >>= fun body =>
    .ok ([] ++ body)) = _
  cases serializeAsyncOf false column.type column.array column.array.dataType <;> rfl

/-- The array of a column that has rows. -/
theorem arrayOf_filled (r : BlockReader) (h : ColumnHeader) (hrows : rows ≠ 0) :
    r.arrayOf rows h = (do
      let b ← Reader.ofOutcome h.newBuilder
      (h.hint.deserializePrefix r.mode).mapError .native
      r.decode h.hint b h.field.dataType rows []) := by
  rw [BlockReader.arrayOf, if_pos (by omega)]

/-- Both readers end in the same way in the data of a column. -/
theorem arrayOf_simulates (r : BlockReader) (h : ColumnHeader) :
    Simulates (fun a b => a = b) (r.async.arrayOf rows h) (r.sync.arrayOf rows h) := by
  rw [BlockReader.arrayOf, BlockReader.arrayOf]
  refine Simulates.ite (fun _ => ?_) fun _ => Simulates.ofOutcome_refl _
  cases hbuilder : h.newBuilder with
  | error e =>
    intro bs
    cases e <;> trivial
  | ok b =>
    have hprefix := (ChType.deserializePrefix_simulates h.hint).mapError
      ArrowError.native ArrowError.native
    exact hprefix.bind fun _ _ _ => deserializeArrow_agree r.json (fits_of_tryNewOf hbuilder) _ _ _

/-- The transit of the data of a column without rows. -/
theorem SentColumn.transit_empty (column : SentColumn w rows) (hrows : rows = 0) {d : DataType}
    {n : Bool} (hd : chToArrowType column.type.unaliased (some options) = .ok (d, n)) :
    Transit (column.Arrives options) (Answers d rows (n = false))
      (fun a => a.rows = column.array.rows)
      (BlockWriter.writeData .async column.type column.field column.array)
      ((w.reader json .async options).arrayOf rows
        ⟨column.type.unaliased, column.field.name, d, n⟩) := by
  have hlen := column.len_eq
  obtain ⟨e, he, hanswers⟩ := newEmptyArray_of_announced column.nested.unaliased hd
  have hwrite : BlockWriter.writeData .async column.type column.field column.array = .ok [] := by
    rw [BlockWriter.writeData, if_pos (by omega)]
  have hread : (w.reader json .async options).arrayOf rows
      ⟨column.type.unaliased, column.field.name, d, n⟩ = Reader.ofOutcome (newEmptyArray d) := by
    rw [BlockReader.arrayOf, if_neg (by omega)]
  rw [hwrite, hread]
  refine Transit.done he ?_ ?_
  · exact ⟨⟨hanswers.dataType_eq, by rw [hanswers.len_eq, hrows],
      fun _ => hanswers.nullCount_eq trivial⟩, by rw [hanswers.length_rows, hrows]⟩
  · have hnone : column.array.rows = [] := by
      rw [← List.length_eq_zero_iff, column.nested.length_rows]
      omega
    have hempty : e.rows = [] := List.length_eq_zero_iff.mp hanswers.length_rows
    rw [hnone, hempty]
    exact iff_of_true rfl fun hne => absurd hrows hne

/-- The transit of the data of a column, to `read_async`. -/
theorem SentColumn.transit_data_async (column : SentColumn w rows) {d : DataType} {n : Bool}
    (hd : chToArrowType column.type.unaliased (some options) = .ok (d, n)) :
    Transit (column.Arrives options) (Answers d rows (n = false))
      (fun a => a.rows = column.array.rows)
      (BlockWriter.writeData .async column.type column.field column.array)
      ((w.reader json .async options).arrayOf rows
        ⟨column.type.unaliased, column.field.name, d, n⟩) := by
  have hnested := column.nested.unaliased
  by_cases hrows : rows = 0
  · exact column.transit_empty hrows hd
  rw [column.writeData_eq hrows, arrayOf_filled _ _ hrows]
  by_cases hfits : fitsBuilder (some options) false column.type.unaliased = true
  · have hbuilder : HasBuilder (hintOf false column.type.unaliased d) d :=
      hasBuilder_hintOf hd hfits
    obtain ⟨b, hb, -⟩ := hbuilder
    have htransit := transit_nested (some options) false json column.type.unaliased column.array
      d n b hnested hd hfits (hb 0)
    rw [column.len_eq] at htransit
    have hnothing : (typeHint column.type.unaliased d).serializePrefix = [] :=
      @serializePrefix_hint (some options) false n d _ _ hnested hd
    have hprefix := (ChType.prefix_reads .async (typeHint column.type.unaliased d)).mapError
      ArrowError.native
    rw [hnothing] at hprefix
    refine Transit.nil_after (Reads.ofOutcome (hb 0)) (Transit.nil_after hprefix ?_)
    exact htransit.congr ⟨fun hc _ => ⟨hfits, hc⟩, fun hc => (hc hrows).2⟩
  · -- the type has no builder that makes the array that is announced
    refine Transit.of_never (fun hc => hfits (hc hrows).1) fun bytes x hx => ?_
    obtain ⟨b, rest, hb, hx⟩ := Reader.bind_eq_ok.mp hx
    obtain ⟨_, rest', -, hx⟩ := Reader.bind_eq_ok.mp hx
    exact hfits (fitsWhereRead (some options) false _ column.array d n 1 b json _ _ _ x hnested hd
      (ofOutcome_eq_ok hb).1 hx fun hmap => by cases hmap)

/-- The transit of the data of a column. -/
theorem SentColumn.transit_data (column : SentColumn w rows) (m : Mode) {d : DataType} {n : Bool}
    (hd : chToArrowType column.type.unaliased (some options) = .ok (d, n)) :
    Transit (column.Arrives options) (Answers d rows (n = false))
      (fun a => a.rows = column.array.rows)
      (BlockWriter.writeData .async column.type column.field column.array)
      ((w.reader json m options).arrayOf rows
        ⟨column.type.unaliased, column.field.name, d, n⟩) := by
  have hasync := @SentColumn.transit_data_async w rows options json column d n hd
  cases m with
  | async => exact hasync
  | sync => exact hasync.simulated (arrayOf_simulates (w.reader json .sync options) _)

/-- What is read for a column: its field and an array that suits the field. -/
structure SentColumn.Delivered (options : ArrowOptions) (column : SentColumn w rows)
    (p : Field × ArrowArray) : Prop extends column.Announces options p.1 where
  dataType_eq : p.2.dataType = p.1.dataType
  len_eq : p.2.len = rows
  nullCount_eq : p.1.nullable = false → p.2.nullCount = 0

end Columns

namespace BlockReader

/-- One column of a block. -/
def readColumn (r : BlockReader) (rows : Nat) : Reader ArrowError (Field × ArrowArray) := do
  let h ← r.readHeader
  let array ← r.arrayOf rows h
  pure (h.field, array)

theorem columnsOf_succ (r : BlockReader) (rows n : Nat) :
    r.columnsOf rows (n + 1) =
      r.readColumn rows >>= fun p => r.columnsOf rows n >>= fun ps => pure (p :: ps) := by
  rw [readColumn, columnsOf]
  simp only [bind_assoc, pure_bind]

end BlockReader

section Batches

variable {w : BlockWriter} {rows : Nat} {options : ArrowOptions} {json : Bytes → Bytes}

/-- The transit of a column. -/
theorem SentColumn.transit (column : SentColumn w rows) (m : Mode) :
    Transit (column.Arrives options) (column.Delivered options)
      (fun p => p.2.rows = column.array.rows) (w.writeColumn .async column.field column.array)
      ((w.reader json m options).readColumn rows) := by
  obtain ⟨⟨d, n⟩, hd⟩ := exists_announced (some options) column.nested.unaliased
  have hd' : chToArrowType column.type.unaliased (some options) = .ok (d, n) := hd
  have hdata := @SentColumn.transit_data w rows options json column m d n hd'
  have hwrite : w.writeColumn .async column.field column.array =
      (BlockWriter.writeData .async column.type column.field column.array >>= fun data =>
        .ok ((writeString (utf8Bytes column.field.name) ++
          (writeString (utf8Bytes (String.ofList column.type.display)) ++ w.flag)) ++ data)) := by
    rw [BlockWriter.writeColumn, column.typeOf_eq, Outcome.ok_bind]
    simp only [List.append_assoc]
  rw [hwrite]
  refine Transit.after (column.header_reads m hd') ?_
  refine hdata.finish id fun array hanswers hshows => ?_
  refine .back rfl (Reads.pure _) ?_ hshows
  exact ⟨⟨rfl, hd'⟩, hanswers.dataType_eq, hanswers.len_eq, hanswers.nullCount_eq⟩

/-- The transit of columns one behind the other. -/
theorem transit_columns (columns : List (SentColumn w rows)) (m : Mode) :
    Transit (∀ column ∈ columns, column.Arrives options)
      (fun ps => List.Forall₂ (SentColumn.Delivered options) columns ps)
      (fun ps => ps.map (fun p => p.2.rows) = columns.map fun column => column.array.rows)
      (w.writeColumns .async (columns.map SentColumn.field) (columns.map SentColumn.array))
      ((w.reader json m options).columnsOf rows columns.length) := by
  induction columns with
  | nil => exact .back rfl (Reads.pure []) .nil (by simp)
  | cons column columns ih =>
    rw [List.length_cons, BlockReader.columnsOf_succ]
    refine Transit.seq (column.transit m) ih ?_ ?_
    · exact fun hall => List.forall_mem_cons.mp hall
    · intro p ps hp hps hshows hshowsAll
      refine .back rfl (Reads.pure _) (.cons hp hps) ?_
      rw [List.map_cons, List.map_cons, List.cons.injEq, hshows, hshowsAll, List.forall_mem_cons]

/-! ## Batches -/

/-- A batch is made of columns that suit their fields. -/
theorem tryNew_of_suits {ps : List (Field × ArrowArray)} (hne : ps ≠ [])
    (h : ∀ p ∈ ps, p.2.dataType = p.1.dataType ∧ p.2.len = rows ∧
      (p.1.nullable = false → p.2.nullCount = 0)) :
    RecordBatch.tryNew (ps.map Prod.fst) (ps.map Prod.snd) =
      .ok ⟨ps.map Prod.fst, ps.map Prod.snd, rows⟩ := by
  -- Each check of `try_new` goes over all columns.
  have hnullable : RecordBatch.checkNullable (ps.map Prod.fst) (ps.map Prod.snd) = .ok () := by
    clear hne
    induction ps with
    | nil => rfl
    | cons p ps ih =>
      obtain ⟨hhead, htail⟩ := List.forall_mem_cons.mp h
      rw [List.map_cons, List.map_cons, RecordBatch.checkNullable, if_neg]
      · exact ih htail
      · cases hp : p.1.nullable with
        | true => simp
        | false => simp [hhead.2.2 hp]
  have htypes (i : Nat) :
      RecordBatch.checkTypes i (ps.map Prod.fst) (ps.map Prod.snd) = .ok () := by
    clear hne hnullable
    induction ps generalizing i with
    | nil => rfl
    | cons p ps ih =>
      obtain ⟨hhead, htail⟩ := List.forall_mem_cons.mp h
      rw [List.map_cons, List.map_cons, RecordBatch.checkTypes, if_neg (not_not.mpr hhead.1)]
      exact ih htail (i + 1)
  obtain ⟨p, ps, rfl⟩ := List.exists_cons_of_ne_nil hne
  have hlengths : ((p :: ps).map Prod.snd).any (fun a => a.len ≠ p.2.len) = false := by
    rw [List.any_eq_false]
    intro a ha
    obtain ⟨q, hq, rfl⟩ := List.mem_map.mp ha
    simp [(h q hq).2.1, (h p List.mem_cons_self).2.1]
  rw [List.map_cons] at hlengths
  unfold RecordBatch.tryNew
  rw [if_neg (by simp)]
  simp only [List.map_cons] at hnullable htypes ⊢
  rw [hnullable, Outcome.ok_bind, hlengths, if_neg Bool.false_ne_true, htypes, Outcome.ok_bind,
    (h p List.mem_cons_self).2.1]

theorem suits_of_delivered {columns : List (SentColumn w rows)} {ps : List (Field × ArrowArray)}
    (h : List.Forall₂ (SentColumn.Delivered options) columns ps) :
    ∀ p ∈ ps, p.2.dataType = p.1.dataType ∧ p.2.len = rows ∧
      (p.1.nullable = false → p.2.nullCount = 0) := by
  induction h with
  | nil => simp
  | cons hhead _ ih =>
    exact List.forall_mem_cons.mpr ⟨⟨hhead.dataType_eq, hhead.len_eq, hhead.nullCount_eq⟩, ih⟩

/-- The batch comes back: it has columns or no rows, and each of its columns comes back. -/
def SentBatch.Arrives (options : ArrowOptions) (sent : SentBatch w) : Prop :=
  (sent.columns = [] → sent.rows = 0) ∧ ∀ column ∈ sent.columns, column.Arrives options

/-- What is read for a batch has its number of rows and the fields that are announced. -/
structure SentBatch.Delivered (options : ArrowOptions) (sent : SentBatch w) (batch : RecordBatch) :
    Prop where
  rowCount_eq : batch.rowCount = sent.rows
  schema : List.Forall₂ (SentColumn.Announces options) sent.columns batch.schema

/-- The numbers of columns and rows, behind the info. -/
theorem BlockReader.counts_reads (r : BlockReader) {columns rows : Nat}
    (hcolumns : columns < 2 ^ 63) (hrows : rows < 2 ^ 63) :
    Reads r.readCounts
      (BlockInfo.initial.write ++ (writeVarUint columns ++ writeVarUint rows)) (columns, rows) := by
  have hinfo := (BlockInfo.read_reads r.mode BlockInfo.initial).mapError ArrowError.native
  have hcount := (readVarUint_reads r.mode hcolumns).mapError ArrowError.native
  have hlast := (readVarUint_reads r.mode hrows).mapError ArrowError.native
  exact hinfo.bind (hcount.bind (hlast.bind_nil (Reads.pure _)))

/-- The bytes of a batch: the counts and the columns. -/
theorem SentBatch.write_batch (sent : SentBatch w) (hrevision : 0 < w.revision) :
    w.write .async sent.batch =
      (w.writeColumns .async (sent.columns.map SentColumn.field)
        (sent.columns.map SentColumn.array) >>= fun columns =>
          .ok ((BlockInfo.initial.write ++
            (writeVarUint sent.columns.length ++ writeVarUint sent.rows)) ++ columns)) := by
  rw [BlockWriter.write, if_pos hrevision]
  simp only [SentBatch.batch, List.length_map, List.append_assoc]

/-- The transit of a batch. -/
theorem SentBatch.transit (sent : SentBatch w) (hrevision : 0 < w.revision) (m : Mode) :
    Transit (sent.Arrives options) (sent.Delivered options)
      (fun batch => ArrowArray.rowsEach batch.columns = ArrowArray.rowsEach sent.batch.columns)
      (w.write .async sent.batch) (w.reader json m options).batchOf := by
  have hcolumns := @transit_columns w sent.rows options json sent.columns m
  rw [sent.write_batch hrevision]
  refine Transit.after (BlockReader.counts_reads _ sent.columns_lt sent.rows_lt) ?_
  dsimp only
  by_cases hnone : sent.columns = []
  · have harrays : sent.batch.columns = [] := by
      simp only [SentBatch.batch, hnone, List.map_nil]
    rw [hnone, harrays]
    by_cases hrows : sent.rows = 0
    · rw [if_pos ⟨List.length_nil, hrows⟩]
      refine .back rfl (Reads.pure _) ⟨hrows.symm, ?_⟩ ?_
      · rw [hnone]
        exact .nil
      · exact iff_of_true rfl ⟨fun _ => hrows, by simp [hnone]⟩
    · -- a batch is not made of rows without columns
      rw [if_neg fun hboth => hrows hboth.2]
      exact Transit.of_never (fun hc => hrows (hc.1 hnone)) fun bytes x hx => by cases hx
  · rw [if_neg fun hboth => hnone (List.length_eq_zero_iff.mp hboth.1)]
    refine hcolumns.finish (fun hc => hc.2) fun ps hps hshows => ?_
    have hne : ps ≠ [] := by
      rintro rfl
      exact hnone (List.forall₂_nil_right_iff.mp hps)
    have hbatch := tryNew_of_suits hne (suits_of_delivered hps)
    refine .back rfl (Reads.ofOutcome hbatch) ⟨rfl, ?_⟩ ?_
    · exact List.forall₂_map_right_iff.mpr (hps.imp fun column p hp => hp.toAnnounces)
    · rw [ArrowArray.rowsEach_eq, ArrowArray.rowsEach_eq, SentBatch.batch, List.map_map,
        List.map_map]
      refine Iff.trans hshows ?_
      exact (and_iff_right fun hnil => absurd hnil hnone).symm

/-- The batch is written, and what is read of the bytes, from a new state and whatever stands behind
them, has its columns with their rows. -/
def SentBatch.ComesBack (options : ArrowOptions) (sent : SentBatch w) : Prop :=
  ∀ (json : Bytes → Bytes) (m m' : Mode) (rest : Bytes), ∃ (bytes : Bytes) (batch : RecordBatch),
    w.write m' sent.batch = .ok bytes ∧
      ((w.reader json m options).read (bytes ++ rest) fresh).1 = .ok (batch, rest) ∧
      sent.Delivered options batch ∧
      ArrowArray.rowsEach batch.columns = ArrowArray.rowsEach sent.batch.columns

/-- **A batch of nested columns comes back, from both readers and both writers, exactly if it has
columns or no rows, and where it has rows no string of a map is announced as bytes and the rows of
every column are carried.** -/
theorem comesBack_iff (options : ArrowOptions) (sent : SentBatch w) (hrevision : 0 < w.revision) :
    sent.ComesBack options ↔ sent.Arrives options := by
  constructor
  · intro h
    obtain ⟨bytes, batch, hwrite, hread, -, hrows⟩ := h id .async .async []
    rw [BlockReader.read_fresh] at hread
    have htransit := @SentBatch.transit w options id sent hrevision .async
    exact htransit.carried_of_shows hwrite hread hrows
  · intro h json m m' rest
    have htransit := @SentBatch.transit w options json sent hrevision m
    cases htransit with
    | refused _ hnot => exact absurd h hnot
    | stuck _ _ hnot => exact absurd h hnot
    | @back bytes batch hwrite hback hkeeps hshows =>
      refine ⟨bytes, batch, ?_, ?_, hkeeps, hshows.mpr h⟩
      · rw [BlockWriter.write_eq]
        exact hwrite
      · rw [BlockReader.read_fresh]
        exact hback rest

end Batches

/-! ## A batch of numbers and of lists of optional binary values -/

def sampleWriter : BlockWriter := ⟨.ascii, none, .new, 54454⟩

def sampleNumbers : FlatColumn where
  type := .int32
  array := .primitive .int32 [(7 : Int32), (-1 : Int32)] none
  leaf := .int32
  fit := fun _ h => by cases h
  rows := by decide
  sized := by decide
  addressed := fun b hb => by
    have hnone : ∀ row ∈ leafRows (.primitive .int32 [(7 : Int32), (-1 : Int32)] none),
        row ≠ some (.bytes b) := by
      rintro row (_ | ⟨_, _ | ⟨_, ⟨⟩⟩⟩) h <;> cases h
    exact absurd rfl (hnone _ hb)

def sampleTags : FlatColumn where
  type := .binary
  array := .bytes .binary [[97], []] (some [true, false])
  leaf := .binary fun h => by cases h
  fit := fun _ h => by cases h; rfl
  rows := by decide
  sized := by decide
  addressed := by
    intro b hb
    have hb' : b = [97] := by simpa [leafRows, slots] using hb
    rw [hb']
    decide

theorem laid_sample : Laid [0, 2, 2] none 2 where
  first := rfl
  ordered := by decide
  last := rfl
  small := by decide
  fit := fun _ h => by cases h
  sized := by decide

def sampleBatch : SentBatch sampleWriter where
  rows := 2
  columns := [
    { field := ⟨"id", .primitive .int32, false⟩
      array := sampleNumbers.array
      type := .int32
      dataType_eq := rfl
      len_eq := rfl
      typeOf_eq := rfl
      nested := ⟨sampleNumbers, rfl, rfl⟩
      ranged := trivial
      name_le := by decide
      typeName_le := by decide },
    { field := ⟨"tags", .list false ⟨"item", .bytes .binary, true⟩, false⟩
      array := .list false ⟨"item", .bytes .binary, true⟩ [0, 2, 2] sampleTags.array none
      type := .array (.nullable .binary)
      dataType_eq := rfl
      len_eq := rfl
      typeOf_eq := rfl
      nested := ⟨_, _, _, _, _, rfl, rfl, laid_sample, sampleTags, rfl, rfl⟩
      ranged := trivial
      name_le := by decide
      typeName_le := by decide }]
  rows_lt := by decide
  columns_lt := by decide

theorem sampleBatch_arrives : sampleBatch.Arrives .new := by
  refine ⟨List.cons_ne_nil _ _ |>.elim, ?_⟩
  intro column hcolumn hrows
  rcases List.mem_cons.mp hcolumn with rfl | hcolumn
  · refine ⟨rfl, fun v _ => ?_, ?_⟩
    · cases v <;> trivial
    · simp [leafRows, sampleNumbers]
  · obtain rfl := List.mem_singleton.mp hcolumn
    refine ⟨rfl, ?_, fun v hv => ?_⟩
    · simp [ArrowArray.rows, slices]
    · have hletter : v = .bytes [97] := by simpa [leafRows, slots, sampleTags] using hv
      rw [hletter]
      exact ⟨by decide, fun h => by cases h⟩

/-- The sample comes back, although its binary values are read under the name `String`. -/
theorem comesBack_sample : sampleBatch.ComesBack .new :=
  (comesBack_iff .new sampleBatch (by decide)).mpr sampleBatch_arrives

end Arrow

end ClickhouseArrow
