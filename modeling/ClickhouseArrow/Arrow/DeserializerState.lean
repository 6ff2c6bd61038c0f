import ClickhouseArrow.Arrow.FilledColumns
import ClickhouseArrow.Arrow.TypeHint

/-!
# The state of the Arrow reader

`ArrowDeserializerState` lives as long as the connection.  `RecordBatch::read_async` and
`RecordBatch::read` take the builders of a block from it, collect the fields and the arrays in it,
and take these out when the last column has been read; `ArrowFormat::finish_deser` clears the
builders and the row buffer when a query ends.

The first part embeds the two readers over the state, and beside them the reader without a state.
The second part shows what a reader makes of a state whose builders are new for the types of the
block, and the last one what a run of reads leaves for the next query: `finish_deser` does not
clear the fields and the arrays, so that the columns of a read that was given up halfway turn up
in the next block.
-/

namespace ClickhouseArrow

open Wire

namespace Arrow

/-! ## Empty columns -/

mutual

/-- `new_empty_array`. -/
def newEmptyArray : DataType → ArrowResult ArrowArray
  | .null => .ok (.null 0)
  | .boolean => .ok (.boolean [] none)
  | .primitive t => .ok (.primitive t [] none)
  | .fixedSizeBinary size => .ok (.fixedSizeBinary size [] none)
  | .bytes t => .ok (.bytes t [] none)
  | .list large item => do
      let values ← newEmptyOf item
      .ok (.list large item [0] values none)
  | .listView large item => do
      let values ← newEmptyOf item
      .ok (.listView large item [] [] values none)
  | .fixedSizeList item size => do
      let values ← newEmptyOf item
      .ok (.fixedSizeList item size 0 values none)
  | .struct fields => do
      let columns ← newEmptyEach fields
      .ok (.struct fields columns 0 none)
  | .union fields => .ok (.union fields 0)
  | .dictionary key value => do
      let values ← newEmptyArray value
      match keyBuilder key with
      | .ok k => .ok (.dictionary k [] none values)
      | .error _ => .panic .unreachable
  | .map entries sorted => do
      let values ← newEmptyOf entries
      match values with
      | .struct _ [k, v] _ _ => .ok (.map entries sorted [0] k v none)
      | _ => .panic .unwrapNone
  | .runEndEncoded runEnds values => .ok (.runEndEncoded runEnds values 0)

def newEmptyOf : Field → ArrowResult ArrowArray
  | ⟨_, d, _⟩ => newEmptyArray d

def newEmptyEach : List Field → ArrowResult (List ArrowArray)
  | [] => .ok []
  | f :: fs => do
      let column ← newEmptyOf f
      let columns ← newEmptyEach fs
      .ok (column :: columns)

end

/-! ## The state -/

/-- `ArrowDeserializerState`. -/
structure ArrowDeserializerState where
  builders : List ((b : TypedBuilder) × b.Rows)
  buffer : Bytes
  fields : List Field
  arrays : List ArrowArray

namespace ArrowDeserializerState

/-- `default`. -/
def fresh : ArrowDeserializerState := ⟨[], [], [], []⟩

/-- `push_array` and `push_field`. -/
def pushColumn (array : ArrowArray) (field : Field) (s : ArrowDeserializerState) :
    ArrowDeserializerState :=
  { s with arrays := s.arrays ++ [array], fields := s.fields ++ [field] }

/-- What `take` leaves. -/
def taken (s : ArrowDeserializerState) : ArrowDeserializerState :=
  { s with fields := [], arrays := [] }

/-- `ArrowFormat::finish_deser`. -/
def finishDeser (s : ArrowDeserializerState) : ArrowDeserializerState :=
  { s with builders := [], buffer := [] }

/-- No column is left over. -/
def NothingLeft (s : ArrowDeserializerState) : Prop := s.fields = [] ∧ s.arrays = []

end ArrowDeserializerState

open ArrowDeserializerState

/-! ## Reading a block -/

/-- What a read of a block is told: the round of a JSON text, the kind of the reader, the options
of the client and the revision of the server. -/
structure BlockReader where
  lex : Lexicon
  json : Bytes → Bytes
  mode : Mode
  options : ArrowOptions
  revision : Nat

/-- A column as its header says it is. -/
structure ColumnHeader where
  type : ChType
  field : Field

namespace ColumnHeader

/-- The type that the column is decoded as. -/
def hint (h : ColumnHeader) : ChType := typeHint h.type h.field.dataType

/-- A new builder for the column. -/
def newBuilder (h : ColumnHeader) : ArrowResult TypedBuilder :=
  TypedBuilder.tryNew h.hint h.field.dataType

end ColumnHeader

/-- A reader over the state of the connection. -/
abbrev BlockRead (α : Type) := StateReader ArrowDeserializerState ArrowError α

namespace BlockReader

variable (r : BlockReader)

/-- A name, which `read_async` refuses where it is not UTF-8 and `read` mends. -/
def readName : Reader ArrowError String :=
  match r.mode with
  | .async => (readUtf8String .async).mapError .native
  | .sync => do
      let bytes ← readText .sync
      (Reader.ofOutcome (fromUtf8 (fromUtf8Lossy bytes))).mapError .native

/-- The header of a column, up to the flag of a custom serialization. -/
def readHeader : Reader ArrowError ColumnHeader := do
  let name ← r.readName
  let typeName ← r.readName
  let t ← (Reader.ofOutcome (ChType.fromStr r.lex typeName.toList)).mapError .native
  let announced ← Reader.ofOutcome (chToArrowType t (some r.options))
  (Block.readFlag r.mode r.revision).mapError .native
  pure ⟨t, name, announced.1, announced.2⟩

/-- The decoder of a column, with and without a state. -/
def fill (t : ChType) : FillDecode :=
  match r.mode with
  | .async => fillArrowAsync r.json t
  | .sync => fillArrow r.json t

def decode (t : ChType) : Decode :=
  match r.mode with
  | .async => deserializeArrowAsync r.json t
  | .sync => deserializeArrow r.json t

/-- The place of the builder of a column: a builder that there is, or a new one behind them. -/
def chooseBuilder (i : Nat) (h : ColumnHeader) : BlockRead Nat := do
  let s ← StateReader.get
  if i < s.builders.length then pure i
  else do
    let b ← StateReader.lift (Reader.ofOutcome h.newBuilder)
    StateReader.modify fun s => { s with builders := s.builders ++ [⟨b, b.empty⟩] }
    pure s.builders.length

/-- `deserialize_arrow_async` or `deserialize_arrow` with the builder at a place. -/
def fillAt (k rows : Nat) (h : ColumnHeader) : BlockRead ArrowArray := do
  let s ← StateReader.get
  match s.builders[k]? with
  | none => StateReader.lift (Reader.panic .unwrapNone)
  | some b =>
      StateReader.zoom (fun s => ⟨b.2, s.buffer⟩)
        (fun filled s =>
          { s with builders := s.builders.set k ⟨b.1, filled.rows⟩, buffer := filled.buffer })
        (r.fill h.hint b.1 h.field.dataType rows [])

/-- The array of the column at a position.  A block without rows has no data. -/
def readArray (i rows : Nat) (h : ColumnHeader) : BlockRead ArrowArray :=
  if 0 < rows then do
    let k ← chooseBuilder i h
    StateReader.lift ((h.hint.deserializePrefix r.mode).mapError .native)
    r.fillAt k rows h
  else StateReader.lift (Reader.ofOutcome (newEmptyArray h.field.dataType))

/-- The loop over the columns, from the given one on. -/
def readColumns (rows : Nat) : Nat → Nat → BlockRead Unit
  | _, 0 => pure ()
  | i, n + 1 => do
      let h ← StateReader.lift r.readHeader
      let array ← r.readArray i rows h
      StateReader.modify (pushColumn array h.field)
      readColumns rows (i + 1) n

/-- The numbers of columns and of rows. -/
def readCounts : Reader ArrowError (Nat × Nat) := do
  let _ ← (BlockInfo.read r.mode).mapError .native
  let columns ← (readVarUint r.mode).mapError .native
  let rows ← (readVarUint r.mode).mapError .native
  pure (columns, rows)

/-- `RecordBatch::read_async` and `RecordBatch::read`. -/
def read : BlockRead RecordBatch := do
  let counts ← StateReader.lift r.readCounts
  if counts.1 = 0 ∧ counts.2 = 0 then pure ⟨[], [], 0⟩
  else do
    r.readColumns counts.2 0 counts.1
    let s ← StateReader.get
    StateReader.modify taken
    StateReader.lift (Reader.ofOutcome (RecordBatch.tryNew s.fields s.arrays))

/-! ## The same without a state -/

/-- The array of a column, from a new builder. -/
def arrayOf (rows : Nat) (h : ColumnHeader) : Reader ArrowError ArrowArray :=
  if 0 < rows then do
    let b ← Reader.ofOutcome h.newBuilder
    (h.hint.deserializePrefix r.mode).mapError .native
    r.decode h.hint b h.field.dataType rows []
  else Reader.ofOutcome (newEmptyArray h.field.dataType)

/-- The columns of a block. -/
def columnsOf (rows : Nat) : Nat → Reader ArrowError (List (Field × ArrowArray))
  | 0 => pure []
  | n + 1 => do
      let h ← r.readHeader
      let array ← r.arrayOf rows h
      let columns ← columnsOf rows n
      pure ((h.field, array) :: columns)

/-- The batch of a block. -/
def batchOf : Reader ArrowError RecordBatch := do
  let counts ← r.readCounts
  if counts.1 = 0 ∧ counts.2 = 0 then pure ⟨[], [], 0⟩
  else do
    let columns ← r.columnsOf counts.2 counts.1
    Reader.ofOutcome (RecordBatch.tryNew (columns.map Prod.fst) (columns.map Prod.snd))

end BlockReader

/-! ## Builders that are new -/

/-- A builder with its rows is a new one for the column. -/
def IsNew (h : ColumnHeader) (b : (b : TypedBuilder) × b.Rows) : Prop :=
  h.newBuilder = .ok b.1 ∧ b.2 = b.1.empty

section Columns

variable {r : BlockReader} {i rows : Nat} {h : ColumnHeader} {s : ArrowDeserializerState}

/-- At the place of the column there may be a new builder.  The other builders are those of
before, and no column has come in. -/
structure Grown (i : Nat) (h : ColumnHeader) (s s' : ArrowDeserializerState) : Prop where
  builders : ∀ j c, s'.builders[j]? = some c → s.builders[j]? = some c ∨ j = i ∧ IsNew h c
  fields : s'.fields = s.fields
  arrays : s'.arrays = s.arrays

/-- The state itself. -/
theorem Grown.refl (i : Nat) (h : ColumnHeader) (s : ArrowDeserializerState) : Grown i h s s :=
  ⟨fun _ _ hc => .inl hc, rfl, rfl⟩

theorem grown_push {b : TypedBuilder} (hb : h.newBuilder = .ok b) :
    Grown s.builders.length h s { s with builders := s.builders ++ [⟨b, b.empty⟩] } where
  builders := by
    intro j c hc
    rcases Nat.lt_trichotomy j s.builders.length with hlt | rfl | hgt
    · rw [List.getElem?_append_left hlt] at hc
      exact .inl hc
    · rw [List.getElem?_append_right (le_refl _), Nat.sub_self, List.getElem?_cons_zero] at hc
      obtain rfl := Option.some.inj hc
      exact .inr ⟨rfl, hb, rfl⟩
    · rw [List.getElem?_eq_none (by rw [List.length_append, List.length_singleton]; omega)] at hc
      cases hc
  fields := rfl
  arrays := rfl

/-- The builder that is chosen is a new one for the column. -/
theorem chooseBuilder_tracks (hlength : i ≤ s.builders.length)
    (hnew : ∀ b, s.builders[i]? = some b → IsNew h b) :
    Tracks (fun s' => s' = s) (BlockReader.chooseBuilder i h) (Reader.ofOutcome h.newBuilder)
      fun k b s' => k = i ∧ s'.builders[i]? = some ⟨b, b.empty⟩ ∧ Grown i h s s' := by
  apply Tracks.get_bind
  rintro s rfl
  by_cases hi : i < s.builders.length
  · -- The builder is there, and it is what a new one would be.
    rw [if_pos hi]
    obtain ⟨hbuilder, hempty⟩ := hnew _ (List.getElem?_eq_getElem hi)
    rw [hbuilder]
    apply Tracks.pure
    rintro s rfl
    refine ⟨rfl, ?_, Grown.refl i h s⟩
    rw [List.getElem?_eq_getElem hi, ← hempty]
  · rw [if_neg hi]
    -- Otherwise one is made, and it stands behind the others.
    obtain rfl : i = s.builders.length := by omega
    cases hbuilder : h.newBuilder with
    | error e =>
        intro bs s' hs
        constructor
        · intro e' he'
          obtain rfl := Except.error.inj he'
          rfl
        · intro b rest hb
          cases hb
    | ok b =>
        show Tracks _ (StateReader.modify (fun s' : ArrowDeserializerState =>
          { s' with builders := s'.builders ++ [⟨b, b.empty⟩] }) >>= fun _ =>
            pure s.builders.length) (pure b) _
        apply Tracks.modify_bind (fun s' =>
          s'.builders[s.builders.length]? = some ⟨b, b.empty⟩ ∧ Grown s.builders.length h s s')
        · rintro s rfl
          refine ⟨?_, grown_push hbuilder⟩
          show (s.builders ++ [_])[_]? = _
          rw [List.getElem?_append_right (le_refl _), Nat.sub_self, List.getElem?_cons_zero]
        · apply Tracks.pure
          exact fun s' hs' => ⟨rfl, hs'⟩

theorem BlockReader.fill_refills (r : BlockReader) (t : ChType) : Refills (r.fill t) (r.decode t) := by
  rw [BlockReader.fill, BlockReader.decode]
  cases r.mode with
  | async => exact fillArrowAsync_refills r.json t
  | sync => exact fillArrow_refills r.json t

theorem fillAt_tracks {b : TypedBuilder} (hb : s.builders[i]? = some ⟨b, b.empty⟩) :
    Tracks (fun s' => s' = s) (r.fillAt i rows h) (r.decode h.hint b h.field.dataType rows [])
      fun a a' s' => a = a' ∧ s'.builders = s.builders ∧ s'.fields = s.fields ∧
        s'.arrays = s.arrays := by
  apply Tracks.get_bind
  rintro s rfl
  rw [hb]
  apply (r.fill_refills h.hint b h.field.dataType rows []).zoom
  · rintro s rfl
    rfl
  · rintro a a' s filled rfl ⟨rfl, hempty⟩
    refine ⟨rfl, ?_, rfl, rfl⟩
    -- A builder that is empty again is the builder that was there.
    show s.builders.set i ⟨b, filled.rows⟩ = s.builders
    rw [show filled.rows = b.empty from hempty]
    obtain ⟨hi, hget⟩ := List.getElem?_eq_some_iff.mp hb
    rw [← hget, List.set_getElem_self]

/-- The array of a column whose builder, if there is one, is new. -/
theorem readArray_tracks (hlength : 0 < rows → i ≤ s.builders.length)
    (hnew : ∀ b, s.builders[i]? = some b → IsNew h b) :
    Tracks (fun s' => s' = s) (r.readArray i rows h) (r.arrayOf rows h)
      fun a a' s' => a = a' ∧ Grown i h s s' ∧ (0 < rows → i < s'.builders.length) := by
  apply Tracks.ite
  · intro hrows
    refine (chooseBuilder_tracks (hlength hrows) hnew).bind fun k b => ?_
    apply Tracks.of_pre
    rintro s' ⟨rfl, hhere, hgrown⟩
    apply Tracks.bind_eq (Restores.lift _)
    intro _
    refine (fillAt_tracks hhere).mono (fun _ hs => hs) ?_
    rintro a a' s'' ⟨rfl, hbuilders, hfields, harrays⟩
    refine ⟨rfl, ⟨?_, hfields.trans hgrown.fields, harrays.trans hgrown.arrays⟩, fun _ => ?_⟩
    · rw [hbuilders]
      exact hgrown.builders
    · rw [hbuilders]
      exact (List.getElem?_eq_some_iff.mp hhere).1
  · intro hrows
    refine (Restores.lift _).mono (fun _ hs => hs) ?_
    rintro a a' s' ⟨rfl, rfl⟩
    exact ⟨rfl, Grown.refl i h s', fun h => absurd h hrows⟩

end Columns

/-! ## Blocks of the same types -/

namespace BlockReader

variable {r : BlockReader}

/-- The header says what the type is announced as. -/
def Announces (r : BlockReader) (h : ColumnHeader) : Prop :=
  chToArrowType h.type (some r.options) = .ok (h.field.dataType, h.field.nullable)

theorem readHeader_announces (r : BlockReader) : Yields r.Announces r.readHeader := by
  apply Yields.bind_any
  intro name
  apply Yields.bind_any
  intro typeName
  apply Yields.bind_any
  intro t
  have hannounced : Yields (fun announced => chToArrowType t (some r.options) = .ok announced)
      (Reader.ofOutcome (chToArrowType t (some r.options))) := Yields.ofOutcome fun _ h => h
  refine hannounced.bind fun announced hannounced => ?_
  apply Yields.bind_any
  intro _
  exact Yields.pure hannounced

/-- As far as the columns can be read, they have these types. -/
def ColumnsHave (r : BlockReader) (rows : Nat) : List ChType → Nat → Bytes → Prop
  | types, 0, _ => types = []
  | [], _ + 1, _ => False
  | t :: types, n + 1, bytes => ∀ h rest, r.readHeader bytes = .ok (h, rest) → h.type = t ∧
      ∀ array rest', r.arrayOf rows h rest = .ok (array, rest') → r.ColumnsHave rows types n rest'

/-- As far as the block can be read, its columns have these types. -/
def HasTypes (r : BlockReader) (types : List ChType) (block : Bytes) : Prop :=
  ∀ counts rest, r.readCounts block = .ok (counts, rest) →
    r.ColumnsHave counts.2 types counts.1 rest

theorem exists_columnsHave (r : BlockReader) (rows n : Nat) (bytes : Bytes) :
    ∃ types, r.ColumnsHave rows types n bytes := by
  induction n generalizing bytes with
  | zero => exact ⟨[], rfl⟩
  | succ n ih =>
      cases hheader : r.readHeader bytes with
      | error e =>
          refine ⟨[.int8], fun h rest hok => ?_⟩
          rw [hheader] at hok
          cases hok
      | ok x =>
          -- The types behind the column are those of what its data leave.
          have hrest : ∃ types, ∀ array rest', r.arrayOf rows x.1 x.2 = .ok (array, rest') →
              r.ColumnsHave rows types n rest' := by
            cases harray : r.arrayOf rows x.1 x.2 with
            | error e => exact ⟨[], fun _ _ hok => by cases hok⟩
            | ok y =>
                obtain ⟨types, htypes⟩ := ih y.2
                refine ⟨types, fun array rest' hok => ?_⟩
                obtain rfl := Except.ok.inj hok
                exact htypes
          obtain ⟨types, htypes⟩ := hrest
          refine ⟨x.1.type :: types, fun h rest hok => ?_⟩
          rw [hheader] at hok
          obtain rfl := Except.ok.inj hok
          exact ⟨rfl, htypes⟩

/-- Every block has types. -/
theorem exists_hasTypes (r : BlockReader) (block : Bytes) : ∃ types, r.HasTypes types block := by
  cases hcounts : r.readCounts block with
  | error e =>
      refine ⟨[], fun counts rest hok => ?_⟩
      rw [hcounts] at hok
      cases hok
  | ok x =>
      obtain ⟨types, htypes⟩ := r.exists_columnsHave x.1.2 x.1.1 x.2
      refine ⟨types, fun counts rest hok => ?_⟩
      rw [hcounts] at hok
      obtain rfl := Except.ok.inj hok
      exact htypes

/-- Every builder is a new one for the type at its place. -/
def Ready (r : BlockReader) (types : List ChType) (s : ArrowDeserializerState) : Prop :=
  ∀ (j : Nat) c, s.builders[j]? = some c → ∃ t, types[j]? = some t ∧
    ∀ h, r.Announces h → h.type = t → IsNew h c

theorem newBuilder_congr {h h' : ColumnHeader} (hh : r.Announces h) (hh' : r.Announces h')
    (ht : h.type = h'.type) : h.newBuilder = h'.newBuilder := by
  have hd : h.field.dataType = h'.field.dataType := by
    rw [Announces, ht, hh'] at hh
    exact (Prod.mk.inj (Except.ok.inj hh)).1.symm
  rw [ColumnHeader.newBuilder, ColumnHeader.newBuilder, ColumnHeader.hint, ColumnHeader.hint, ht, hd]

theorem Ready.grown {types : List ChType} {i : Nat} {h : ColumnHeader}
    {s s' : ArrowDeserializerState} (hs : r.Ready types s) (hgrown : Grown i h s s')
    (hannounces : r.Announces h) (htype : types[i]? = some h.type) : r.Ready types s' := by
  intro j c hc
  rcases hgrown.builders j c hc with hold | ⟨rfl, hnew⟩
  · exact hs j c hold
  · refine ⟨h.type, htype, fun h' hannounces' ht => ?_⟩
    exact ⟨(newBuilder_congr hannounces' hannounces ht).trans hnew.1, hnew.2⟩

/-- The columns of a block have come in behind those that were there, and every builder is
still new for the type at its place. -/
structure Collected (r : BlockReader) (types : List ChType) (s : ArrowDeserializerState)
    (columns : List (Field × ArrowArray)) (s' : ArrowDeserializerState) : Prop where
  ready : r.Ready types s'
  fields : s'.fields = s.fields ++ columns.map Prod.fst
  arrays : s'.arrays = s.arrays ++ columns.map Prod.snd

/-- The loop over the columns from the given one on. -/
theorem readColumns_of_ready {all types : List ChType} {rows i n : Nat} {bs : Bytes}
    {s : ArrowDeserializerState} (hall : all.drop i = types) (htypes : r.ColumnsHave rows types n bs)
    (hlength : 0 < rows → i ≤ s.builders.length) (hready : r.Ready all s) :
    Agrees (fun _ columns s' => r.Collected all s columns s') (r.readColumns rows i n bs s)
      (r.columnsOf rows n bs) := by
  induction n generalizing i types bs s with
  | zero =>
      refine Tracks.pure (P := fun s' => s' = s) ?_ bs s rfl
      rintro s rfl
      exact ⟨hready, (List.append_nil _).symm, (List.append_nil _).symm⟩
  | succ n ih =>
      cases types with
      | nil => exact htypes.elim
      | cons t types =>
          -- The header of the column says its type, which is the type of the builder at this
          -- place.
          have hlift := Restores.lift (P := fun s' => s' = s) r.readHeader bs s rfl
          refine hlift.bind ?_
          rintro h _ rest s' hheader ⟨rfl, rfl⟩
          obtain ⟨htype, hrest⟩ := htypes h rest hheader
          have hannounces := r.readHeader_announces bs _ hheader
          have hplace : all[i]? = some h.type := by
            rw [← List.head?_drop, hall, htype, List.head?_cons]
          have hnew : ∀ b, s'.builders[i]? = some b → IsNew h b := by
            intro b hb
            obtain ⟨t', ht', hisNew⟩ := hready i b hb
            obtain rfl := Option.some.inj (hplace.symm.trans ht')
            exact hisNew h hannounces rfl
          refine (readArray_tracks hlength hnew rest s' rfl).bind ?_
          rintro array _ rest' s'' harray ⟨rfl, hgrown, hlength'⟩
          have hdrop : all.drop (i + 1) = types := by
            rw [← List.drop_drop, hall, List.drop_one, List.tail_cons]
          have hready' : r.Ready all s'' := hready.grown hgrown hannounces hplace
          -- The column is pushed, and the loop goes on with the other types.
          have hloop := ih (s := pushColumn array h.field s'') hdrop (hrest array rest' harray)
            hlength' hready'
          refine hloop.bind_pure ?_
          rintro _ columns last ⟨hready', hfields, harrays⟩
          refine ⟨hready', ?_, ?_⟩
          · rw [hfields, List.map_cons, pushColumn, hgrown.fields, List.append_assoc,
              List.singleton_append]
          · rw [harrays, List.map_cons, pushColumn, hgrown.arrays, List.append_assoc,
              List.singleton_append]

/-- A block of the types that the builders are for, where no column is left over. -/
theorem read_of_ready {types : List ChType} {block : Bytes} {s : ArrowDeserializerState}
    (htypes : r.HasTypes types block) (hleft : s.NothingLeft) (hready : r.Ready types s) :
    Agrees (fun batch batch' s' => batch = batch' ∧ s'.NothingLeft ∧ r.Ready types s')
      (r.read block s) (r.batchOf block) := by
  have hlift := Restores.lift (P := fun s' => s' = s) r.readCounts block s rfl
  refine hlift.bind ?_
  rintro counts _ rest s hcounts ⟨rfl, rfl⟩
  by_cases hempty : counts.1 = 0 ∧ counts.2 = 0
  · rw [if_pos hempty, if_pos hempty]
    refine Tracks.pure (P := fun s' => s' = s) ?_ rest s rfl
    rintro s rfl
    exact ⟨rfl, hleft, hready⟩
  · rw [if_neg hempty, if_neg hempty]
    have hcolumns := readColumns_of_ready (i := 0) rfl (htypes counts rest hcounts)
      (fun _ => Nat.zero_le _) hready
    refine hcolumns.bind ?_
    rintro _ columns rest' s' _ ⟨hready', hfields, harrays⟩
    rw [hleft.1, List.nil_append] at hfields
    rw [hleft.2, List.nil_append] at harrays
    rw [← hfields, ← harrays]
    have htake := Restores.lift (P := fun s => s.NothingLeft ∧ r.Ready types s)
      (Reader.ofOutcome (RecordBatch.tryNew s'.fields s'.arrays)) rest' s'.taken
      ⟨⟨rfl, rfl⟩, hready'⟩
    exact htake

/-- A new state is ready for every block. -/
theorem ready_fresh (types : List ChType) : r.Ready types fresh := by
  intro j c hc
  cases hc

/-- What is read from a new state is what is read without one. -/
theorem read_fresh (r : BlockReader) (block : Bytes) : (r.read block fresh).1 = r.batchOf block := by
  obtain ⟨types, htypes⟩ := r.exists_hasTypes block
  exact (read_of_ready htypes ⟨rfl, rfl⟩ (ready_fresh types)).fst_eq fun _ _ _ h => h.1

end BlockReader

/-! ## Runs -/

/-- What happens to the state of a connection.  A read that is abandoned leaves what is left by
a read of the bytes that had come in, when nothing comes behind them. -/
inductive Event
  | read (r : BlockReader) (input : Bytes)
  | finishDeser

/-- The state after an event. -/
def step (s : ArrowDeserializerState) : Event → ArrowDeserializerState
  | .read r input => (r.read input s).2
  | .finishDeser => s.finishDeser

/-- The state after a run that begins with a new one. -/
def run (events : List Event) : ArrowDeserializerState := events.foldl step fresh

namespace BlockReader

variable {r : BlockReader}

/-- The state after some blocks. -/
def after (r : BlockReader) (s : ArrowDeserializerState) (blocks : List Bytes) :
    ArrowDeserializerState :=
  blocks.foldl (fun s block => step s (.read r block)) s

/-- Blocks that can be decoded, all of the same types, and one more of these types: it is read as
from a new state. -/
def ReadsAfresh (r : BlockReader) (s : ArrowDeserializerState) : Prop :=
  ∀ types blocks last, (∀ block ∈ blocks, r.HasTypes types block ∧
    ∃ x, (r.read block fresh).1 = .ok x) → r.HasTypes types last →
      (r.read last (r.after s blocks)).1 = (r.read last fresh).1

/-- Blocks of the same types leave the builders ready and no column behind. -/
theorem ready_after {types : List ChType} {blocks : List Bytes} {s : ArrowDeserializerState}
    (hblocks : ∀ block ∈ blocks, r.HasTypes types block ∧ ∃ x, (r.read block fresh).1 = .ok x)
    (hleft : s.NothingLeft) (hready : r.Ready types s) :
    (r.after s blocks).NothingLeft ∧ r.Ready types (r.after s blocks) := by
  induction blocks generalizing s with
  | nil => exact ⟨hleft, hready⟩
  | cons block blocks ih =>
      rw [List.forall_mem_cons] at hblocks
      obtain ⟨⟨htypes, x, hx⟩, hblocks⟩ := hblocks
      rw [read_fresh] at hx
      obtain ⟨_, s', hrun, -, hleft', hready'⟩ := (read_of_ready htypes hleft hready).2 x.1 x.2 hx
      show (r.after (r.read block s).2 blocks).NothingLeft ∧
        r.Ready types (r.after (r.read block s).2 blocks)
      rw [hrun]
      exact ih hblocks hleft' hready'

/-- **Blocks of the same types are read from a new state as if each had one of its own.** -/
theorem readsAfresh_fresh (r : BlockReader) : r.ReadsAfresh fresh := by
  intro types blocks last hblocks hlast
  obtain ⟨hleft, hready⟩ := ready_after hblocks ⟨rfl, rfl⟩ (ready_fresh types)
  rw [read_fresh]
  exact (read_of_ready hlast hleft hready).fst_eq fun _ _ _ h => h.1

/-- A block of one row that has no columns. -/
def noColumns : Bytes := [0, 0, 1]

theorem hasTypes_noColumns (r : BlockReader) : r.HasTypes [] noColumns := by
  intro counts rest hcounts
  have hread : r.readCounts noColumns = .ok ((0, 1), []) := by
    obtain ⟨lex, json, mode, options, revision⟩ := r
    cases mode <;> rfl
  rw [hread] at hcounts
  obtain ⟨rfl, rfl⟩ := Prod.mk.inj (Except.ok.inj hcounts)
  rfl

/-- Such a block is made of what is left over. -/
theorem read_noColumns (r : BlockReader) (s : ArrowDeserializerState) :
    (r.read noColumns s).1 = Reader.ofOutcome (RecordBatch.tryNew s.fields s.arrays) [] := by
  obtain ⟨lex, json, mode, options, revision⟩ := r
  cases mode <;> rfl

end BlockReader

/-! ## What a query leaves for the next one -/

/-- Only a read that fails leaves columns behind, whatever the builders hold. -/
theorem nothingLeft_of_read (r : BlockReader) {input : Bytes} {s s' : ArrowDeserializerState}
    {x : RecordBatch × Bytes} (hs : s.NothingLeft) (h : r.read input s = (.ok x, s')) :
    s'.NothingLeft := by
  obtain ⟨counts, rest, s₁, hcounts, h⟩ := StateReader.bind_eq_ok h
  obtain rfl : s = s₁ := congrArg Prod.snd hcounts
  by_cases hempty : counts.1 = 0 ∧ counts.2 = 0
  · rw [if_pos hempty] at h
    obtain rfl : s = s' := congrArg Prod.snd h
    exact hs
  · rw [if_neg hempty] at h
    obtain ⟨_, rest', s₂, -, h⟩ := StateReader.bind_eq_ok h
    -- The columns are taken out before the batch is made of them.
    obtain rfl : s₂.taken = s' := congrArg Prod.snd h
    exact ⟨rfl, rfl⟩

theorem ofOutcome_inj {α : Type} {o o' : ArrowResult α} {bs : Bytes}
    (h : Reader.ofOutcome o bs = Reader.ofOutcome o' bs) : o = o' := by
  cases o <;> cases o' <;> simp_all [Reader.ofOutcome]

/-- How `RecordBatch::try_new` refuses a batch without columns. -/
def withoutColumns : ArrowError :=
  .arrow [.text "must either specify a row count or at least one column"]

theorem checkNullable_ne (fields : List Field) (arrays : List ArrowArray) :
    RecordBatch.checkNullable fields arrays ≠ .fail withoutColumns := by
  induction fields generalizing arrays with
  | nil => simp [RecordBatch.checkNullable, Outcome.fail]
  | cons f fs ih =>
      cases arrays with
      | nil => simp [RecordBatch.checkNullable, Outcome.fail]
      | cons a as =>
          rw [RecordBatch.checkNullable]
          split_ifs
          · simp [Outcome.fail, withoutColumns]
          · exact ih as

theorem checkTypes_ne (i : Nat) (fields : List Field) (arrays : List ArrowArray) :
    RecordBatch.checkTypes i fields arrays ≠ .fail withoutColumns := by
  induction fields generalizing i arrays with
  | nil => simp [RecordBatch.checkTypes, Outcome.fail]
  | cons f fs ih =>
      cases arrays with
      | nil => simp [RecordBatch.checkTypes, Outcome.fail]
      | cons a as =>
          rw [RecordBatch.checkTypes]
          split_ifs
          · simp [Outcome.fail, withoutColumns]
          · exact ih (i + 1) as

/-- Only a batch without columns is refused as one. -/
theorem eq_nil_of_tryNew {fields : List Field} {arrays : List ArrowArray}
    (h : RecordBatch.tryNew fields arrays = RecordBatch.tryNew [] []) : fields = [] ∧ arrays = [] := by
  replace h : RecordBatch.tryNew fields arrays = .fail withoutColumns := h
  unfold RecordBatch.tryNew at h
  split_ifs at h with hlength
  · simp [Outcome.fail, withoutColumns] at h
  · cases arrays with
    | nil => exact ⟨List.length_eq_zero_iff.mp (not_not.mp hlength), rfl⟩
    | cons a as =>
        exfalso
        dsimp only at h
        -- Every other refusal has a text of its own.
        cases hnullable : RecordBatch.checkNullable fields (a :: as) with
        | error e =>
            rw [hnullable, Outcome.error_bind] at h
            obtain rfl := Except.error.inj h
            exact checkNullable_ne fields (a :: as) hnullable
        | ok _ =>
            rw [hnullable, Outcome.ok_bind] at h
            split_ifs at h
            · simp [Outcome.fail, withoutColumns] at h
            · cases htypes : RecordBatch.checkTypes 0 fields (a :: as) with
              | error e =>
                  rw [htypes, Outcome.error_bind] at h
                  obtain rfl := Except.error.inj h
                  exact checkTypes_ne 0 fields (a :: as) htypes
              | ok _ =>
                  rw [htypes] at h
                  cases h

/-- **What a run leaves for the next query.**  In every run, blocks of the same types are read
behind `finish_deser` as from a new state if and only if no column is left over at the call. -/
theorem readsAfresh_finishDeser_iff (r : BlockReader) (events : List Event) :
    r.ReadsAfresh (run events).finishDeser ↔ (run events).NothingLeft := by
  constructor
  · intro h
    have hread := h [] [] BlockReader.noColumns (fun _ hblock => by cases hblock)
      r.hasTypes_noColumns
    replace hread : (r.read BlockReader.noColumns (run events).finishDeser).1 = _ := hread
    rw [r.read_noColumns, r.read_noColumns] at hread
    apply eq_nil_of_tryNew
    show RecordBatch.tryNew (run events).fields (run events).arrays = _
    exact ofOutcome_inj hread
  · rintro ⟨hfields, harrays⟩
    have hfresh : (run events).finishDeser = fresh := by
      rw [finishDeser, hfields, harrays]
      rfl
    rw [hfresh]
    exact r.readsAfresh_fresh

/-- A block of two columns without rows is cut off behind the first one; the next block has one
column, and two come out of it. -/
theorem not_readsAfresh_samples :
    ¬ ∀ (r : BlockReader) (events : List Event), r.ReadsAfresh (run events).finishDeser := by
  intro h
  let r : BlockReader := ⟨.ascii, id, .async, .new, 0⟩
  let cut : Bytes := [0, 2, 0, 1, 97, 4, 73, 110, 116, 56]
  let whole : Bytes := [0, 1, 0, 1, 97, 4, 73, 110, 116, 56]
  obtain ⟨types, htypes⟩ := r.exists_hasTypes whole
  have hread := h r [.read r cut] types [] whole (fun _ hblock => by cases hblock) htypes
  have hcolumns := congrArg (fun o => o.toOption.map fun x => x.1.schema.length) hread
  replace hcolumns : some 2 = some 1 := hcolumns
  cases hcolumns

end Arrow

end ClickhouseArrow
