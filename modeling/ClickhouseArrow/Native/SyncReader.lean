import ClickhouseArrow.Native.BlockRoundTrip

/-!
# Where the synchronous reader gets stuck

The synchronous column reader returns nothing from the bytes of a column that is not
`SyncReadable` at every depth: dictionaries, tuples and maps are not implemented, and an
array column without rows has no last offset.  A block with such a column is stuck at it,
and a block without rows is read alike by both readers.
-/

namespace ClickhouseArrow

open Wire

/-- The column is written, and the synchronous reader returns nothing from its bytes. -/
def ColumnStuck (t : ChType) (column : List Value) : Prop :=
  ∃ bytes, t.serializeColumn column = .ok bytes ∧
    Stuck (t.readColumn .sync column.length) bytes

/-- An array column without rows. -/
theorem array_stuck_nil (readInner : Nat → Reader Error (List Value))
    (innerValue : List Value → Result Value) (bytes : Bytes) :
    Stuck (ArrayDeserializer.read .sync readInner innerValue 0) bytes :=
  fun _ _ h => by simp [ArrayDeserializer.read, Reader.readMany] at h

theorem guardRows_stuck {rows : Nat} {column : Reader Error (List Value)} {bytes : Bytes}
    (h : Stuck column bytes) : Stuck (guardRows rows column) bytes := by
  unfold guardRows
  split
  · exact Stuck.fail _ _
  · exact h

/-- An array column whose items the reader does not return. -/
theorem array_stuck {values : Value → Result (List Value)} (items : Value → List Value)
    {inner : List Value → Result Bytes} {readInner : Nat → Reader Error (List Value)}
    {innerValue : List Value → Result Value} {column : List Value} {body : Bytes}
    (hvalues : ∀ v ∈ column, values v = .ok (items v))
    (hwrite : inner (column.flatMap items) = .ok body)
    (hsize : (column.flatMap items).length < 2 ^ 64)
    (hstuck : Stuck (readInner (column.flatMap items).length) body) :
    ∃ bytes, ArraySerializer.write values inner column = .ok bytes ∧
      Stuck (ArrayDeserializer.read .sync readInner innerValue column.length) bytes := by
  refine ⟨_, arrayWrite_eq hvalues hwrite, ?_⟩
  by_cases hnil : column = []
  · subst hnil
    exact array_stuck_nil _ _ _
  · obtain ⟨hoffsets, hlast⟩ := arrayOffsets_reads .sync items hnil hsize
    rw [ArrayDeserializer.read, if_neg (by simp)]
    refine hoffsets.bind_stuck ?_
    rw [hlast]
    exact hstuck.bind _

/-! ## Geo types -/

theorem polygonItems_of_accepts {v : Value} (h : ChType.polygon.accepts v = true) :
    v.polygonItems = .ok v.parts := by
  cases v <;> simp [ChType.accepts] at h
  rfl

theorem multiPolygonItems_of_accepts {v : Value} (h : ChType.multiPolygon.accepts v = true) :
    v.multiPolygonItems = .ok v.parts := by
  cases v <;> simp [ChType.accepts] at h
  rfl

theorem parts_of_multiPolygons {column : List Value}
    (h : ∀ v ∈ column, ChType.multiPolygon.accepts v = true) :
    ∀ p ∈ column.flatMap Value.parts, ChType.polygon.accepts p = true := by
  intro p hp
  obtain ⟨v, hv, hpv⟩ := List.mem_flatMap.mp hp
  have hv := h v hv
  cases v <;> simp [ChType.accepts] at hv
  obtain ⟨polygon, -, rfl⟩ := List.mem_map.mp hpv
  rfl

/-- A polygon column without polygons or without rings. -/
theorem polygon_stuck {column : List Value}
    (hheld : ∀ v ∈ column, ChType.polygon.accepts v = true)
    (h : column = [] ∨ column.flatMap Value.parts = []) :
    ∃ bytes, PolygonSerializer.write column = .ok bytes ∧
      Stuck (PolygonDeserializer.read .sync column.length) bytes := by
  have hparts : column.flatMap Value.parts = [] := by
    rcases h with rfl | hparts
    · rfl
    · exact hparts
  have hwrite : RingSerializer.write (column.flatMap Value.parts) = .ok [] := by
    rw [hparts]
    rfl
  refine array_stuck Value.parts (fun v hv => polygonItems_of_accepts (hheld v hv)) hwrite ?_ ?_
  · rw [hparts]
    decide
  · rw [hparts]
    exact guardRows_stuck (array_stuck_nil _ _ _)

theorem multiPolygon_stuck {column : List Value}
    (hheld : ∀ v ∈ column, ChType.multiPolygon.accepts v = true)
    (hsize : (column.flatMap Value.parts).length < 2 ^ 64)
    (h : column = [] ∨ column.flatMap Value.parts = [] ∨
      (column.flatMap Value.parts).flatMap Value.parts = []) :
    ∃ bytes, MultiPolygonSerializer.write column = .ok bytes ∧
      Stuck (MultiPolygonDeserializer.read .sync column.length) bytes := by
  have hparts : column.flatMap Value.parts = [] ∨
      (column.flatMap Value.parts).flatMap Value.parts = [] := by
    rcases h with rfl | hparts
    · exact .inl rfl
    · exact hparts
  obtain ⟨body, hwrite, hstuck⟩ := polygon_stuck (parts_of_multiPolygons hheld) hparts
  exact array_stuck Value.parts
    (fun v hv => multiPolygonItems_of_accepts (hheld v hv)) hwrite hsize (guardRows_stuck hstuck)

namespace ChType

/-- The geo column has no rows at some depth. -/
theorem geoColumn_stuck {t : ChType} {column : List Value} (ht : t.isGeo = true)
    (hheld : ∀ v ∈ column, t.accepts v = true) (hstorable : t.EveryColumn Storable column)
    (hnot : ¬ t.EveryColumn SyncReadable column) : ColumnStuck t column := by
  have hbound : maxStringSize < 2 ^ 64 := by decide
  cases t with
  | point => exact absurd trivial hnot
  | ring =>
      have hnil : column = [] := by simpa [EveryColumn, SyncReadable] using hnot
      subst hnil
      exact ⟨[], rfl, guardRows_stuck (array_stuck_nil _ _ _)⟩
  | polygon =>
      obtain ⟨bytes, hwrite, hstuck⟩ := polygon_stuck hheld
        (by simpa [EveryColumn, SyncReadable, or_iff_not_imp_left] using hnot)
      exact ⟨bytes, hwrite, guardRows_stuck hstuck⟩
  | multiPolygon =>
      obtain ⟨-, hpolygons, -⟩ := hstorable
      obtain ⟨bytes, hwrite, hstuck⟩ := multiPolygon_stuck hheld
        (Nat.lt_of_le_of_lt hpolygons.rows hbound)
        (by simpa [EveryColumn, SyncReadable, or_iff_not_imp_left] using hnot)
      exact ⟨bytes, hwrite, guardRows_stuck hstuck⟩
  | _ => simp [isGeo] at ht

/-! ## The induction -/

/-- A reader that is not implemented. -/
theorem ColumnStuck.of_refused {t : ChType} {column : List Value} {e : Error}
    (hasync : ColumnRoundTrip .async t.readBack t column)
    (hrefused : t.readColumn .sync column.length =
      guardRows column.length (Reader.fail e)) : ColumnStuck t column := by
  obtain ⟨bytes, hwrite, -⟩ := hasync
  exact ⟨bytes, hwrite, by rw [hrefused]; exact guardRows_stuck (Stuck.fail _ _)⟩

/-- The synchronous reader returns nothing from the bytes of a storable column that it
cannot read at some depth. -/
theorem column_stuck (t : ChType) (hvalid : t.validate = .ok ()) (column : List Value)
    (hheld : ∀ v ∈ column, Held t v) (hstorable : t.EveryColumn Storable column)
    (hnot : ¬ t.EveryColumn SyncReadable column) : ColumnStuck t column := by
  have hbound : maxStringSize < 2 ^ 64 := by decide
  have hasync := column_roundTrip .async t hvalid column hheld hstorable (.inl rfl)
  induction t using inductionOn generalizing column with
  | hleaf t hflat =>
      cases hgeo : t.isGeo with
      | true =>
          refine geoColumn_stuck hgeo (fun v hv => ?_) hstorable hnot
          rw [← innerValidateValue_leaf hflat]
          exact held_composite (by simp [isEntry, hgeo]) (hheld v hv)
      | false =>
          -- A leaf that is no geo type is read in either mode.
          refine absurd ?_ hnot
          cases t <;> trivial
  | hnullable inner ih =>
      obtain ⟨hflat, hinner⟩ := validate_nullable hvalid
      obtain ⟨hself, hinnerStorable⟩ := hstorable
      have hinnerHeld : ∀ v ∈ column, Held inner v := by
        intro v hv
        obtain rfl | haccepts := innerValidateValue_nullable (held_composite rfl (hheld v hv))
        · exact .inl ⟨rfl, hself.nulls hv⟩
        · exact .inr haccepts
      have hinnerNot : ¬ inner.EveryColumn SyncReadable column := fun h => hnot ⟨trivial, h⟩
      obtain ⟨body, hwrite, hstuck⟩ := ih hinner column hinnerHeld hinnerStorable hinnerNot
        (column_roundTrip .async inner hinner column hinnerHeld hinnerStorable (.inl rfl))
      refine ⟨NullableSerializer.mask column ++ body, ?_, guardRows_stuck ?_⟩
      · rw [serializeColumn, NullableSerializer.write, hwrite]
        rfl
      -- The mask is read, and the column behind it is not.
      · have hmask := Reads.takeExact Mode.sync.eof (NullableSerializer.mask column)
        rw [NullableSerializer.mask, List.length_map] at hmask
        exact hmask.bind_stuck (hstuck.bind _)
  | hlowCardinality inner ih =>
      exact ColumnStuck.of_refused hasync (readColumn_lowCardinality .sync inner column.length)
  | harray inner ih =>
      obtain ⟨hself, hitemsStorable⟩ := hstorable
      have harrays := fun v hv => innerValidateValue_array (held_composite rfl (hheld v hv))
      -- Without rows the offsets are empty, and the reader takes the last of them.
      by_cases hnil : column = []
      · subst hnil
        obtain ⟨bytes, hwrite, -⟩ := hasync
        exact ⟨bytes, hwrite, guardRows_stuck (array_stuck_nil _ _ _)⟩
      · have hitems : ∀ x ∈ column.flatMap Value.parts, Held inner x := by
          intro x hx
          obtain ⟨v, hv, hxv⟩ := List.mem_flatMap.mp hx
          obtain ⟨items, rfl, hvalidItems⟩ := harrays v hv
          exact .inr (hvalidItems x hxv)
        have hvalues : ∀ v ∈ column, v.unwrapArray = .ok v.parts := by
          intro v hv
          obtain ⟨items, rfl, -⟩ := harrays v hv
          rfl
        have hinnerNot : ¬ inner.EveryColumn SyncReadable (column.flatMap Value.parts) :=
          fun h => hnot ⟨hnil, h⟩
        have hinner := validate_array hvalid
        obtain ⟨body, hwrite, hstuck⟩ := ih hinner _ hitems hitemsStorable hinnerNot
          (column_roundTrip .async inner hinner _ hitems hitemsStorable (.inl rfl))
        have harray : ∃ bytes,
            ArraySerializer.write Value.unwrapArray inner.serializeColumn column = .ok bytes ∧
              Stuck (ArrayDeserializer.read .sync (inner.readColumn .sync)
                (fun items => .ok (.array items)) column.length) bytes :=
          array_stuck Value.parts hvalues hwrite
            (Nat.lt_of_le_of_lt hitemsStorable.self.rows hbound) hstuck
        obtain ⟨bytes, hwriteAll, hstuckAll⟩ := harray
        exact ⟨bytes, by rw [serializeColumn, hwriteAll], guardRows_stuck hstuckAll⟩
  | htuple items ih => exact ColumnStuck.of_refused hasync rfl
  | hmap key value ihkey ihvalue => exact ColumnStuck.of_refused hasync rfl

end ChType

namespace Block

variable {lex : Lexicon}

/-! ## Blocks -/

/-- The synchronous reader is stuck in a block with a column that it cannot read. -/
theorem columns_stuck (revision : Nat) {rows : Nat} (hrows : 0 < rows) {columns : List (String × ChType)}
    (hnames : ∀ column ∈ columns, NamesFit lex column) {data : List Value}
    (hdata : DataFits rows columns data) (hnot : ¬ Readable .sync rows columns data) :
    ∃ bytes, writeColumns revision rows columns data = .ok bytes ∧
      Stuck (readColumns lex .sync revision rows columns.length) bytes := by
  induction columns generalizing data with
  | nil => exact absurd trivial hnot
  | cons column columns ih =>
      obtain ⟨name, t⟩ := column
      obtain ⟨hnameable, hname, htypeName⟩ := hnames (name, t) List.mem_cons_self
      have htail := fun c hc => hnames c (List.mem_cons_of_mem (name, t) hc)
      have hparse := ChType.fromStr_display hnameable
      obtain ⟨hlen, hfits, hrest⟩ := hdata
      -- Up to the values of the column both cases are the same.
      have hhead : ∀ body rest, writeBody revision rows t (data.take rows) = .ok body →
          writeColumns revision rows columns (data.drop rows) = .ok rest →
          Stuck (do
            readFlag .sync revision
            let t ← Reader.ofOutcome (ChType.fromStr lex (String.ofList t.display).toList)
            let rowData ← readValues .sync t rows
            let next ← readColumns lex .sync revision rows columns.length
            pure ((name, t) :: next.1, rowData ++ next.2)) (body ++ rest) →
          ∃ bytes, writeColumns revision rows ((name, t) :: columns) data = .ok bytes ∧
            Stuck (readColumns lex .sync revision rows ((name, t) :: columns).length) bytes := by
        intro body rest hbody hrestBytes hstuck
        refine ⟨_, ?_, (readUtf8String_reads .sync hname).bind_stuck
          ((readUtf8String_reads .sync htypeName).bind_stuck hstuck)⟩
        rw [writeColumns, if_neg (Nat.not_lt.mpr hlen), hbody, Outcome.ok_bind, hrestBytes]
        rfl
      by_cases hfirst : t.EveryColumn ChType.SyncReadable (data.take rows)
      · have hrestNot : ¬ Readable .sync rows columns (data.drop rows) :=
          fun h => hnot ⟨fun _ => .inr hfirst, h⟩
        obtain ⟨flag, body, hwrite, hreadFlag, hreadBody⟩ :=
          body_reads revision hlen hfits (.inl hrows) fun _ => .inr hfirst
        obtain ⟨rest, hwriteRest, hstuck⟩ := ih htail hrest hrestNot
        refine hhead _ rest hwrite hwriteRest ?_
        rw [List.append_assoc, String.toList_ofList, hparse]
        refine hreadFlag.bind_stuck ((Reads.pure t).bind_stuck (s := []) ?_)
        exact hreadBody.bind_stuck (hstuck.bind _)
      · have hvalues := hfits hrows
        have hheld : ∀ v ∈ data.take rows, Held t v := fun v hv =>
          .inr (ChType.validateValue_eq_ok.mp (hvalues.accepted v hv)).2
        obtain ⟨bytes, hwrite, hstuck⟩ := ChType.column_stuck t hvalues.valid _ hheld
          hvalues.storable hfirst
        obtain ⟨rest, hwriteRest, -⟩ := columns_reads revision htail (.inl hrows)
          hrest (readable_async rows columns _)
        rw [List.length_take, Nat.min_eq_left hlen] at hstuck
        have hwriteBody : writeBody revision rows t (data.take rows) =
            .ok ((if minRevisionWithCustomSerialization ≤ revision then putLe (0 : UInt8) else []) ++
              (t.serializePrefix ++ bytes)) := by
          rw [writeBody, if_pos hrows, hwrite]
          rfl
        refine hhead _ rest hwriteBody hwriteRest ?_
        rw [List.append_assoc, String.toList_ofList, hparse]
        refine (readFlag_reads .sync revision).bind_stuck ((Reads.pure t).bind_stuck (s := []) ?_)
        have hreadValues : Stuck (readValues .sync t rows) (t.serializePrefix ++ bytes) := by
          rw [readValues, if_pos hrows]
          exact (ChType.prefix_reads .sync t).bind_stuck hstuck
        exact (hreadValues.bind _).append rest

/-- A block that fits with a column that the synchronous reader cannot read. -/
theorem read_stuck {b : Block} (revision : Nat) (hfits : Fits lex b) (hrows : 0 < b.rows.toNat)
    (hnot : ¬ Readable .sync b.rows.toNat b.columnTypes b.columnData) :
    ∃ bytes, b.write revision = .ok bytes ∧ Stuck (read lex .sync revision) bytes := by
  obtain ⟨bytes, hwrite, hstuck⟩ :=
    columns_stuck revision hrows hfits.names hfits.data hnot
  refine ⟨_, by rw [write, hwrite, Outcome.ok_bind], ?_⟩
  exact (info_reads .sync revision b.info).bind_stuck
    ((readVarUint_reads .sync hfits.columns).bind_stuck
      ((readVarUint_reads .sync hfits.rows).bind_stuck (hstuck.bind _)))

/-! ## Blocks without rows -/

theorem readUtf8String_simulates :
    Simulates (fun a b => a = b) (readUtf8String .async) (readUtf8String .sync) := by
  refine readString_simulates.bind ?_
  rintro bytes _ rfl
  exact Simulates.ofOutcome (Matching.refl _)

theorem readFlag_simulates (revision : Nat) :
    Simulates (fun a b => a = b) (readFlag .async revision) (readFlag .sync revision) :=
  Simulates.ite (fun _ => (Simulates.getLe UInt8 _ _).bind fun _ _ _ => Simulates.pure rfl)
    fun _ => Simulates.pure rfl

/-- Without rows the two readers never come to a column. -/
theorem zeroColumns_simulates (lex : Lexicon) (revision columns : Nat) :
    Simulates (fun a b => a = b) (readColumns lex .async revision 0 columns)
      (readColumns lex .sync revision 0 columns) := by
  induction columns with
  | zero => exact Simulates.pure rfl
  | succ columns ih =>
      refine readUtf8String_simulates.bind ?_
      rintro name _ rfl
      refine readUtf8String_simulates.bind ?_
      rintro typeName _ rfl
      refine (readFlag_simulates revision).bind fun _ _ _ => ?_
      refine (Simulates.ofOutcome (Matching.refl _)).bind ?_
      rintro t _ rfl
      have hvalues : ∀ m, readValues m t 0 = pure [] := fun m => if_neg (Nat.lt_irrefl 0)
      rw [hvalues, hvalues]
      refine (Simulates.pure (R := fun a b => a = b) rfl).bind ?_
      rintro rowData _ rfl
      refine ih.bind ?_
      rintro rest _ rfl
      exact Simulates.pure rfl

end Block

end ClickhouseArrow
