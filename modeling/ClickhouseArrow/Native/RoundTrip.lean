import ClickhouseArrow.Native.Containers

/-!
# Round trip of a column

A column of accepted values is written and read back, by induction on the type:

- `readBack` is the value that a value reads back as;
- `EveryColumn` spreads a condition over a column and all the columns nested in it, and
  `Storable` is the condition under which the codec is faithful;
- `column_roundTrip` is the induction.
-/

namespace ClickhouseArrow

open Wire

/-- The items of an array, a tuple or a geo shape. -/
def Value.parts : Value → List Value
  | .array items => items
  | .tuple items => items
  | .ring r => r.map .point
  | .polygon p => p.map .ring
  | .multiPolygon p => p.map .polygon
  | _ => []

namespace ChType

/-! ## What a column reads back as -/

mutual

/-- The value that a value of the type reads back as. -/
def readBack : ChType → Value → Value
  | .nullable inner, v => if v.isNull then .null else inner.readBack v
  | .lowCardinality inner, v => inner.readBack v
  | .array inner, v => .array (v.parts.map inner.readBack)
  | .tuple items, v => .tuple (readBacks items v.parts)
  | .map key value, v => .map (v.mapKeys.map key.readBack) (v.mapValues.map value.readBack)
  | leaf, v => leaf.entryBack (v.justifyNullRef leaf)

def readBacks : List ChType → List Value → List Value
  | t :: ts, v :: vs => t.readBack v :: readBacks ts vs
  | _, _ => []

end

theorem readBacks_eq_zipWith (items : List ChType) (values : List Value) :
    readBacks items values = List.zipWith readBack items values := by
  induction items generalizing values with
  | nil => cases values <;> simp [readBacks]
  | cons t ts ih =>
      cases values with
      | nil => simp [readBacks]
      | cons v vs => simp [readBacks, ih]

/-! ## A condition on all nested columns -/

mutual

/-- The condition holds of the column and of every column nested in it, as the writer
lays them out. -/
def EveryColumn (P : ChType → List Value → Prop) : ChType → List Value → Prop
  | .nullable inner, column => P (.nullable inner) column ∧ inner.EveryColumn P column
  | .lowCardinality (.nullable inner), column =>
      P (.lowCardinality (.nullable inner)) column ∧
        inner.EveryColumn P (LowCardinality.keys true column)
  | .lowCardinality inner, column =>
      P (.lowCardinality inner) column ∧ inner.EveryColumn P (LowCardinality.keys false column)
  | .array inner, column =>
      P (.array inner) column ∧ inner.EveryColumn P (column.flatMap Value.parts)
  | .tuple items, column =>
      P (.tuple items) column ∧
        EveryColumns P items (columnsOf items.length (column.map Value.parts))
  | .map key value, column =>
      P (.map key value) column ∧ key.EveryColumn P (column.flatMap Value.mapKeys) ∧
        value.EveryColumn P (column.flatMap Value.mapValues)
  | .ring, column => P .ring column ∧ P .point (column.flatMap Value.parts)
  | .polygon, column =>
      P .polygon column ∧ P .ring (column.flatMap Value.parts) ∧
        P .point ((column.flatMap Value.parts).flatMap Value.parts)
  | .multiPolygon, column =>
      P .multiPolygon column ∧ P .polygon (column.flatMap Value.parts) ∧
        P .ring ((column.flatMap Value.parts).flatMap Value.parts) ∧
        P .point (((column.flatMap Value.parts).flatMap Value.parts).flatMap Value.parts)
  | leaf, column => P leaf column

def EveryColumns (P : ChType → List Value → Prop) : List ChType → List (List Value) → Prop
  | t :: ts, column :: columns => t.EveryColumn P column ∧ EveryColumns P ts columns
  | _, _ => True

end

theorem everyColumn_lowCardinality (P : ChType → List Value → Prop) (inner : ChType)
    (column : List Value) :
    (lowCardinality inner).EveryColumn P column ↔
      P (.lowCardinality inner) column ∧
        inner.stripNull.EveryColumn P (LowCardinality.keys inner.isNullable column) := by
  cases inner <;> simp [EveryColumn, stripNull, isNullable]

theorem EveryColumn.self {P : ChType → List Value → Prop} {t : ChType} {column : List Value}
    (h : t.EveryColumn P column) : P t column := by
  cases t with
  | lowCardinality inner => exact ((everyColumn_lowCardinality P inner column).mp h).1
  | nullable | array | tuple | map | ring | polygon | multiPolygon =>
      simp only [EveryColumn] at h
      exact h.1
  | _ => simpa only [EveryColumn] using h

/-! ## Storable columns -/

/-- Nulls stand only where the default that is written in their place can be read. -/
def NullsPlaced : ChType → List Value → Prop
  | .nullable inner, column => .null ∈ column → inner.hasPlaceholder = true
  -- The null is a key of every nullable dictionary.
  | .lowCardinality (.nullable inner), column => column ≠ [] → inner.hasPlaceholder = true
  | _, _ => True

/-- The columns that the codec stores faithfully. -/
structure Storable (t : ChType) (column : List Value) : Prop where
  /-- The reader refuses columns of more than `MAX_STRING_SIZE` rows. -/
  rows : column.length ≤ maxStringSize
  entries : ∀ v ∈ column, t.EntryFits v
  nulls : NullsPlaced t column

/-- The columns that the synchronous reader takes back: it has no dictionaries, tuples and
maps, and takes the last offset of an array column without looking for one. -/
def SyncReadable : ChType → List Value → Prop
  | .lowCardinality _, _ | .tuple _, _ | .map _ _, _ => False
  | .array _, column | .ring, column | .polygon, column | .multiPolygon, column => column ≠ []
  | _, _ => True

end ChType

/-- A value that the column of a type can hold: an accepted one, or a null in whose place
the default of the type is written. -/
def Held (t : ChType) (v : Value) : Prop :=
  v = .null ∧ t.hasPlaceholder = true ∨ t.innerValidateValue v = true

namespace ChType

theorem held_composite {t : ChType} {v : Value} (ht : t.isEntry = false) (h : Held t v) :
    t.innerValidateValue v = true := by
  obtain ⟨-, hplaceholder⟩ | h := h
  · cases t <;> simp_all [hasPlaceholder, isEntry, isComposite, isGeo]
  · exact h

theorem innerValidateValue_leaf {t : ChType} (ht : t.isComposite = false) (v : Value) :
    t.innerValidateValue v = t.accepts v := by
  cases t <;> first | rfl | simp [isComposite] at ht

/-- An empty column is no bytes. -/
theorem serializeColumn_nil (t : ChType) : t.serializeColumn [] = .ok [] := by
  induction t using ChType.inductionOn with
  | hleaf t hflat =>
      cases t with
      | nullable | lowCardinality | array | tuple | map => cases hflat
      | _ => rfl
  | hnullable inner ih => simp [serializeColumn, NullableSerializer.write, ih,
      NullableSerializer.mask]
  | hlowCardinality inner ih =>
      rw [serializeColumn_lowCardinality]
      rfl
  | harray inner ih => simp [serializeColumn, ArraySerializer.write, endOffsets, ih]
  | htuple items ih =>
      rw [serializeColumn, TupleSerializer.columns, Outcome.ok_bind]
      induction items with
      | nil => simp [serializeColumns]
      | cons t ts ihs =>
          have htail := ihs fun t' ht' => ih t' (List.mem_cons_of_mem t ht')
          rw [List.length_cons, List.replicate_succ, serializeColumns, ih t List.mem_cons_self,
            Outcome.ok_bind, htail]
          rfl
  | hmap key value ihkey ihvalue =>
      simp [serializeColumn, MapSerializer.write, endOffsets, ihkey, ihvalue]

/-! ## Columns without nested columns -/

theorem entryColumn_roundTrip {m : Mode} {t : ChType} {column : List Value} (ht : t.isEntry = true)
    (hheld : ∀ v ∈ column, v = .null ∧ t.hasPlaceholder = true ∨ t.accepts v = true)
    (hstorable : t.Storable column) :
    ColumnRoundTrip m (fun v => t.entryBack (v.justifyNullRef t)) t column := by
  have hentries : ∀ v ∈ column, EntryRoundTrip m t v := fun v hv =>
    entry_roundTrip m ht (hheld v hv) (hstorable.entries v hv)
  have hwritten : ∀ v ∈ column, t.writeEntry v =
      .ok ((t.writeEntry v).toOption.getD []) := by
    intro v hv
    obtain ⟨bytes, hwrite, -⟩ := hentries v hv
    rw [hwrite]
    rfl
  refine ⟨column.flatMap fun v => (t.writeEntry v).toOption.getD [], ?_, ?_⟩
  · rw [serializeColumn_entry ht, Outcome.emit_eq_ok_flatMap hwritten]
  · rw [readColumn_entry m ht, guardRows, if_neg (Nat.not_lt.mpr hstorable.rows)]
    refine Reads.readMany fun v hv => ?_
    obtain ⟨bytes, hwrite, hread⟩ := hentries v hv
    rw [hwrite]
    exact hread

/-- The values of a column that one constructor makes. -/
theorem exists_map_of_forall {α : Type} {c : α → Value} {column : List Value}
    (h : ∀ v ∈ column, ∃ a, v = c a) : ∃ as : List α, column = as.map c := by
  induction column with
  | nil => exact ⟨[], rfl⟩
  | cons v column ih =>
      obtain ⟨a, rfl⟩ := h v List.mem_cons_self
      obtain ⟨as, rfl⟩ := ih fun w hw => h w (List.mem_cons_of_mem _ hw)
      exact ⟨a :: as, rfl⟩

theorem flatten_parts {α : Type} (outer : List α → Value) (item : α → Value)
    (h : ∀ xs, (outer xs).parts = xs.map item) (xss : List (List α)) :
    (xss.map outer).flatMap Value.parts = xss.flatten.map item := by
  rw [List.flatMap_map, List.map_flatten, ← List.flatMap_def, funext h]

theorem ne_nil_of_map {α : Type} {c : α → Value} {as : List α} (h : as.map c ≠ []) : as ≠ [] := by
  simpa using h

theorem geoColumn_roundTrip {m : Mode} {t : ChType} {column : List Value} (ht : t.isGeo = true)
    (hheld : ∀ v ∈ column, t.accepts v = true) (hstorable : t.EveryColumn Storable column)
    (hmode : m = .async ∨ t.EveryColumn SyncReadable column) :
    ColumnRoundTrip m t.readBack t column := by
  have hrows := hstorable.self.rows
  -- The parts of a geo column are geo columns: rings of points, polygons of rings.
  have hring := flatten_parts Value.ring Value.point fun _ => rfl
  have hpolygon := flatten_parts Value.polygon Value.ring fun _ => rfl
  have hmultiPolygon :=
    flatten_parts Value.multiPolygon Value.polygon fun _ => rfl
  cases t with
  | point =>
      obtain ⟨ps, rfl⟩ : ∃ ps : List Point, column = ps.map .point :=
        exists_map_of_forall fun v hv => by
          have haccepts := hheld v hv
          cases v <;> simp [accepts] at haccepts
          exact ⟨_, rfl⟩
      obtain ⟨bytes, hwrite, hread⟩ := point_roundTrip m (by simpa using hrows)
      refine ⟨bytes, hwrite, ?_⟩
      rw [readColumn, guardRows_of_le hrows, List.length_map]
      simpa [Function.comp_def, readBack, entryBack, Value.justifyNullRef_of_ne] using hread
  | ring =>
      obtain ⟨rs, rfl⟩ : ∃ rs : List (List Point), column = rs.map .ring :=
        exists_map_of_forall fun v hv => by
          have haccepts := hheld v hv
          cases v <;> simp [accepts] at haccepts
          exact ⟨_, rfl⟩
      simp only [EveryColumn, hring] at hstorable hmode
      obtain ⟨bytes, hwrite, hread⟩ := ring_roundTrip
        (by simpa only [List.length_map] using hstorable.2.rows)
        (hmode.imp_right fun h => ne_nil_of_map h.1)
      refine ⟨bytes, hwrite, ?_⟩
      rw [readColumn, guardRows_of_le hrows, List.length_map]
      simpa [Function.comp_def, readBack, entryBack, Value.justifyNullRef_of_ne] using hread
  | polygon =>
      obtain ⟨ps, rfl⟩ : ∃ ps : List (List (List Point)), column = ps.map .polygon :=
        exists_map_of_forall fun v hv => by
          have haccepts := hheld v hv
          cases v <;> simp [accepts] at haccepts
          exact ⟨_, rfl⟩
      simp only [EveryColumn, hpolygon, hring] at hstorable hmode
      obtain ⟨-, hringColumn, hpointColumn⟩ := hstorable
      obtain ⟨bytes, hwrite, hread⟩ := polygon_roundTrip
        (by simpa only [List.length_map] using hringColumn.rows)
        (by simpa only [List.length_map] using hpointColumn.rows)
        (hmode.imp_right fun h => ⟨ne_nil_of_map h.1, ne_nil_of_map h.2.1⟩)
      refine ⟨bytes, hwrite, ?_⟩
      rw [readColumn, guardRows_of_le hrows, List.length_map]
      simpa [Function.comp_def, readBack, entryBack, Value.justifyNullRef_of_ne] using hread
  | multiPolygon =>
      obtain ⟨ps, rfl⟩ : ∃ ps : List (List (List (List Point))), column = ps.map .multiPolygon :=
        exists_map_of_forall fun v hv => by
          have haccepts := hheld v hv
          cases v <;> simp [accepts] at haccepts
          exact ⟨_, rfl⟩
      simp only [EveryColumn, hmultiPolygon, hpolygon, hring] at hstorable hmode
      obtain ⟨-, hpolygonColumn, hringColumn, hpointColumn⟩ := hstorable
      obtain ⟨bytes, hwrite, hread⟩ := multiPolygon_roundTrip
        (by simpa only [List.length_map] using hpolygonColumn.rows)
        (by simpa only [List.length_map] using hringColumn.rows)
        (by simpa only [List.length_map] using hpointColumn.rows)
        (hmode.imp_right fun h =>
          ⟨ne_nil_of_map h.1, ne_nil_of_map h.2.1, ne_nil_of_map h.2.2.1⟩)
      refine ⟨bytes, hwrite, ?_⟩
      rw [readColumn, guardRows_of_le hrows, List.length_map]
      simpa [Function.comp_def, readBack, entryBack, Value.justifyNullRef_of_ne] using hread
  | _ => simp [isGeo] at ht

/-! ## Dictionary columns -/

theorem isEntry_of_isLowCardinalityInner {t : ChType} (h : t.isLowCardinalityInner = true) :
    t.isEntry = true := by
  cases t <;> first | rfl | simp [isLowCardinalityInner] at h

theorem readBack_entry {t : ChType} (ht : t.isEntry = true) (v : Value) :
    t.readBack v = t.entryBack (v.justifyNullRef t) := by
  cases t <;> first | rfl | simp [isEntry, isComposite, isGeo] at ht

theorem plainList_of_bytes {items : List Value}
    (h : (items.all fun item => match item with | .uint8 _ | .int8 _ => true | _ => false) = true) :
    Value.isPlain.plainList items = true := by
  induction items with
  | nil => rfl
  | cons v items ih =>
      rw [List.all_cons, Bool.and_eq_true] at h
      rw [Value.isPlain.plainList, ih h.2]
      cases v <;> simp_all [Value.isPlain]

theorem isPlain_of_accepts {t : ChType} (ht : t.isLowCardinalityInner = true) {v : Value}
    (h : t.accepts v = true) : v.isPlain = true := by
  cases v with
  | array items =>
      cases t <;> simp only [accepts, Bool.false_eq_true] at h
      all_goals exact plainList_of_bytes h
  | tuple | map | point | ring | polygon | multiPolygon | object =>
      cases t <;> simp [accepts, isLowCardinalityInner] at h ht
  | _ => rfl

theorem ne_null_of_accepts {t : ChType} {v : Value} (h : t.accepts v = true) : v ≠ .null := by
  rintro rfl
  cases t <;> simp [accepts] at h

/-- The values of a dictionary column are nulls, where its inner type is nullable, and
values that the inner type accepts. -/
theorem lowCardinality_values {inner : ChType} (hinner : inner.stripNull.isLowCardinalityInner = true)
    {v : Value} (hv : inner.innerValidateValue v = true) :
    v = .null ∧ inner.isNullable = true ∨ inner.stripNull.accepts v = true := by
  have hflat : inner.stripNull.isComposite = false := by
    have hentry := isEntry_of_isLowCardinalityInner hinner
    simp only [isEntry, Bool.and_eq_true, Bool.not_eq_true'] at hentry
    exact hentry.1
  cases inner with
  | nullable x =>
      obtain rfl | haccepts := innerValidateValue_nullable hv
      · exact .inl ⟨rfl, rfl⟩
      · exact .inr (innerValidateValue_leaf hflat v ▸ haccepts)
  | _ => exact .inr (innerValidateValue_leaf hflat v ▸ hv)

theorem lowCardinalityColumn_roundTrip {inner : ChType} {column : List Value}
    (hvalid : (lowCardinality inner).validate = .ok ())
    (hheld : ∀ v ∈ column, inner.innerValidateValue v = true)
    (hstorable : (lowCardinality inner).EveryColumn Storable column) :
    ColumnRoundTrip .async (lowCardinality inner).readBack (lowCardinality inner) column := by
  have hinner := (validate_lowCardinality hvalid).1
  have hentry := isEntry_of_isLowCardinalityInner hinner
  have hvalues := fun v hv => lowCardinality_values hinner (hheld v hv)
  obtain ⟨hself, hkeysStorable⟩ := (everyColumn_lowCardinality Storable inner column).mp hstorable
  have hplain : ∀ v ∈ column, v.isPlain = true := by
    intro v hv
    obtain ⟨rfl, -⟩ | haccepts := hvalues v hv
    · rfl
    · exact isPlain_of_accepts hinner haccepts
  have hnull : .null ∈ column → inner.isNullable = true := by
    intro hmem
    obtain ⟨-, hnullable⟩ | haccepts := hvalues .null hmem
    · exact hnullable
    · exact absurd rfl (ne_null_of_accepts haccepts)
  by_cases hnil : column = []
  · subst hnil
    exact ⟨[], serializeColumn_nil _, by
      rw [readColumn_lowCardinality, guardRows_of_le (by decide)]
      exact fun rest => rfl⟩
  have hplaceholder : inner.isNullable = true → inner.stripNull.hasPlaceholder = true := by
    intro hnullable
    cases inner <;> simp [isNullable] at hnullable
    exact hself.nulls hnil
  -- The keys are the values and, in a nullable dictionary, the null.
  have hkeysHeld : ∀ k ∈ LowCardinality.keys inner.isNullable column,
      k = .null ∧ inner.stripNull.hasPlaceholder = true ∨ inner.stripNull.accepts k = true := by
    intro k hk
    rcases mem_insertKeys hk with hinitial | hmem
    · cases hnullable : inner.isNullable with
      | false => simp [hnullable] at hinitial
      | true => exact .inl ⟨by simpa [hnullable] using hinitial, hplaceholder hnullable⟩
    · obtain ⟨rfl, hnullable⟩ | haccepts := hvalues k hmem
      · exact .inl ⟨rfl, hplaceholder hnullable⟩
      · exact .inr haccepts
  obtain ⟨body, hwrite, hread⟩ := entryColumn_roundTrip (m := .async) hentry hkeysHeld hkeysStorable.self
  have hbound : maxStringSize < 2 ^ 64 := by decide
  obtain ⟨bytes, hwriteAll, hreadAll⟩ := lowCardinality_roundTrip hplain hnull hwrite hread
    (Nat.lt_of_le_of_lt hkeysStorable.self.rows hbound) (Nat.lt_of_le_of_lt hself.rows hbound)
  refine ⟨bytes, by rw [serializeColumn_lowCardinality, hwriteAll], ?_⟩
  rw [readColumn_lowCardinality, guardRows_of_le hself.rows]
  have hback : column.map (lowCardinality inner).readBack = column.map fun v =>
      if v.isNull then .null
      else inner.stripNull.entryBack (v.justifyNullRef inner.stripNull) := by
    refine List.map_congr_left fun v hv => ?_
    rw [readBack, ← readBack_entry hentry]
    obtain ⟨rfl, hnullable⟩ | haccepts := hvalues v hv
    · cases inner <;> simp [isNullable] at hnullable
      rfl
    · have hne := Value.isNull_eq_false (ne_null_of_accepts haccepts)
      cases inner <;> simp [readBack, stripNull, hne]
  rwa [hback]

/-! ## The induction -/

theorem held_columns {items : List ChType} {rows : List (List Value)}
    (hrows : ∀ row ∈ rows, items.length = row.length ∧
      innerValidateValue.validateZip items row = true) :
    List.Forall₂ (fun t column => ∀ v ∈ column, t.innerValidateValue v = true) items
      (columnsOf items.length rows) := by
  induction items generalizing rows with
  | nil => exact .nil
  | cons t ts ih =>
      rw [List.length_cons, columnsOf]
      have hsplit : ∀ row ∈ rows, ∃ x xs, row = x :: xs ∧ ts.length = xs.length ∧
          t.innerValidateValue x = true ∧ innerValidateValue.validateZip ts xs = true := by
        intro row hrow
        obtain ⟨hlen, hzip⟩ := hrows row hrow
        cases row with
        | nil => simp at hlen
        | cons x xs =>
            simp only [innerValidateValue.validateZip, Bool.and_eq_true] at hzip
            exact ⟨x, xs, rfl, by simpa using hlen, hzip.1, hzip.2⟩
      refine .cons ?_ (ih ?_)
      · intro v hv
        obtain ⟨row, hrow, rfl⟩ := List.mem_map.mp hv
        obtain ⟨x, xs, rfl, -, hx, -⟩ := hsplit row hrow
        exact hx
      · intro row' hrow'
        obtain ⟨row, hrow, rfl⟩ := List.mem_map.mp hrow'
        obtain ⟨x, xs, rfl, hlen, -, hzip⟩ := hsplit row hrow
        exact ⟨hlen, hzip⟩

/-- The columns of a tuple column, each by the induction hypothesis of its type. -/
theorem columns_roundTrip {items : List ChType} {columns : List (List Value)}
    (ih : ∀ t ∈ items, ∀ column, (∀ v ∈ column, Held t v) → t.EveryColumn Storable column →
      ColumnRoundTrip .async t.readBack t column)
    (hheld : List.Forall₂ (fun t column => ∀ v ∈ column, t.innerValidateValue v = true) items
      columns) (hstorable : EveryColumns Storable items columns) :
    List.Forall₂ (fun t column => ColumnRoundTrip .async t.readBack t column) items columns := by
  induction hheld with
  | nil => exact .nil
  | @cons t column ts columns hhead htail ihs =>
      rw [EveryColumns] at hstorable
      exact .cons (ih t List.mem_cons_self column (fun v hv => .inr (hhead v hv)) hstorable.1)
        (ihs (fun t' ht' => ih t' (List.mem_cons_of_mem t ht')) hstorable.2)

/-- A column of an accepted type that holds accepted values and is storable at every depth
is read back, by the synchronous reader where it can. -/
theorem column_roundTrip (m : Mode) (t : ChType) (hvalid : t.validate = .ok ())
    (column : List Value) (hheld : ∀ v ∈ column, Held t v)
    (hstorable : t.EveryColumn Storable column)
    (hmode : m = .async ∨ t.EveryColumn SyncReadable column) :
    ColumnRoundTrip m t.readBack t column := by
  have hrows := hstorable.self.rows
  have hbound : maxStringSize < 2 ^ 64 := by decide
  induction t using inductionOn generalizing column with
  | hleaf t hflat =>
      cases hgeo : t.isGeo with
      | true =>
          refine geoColumn_roundTrip hgeo (fun v hv => ?_) hstorable hmode
          rw [← innerValidateValue_leaf hflat]
          exact held_composite (by simp [isEntry, hgeo]) (hheld v hv)
      | false =>
          have hentry : t.isEntry = true := by simp [isEntry, hflat, hgeo]
          have hback : t.readBack = fun v => t.entryBack (v.justifyNullRef t) :=
            funext (readBack_entry hentry)
          rw [hback]
          refine entryColumn_roundTrip hentry (fun v hv => ?_) hstorable.self
          rw [← innerValidateValue_leaf hflat]
          exact hheld v hv
  | hnullable inner ih =>
      obtain ⟨hflat, hinner⟩ := validate_nullable hvalid
      obtain ⟨hself, hinnerStorable⟩ := hstorable
      -- Under the mask a null is written as the placeholder of the inner type.
      have hinnerHeld : ∀ v ∈ column, Held inner v := by
        intro v hv
        obtain rfl | haccepts := innerValidateValue_nullable (held_composite rfl (hheld v hv))
        · exact .inl ⟨rfl, hself.nulls hv⟩
        · exact .inr haccepts
      obtain ⟨body, hwrite, hread⟩ := ih hinner column hinnerHeld hinnerStorable
        (hmode.imp_right And.right) hrows
      obtain ⟨bytes, hwriteAll, hreadAll⟩ := nullable_roundTrip (m := m) hwrite hread
      refine ⟨bytes, by rw [serializeColumn, hwriteAll], ?_⟩
      rw [readColumn, guardRows_of_le hrows]
      exact hreadAll
  | hlowCardinality inner ih =>
      obtain rfl : m = .async := hmode.resolve_right fun h => h.self
      exact lowCardinalityColumn_roundTrip hvalid
        (fun v hv => by simpa only [innerValidateValue] using held_composite rfl (hheld v hv))
        hstorable
  | harray inner ih =>
      obtain ⟨hself, hitemsStorable⟩ := hstorable
      have harrays := fun v hv => innerValidateValue_array (held_composite rfl (hheld v hv))
      have hitems : ∀ x ∈ column.flatMap Value.parts, Held inner x := by
        intro x hx
        obtain ⟨v, hv, hxv⟩ := List.mem_flatMap.mp hx
        obtain ⟨items, rfl, hvalidItems⟩ := harrays v hv
        exact .inr (hvalidItems x hxv)
      obtain ⟨body, hwrite, hread⟩ := ih (validate_array hvalid) _ hitems hitemsStorable
        (hmode.imp_right And.right) hitemsStorable.self.rows
      have hvalues : ∀ v ∈ column, v.unwrapArray = .ok v.parts := by
        intro v hv
        obtain ⟨items, rfl, -⟩ := harrays v hv
        rfl
      -- The reader of no rows stops before the items, so nothing may stand there.
      have hempty : column = [] → body = [] := by
        rintro rfl
        simpa [serializeColumn_nil] using hwrite.symm
      have harray : ∃ bytes,
          ArraySerializer.write Value.unwrapArray inner.serializeColumn column = .ok bytes ∧
            Reads (ArrayDeserializer.read m (inner.readColumn m)
              (fun items => .ok (.array items)) column.length) bytes
              (column.map (array inner).readBack) :=
        array_roundTrip hvalues hwrite hempty hread (fun _ _ => rfl)
          (Nat.lt_of_le_of_lt hitemsStorable.self.rows hbound) (hmode.imp_right And.left)
      obtain ⟨bytes, hwriteAll, hreadAll⟩ := harray
      refine ⟨bytes, by rw [serializeColumn, hwriteAll], ?_⟩
      rw [readColumn, guardRows_of_le hrows]
      exact hreadAll
  | htuple items ih =>
      obtain rfl : m = .async := hmode.resolve_right fun h => h.self
      obtain ⟨hself, hcolumnsStorable⟩ := hstorable
      have htuples := fun v hv => innerValidateValue_tuple (held_composite rfl (hheld v hv))
      obtain ⟨rows, rfl⟩ : ∃ rows : List (List Value), column = rows.map .tuple :=
        exists_map_of_forall fun v hv => (htuples v hv).imp fun values h => h.1
      have hparts : (rows.map Value.tuple).map Value.parts = rows := by
        simp [Function.comp_def, Value.parts]
      have hrowsValid : ∀ row ∈ rows, items.length = row.length ∧
          innerValidateValue.validateZip items row = true := by
        intro row hrow
        obtain ⟨values, heq, hlen, hzip⟩ := htuples (.tuple row) (List.mem_map_of_mem hrow)
        obtain rfl : row = values := by simpa using heq
        exact ⟨hlen, hzip⟩
      rw [hparts] at hcolumnsStorable
      -- Each item is a column of its own, and the columns are read one behind the other.
      have hcolumns := columns_roundTrip
        (fun t ht column hheld hstorable => ih t ht (validate_tuple hvalid t ht) column hheld
          hstorable (.inl rfl) hstorable.self.rows) (held_columns hrowsValid) hcolumnsStorable
      obtain ⟨bytes, hwrite, hread⟩ := tupleColumns_roundTrip
        (fun row hrow => (hrowsValid row hrow).1.symm) hcolumns
        (List.replicate rows.length []) (by simp)
      refine ⟨bytes, ?_, ?_⟩
      · rw [serializeColumn, TupleSerializer.columns_map,
          pushAll_replicate fun row hrow => (hrowsValid row hrow).1.symm, Outcome.ok_bind, hwrite]
      · rw [readColumn, guardRows_of_le hrows, List.length_map]
        have hprepend := zipWith_replicate_nil_append
          (rows.map fun row => List.zipWith readBack items row)
        rw [List.length_map] at hprepend
        rw [hprepend] at hread
        refine hread.bind_nil ?_
        simpa [Function.comp_def, readBack, Value.parts, readBacks_eq_zipWith] using Reads.pure _
  | hmap key value ihkey ihvalue =>
      obtain rfl : m = .async := hmode.resolve_right fun h => h.self
      obtain ⟨hself, hkeysStorable, hvaluesStorable⟩ := hstorable
      have hmaps := fun v hv => innerValidateValue_map (held_composite rfl (hheld v hv))
      have hkeys : ∀ x ∈ column.flatMap Value.mapKeys, Held key x := by
        intro x hx
        obtain ⟨v, hv, hxv⟩ := List.mem_flatMap.mp hx
        obtain ⟨keys, values, rfl, -, hvalidKeys, -⟩ := hmaps v hv
        exact .inr (hvalidKeys x hxv)
      have hvalues : ∀ x ∈ column.flatMap Value.mapValues, Held value x := by
        intro x hx
        obtain ⟨v, hv, hxv⟩ := List.mem_flatMap.mp hx
        obtain ⟨keys, values, rfl, -, -, hvalidValues⟩ := hmaps v hv
        exact .inr (hvalidValues x hxv)
      obtain ⟨hkeyType, hvalueType⟩ := validate_map hvalid
      -- Keys and values are two columns behind one list of offsets.
      obtain ⟨keyBytes, hwriteKey, hreadKey⟩ := ihkey hkeyType _ hkeys hkeysStorable
        (.inl rfl) hkeysStorable.self.rows
      obtain ⟨valueBytes, hwriteValue, hreadValue⟩ := ihvalue hvalueType _ hvalues hvaluesStorable
        (.inl rfl) hvaluesStorable.self.rows
      obtain ⟨bytes, hwriteAll, hreadAll⟩ := map_roundTrip
        (fun v hv => by
          obtain ⟨keys, values, rfl, hlen, -, -⟩ := hmaps v hv
          exact ⟨keys, values, rfl, hlen⟩)
        hwriteKey hwriteValue
        (by rintro rfl; simpa [serializeColumn_nil] using hwriteKey.symm)
        (by rintro rfl; simpa [serializeColumn_nil] using hwriteValue.symm)
        hreadKey hreadValue hrows (Nat.lt_of_le_of_lt hkeysStorable.self.rows hbound)
      refine ⟨bytes, by rw [serializeColumn, hwriteAll], ?_⟩
      rw [readColumn, guardRows_of_le hrows]
      exact hreadAll

/-! ## Prefix and column -/

/-- The prefix of a type is read back in either mode. -/
theorem prefix_reads (m : Mode) (t : ChType) :
    Reads (t.deserializePrefix m) t.serializePrefix () := by
  induction t using inductionOn with
  | hleaf t hflat =>
      cases t with
      | nullable | lowCardinality | array | tuple | map => cases hflat
      | object => exact (Reads.getLe m.eof (1 : Int8)).bind_nil (Reads.pure ())
      | _ => exact Reads.pure ()
  | hnullable inner ih => simpa only [deserializePrefix, serializePrefix] using ih
  | hlowCardinality inner ih =>
      refine (getUsize_reads m (by decide)).bind_nil ?_
      rw [if_neg (by simp)]
      exact Reads.pure ()
  | harray inner ih => simpa only [deserializePrefix, serializePrefix] using ih
  | htuple items ih =>
      rw [deserializePrefix, serializePrefix]
      induction items with
      | nil => exact Reads.pure ()
      | cons t ts ihs =>
          exact (ih t List.mem_cons_self).bind
            (ihs fun t' ht' => ih t' (List.mem_cons_of_mem t ht'))
  | hmap key value ihkey ihvalue => exact ihkey.bind ihvalue

/-- **Round trip of a native column.**  For an accepted type and accepted values, storable
at every depth, prefix and column are written, and the readers take back exactly these
bytes, whatever follows, and return the values as they read back. -/
theorem prefixedColumn_roundTrip (t : ChType) (column : List Value)
    (htype : t.validate = .ok ()) (hvalues : ∀ v ∈ column, t.validateValue v = .ok ())
    (hstorable : t.EveryColumn Storable column) :
    ∃ bytes, t.serializeColumn column = .ok bytes ∧
      Reads (t.readPrefixedColumn column.length) (t.serializePrefix ++ bytes)
        (column.map t.readBack) := by
  have hheld : ∀ v ∈ column, Held t v := fun v hv =>
    .inr (validateValue_eq_ok.mp (hvalues v hv)).2
  obtain ⟨bytes, hwrite, hread⟩ := column_roundTrip .async t htype column hheld hstorable (.inl rfl)
  exact ⟨bytes, hwrite, (prefix_reads .async t).bind hread⟩

/-- A row of a dictionary of nullable strings, an array of optional integers and a string
of a fixed size, in two rows. -/
theorem prefixedColumn_roundTrip_sample :
    let t : ChType := .tuple [.lowCardinality (.nullable .string), .array (.nullable .int16),
      .fixedSizedString 3]
    let column : List Value := [
      .tuple [.string [104, 105], .array [.int16 7, .null], .string [97, 98]],
      .tuple [.null, .array [], .string [97, 0, 98]]]
    ∃ bytes, t.serializeColumn column = .ok bytes ∧
      Reads (t.readPrefixedColumn 2) (t.serializePrefix ++ bytes) [
        .tuple [.string [104, 105], .array [.int16 7, .null], .string [97, 98]],
        .tuple [.null, .array [], .string [97]]] := by
  intro t column
  have hkeys : LowCardinality.keys true [.string [104, 105], .null] =
      [.null, .string [104, 105]] := rfl
  have hstorable : t.EveryColumn Storable column := by
    refine ⟨⟨by decide, by simp [EntryFits], trivial⟩,
      ⟨⟨by decide, by simp [EntryFits], fun _ => rfl⟩, ⟨by decide, ?_, trivial⟩⟩,
      ⟨⟨by decide, by simp [EntryFits], trivial⟩, ⟨by decide, by simp [EntryFits], fun _ => rfl⟩,
        ⟨by decide, by simp [EntryFits], trivial⟩⟩,
      ⟨by decide, ?_, trivial⟩, trivial⟩
    · change ∀ v ∈ LowCardinality.keys true [.string [104, 105], .null], EntryFits .string v
      rw [hkeys]
      simp [EntryFits, Value.stringBytes, maxStringSize]
    · simp [column, Value.parts, EntryFits, Value.stringBytes, isizeMax]
  exact prefixedColumn_roundTrip t column rfl (by simp [t, column]; constructor <;> rfl) hstorable

/-- A full fixed-size string that holds a zero loses what follows it, and a shorter one is
not padded. -/
theorem fixedSizedString_not_same :
    let t : ChType := .fixedSizedString 3
    t.validate = .ok () ∧
      t.validateValue (.string [97, 0, 98]) = .ok () ∧ t.validateValue (.string [97, 98]) = .ok () ∧
      t.serializeColumn [.string [97, 0, 98], .string [97, 98]] = .ok [97, 0, 98, 97, 98, 0] ∧
      t.readPrefixedColumn 2 (t.serializePrefix ++ [97, 0, 98, 97, 98, 0]) =
        .ok ([.string [97], .string [97, 98]], []) ∧
      Value.string [97] ≠ .string [97, 0, 98] ∧ Value.string [97, 98] ≠ .string [97, 98, 0] :=
  ⟨rfl, rfl, rfl, rfl, rfl, by simp, by simp⟩

end ChType

end ClickhouseArrow
