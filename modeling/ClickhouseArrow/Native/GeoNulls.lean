import ClickhouseArrow.Native.RoundTrip

/-!
# Nulls of geo columns

A column of an accepted type that holds accepted values is written, unless a null stands in
a nullable geo column: the other serializers write the default in its place.  A null among
rings and larger shapes is refused with an error, and one among points is taken for
unreachable.  The first such null in the order of writing decides.
-/

namespace ClickhouseArrow

open Wire

/-- What keeps a column from being written. -/
inductive GeoNull
  /-- `Expected Value::Ring` and its like. -/
  | refused
  /-- The `unreachable!` of the points. -/
  | unreachable
  deriving DecidableEq, Repr

namespace ChType

/-- What a null among geo values of the type leads to. -/
def ofNull : ChType → Option GeoNull
  | .point => some .unreachable
  | .ring | .polygon | .multiPolygon => some .refused
  | _ => none

/-- The first null of a nullable geo column, in the order of writing. -/
def geoNull : ChType → List Value → Option GeoNull
  | .nullable inner, column => if column.any Value.isNull then inner.ofNull else none
  | .array inner, column => inner.geoNull (column.flatMap Value.parts)
  -- The types of keys have no geo types in them.
  | .map _ value, column => value.geoNull (column.flatMap Value.mapValues)
  | .tuple items, column => geoNulls items (columnsOf items.length (column.map Value.parts))
  | _, _ => none
where
  geoNulls : List ChType → List (List Value) → Option GeoNull
    | t :: ts, column :: columns => (t.geoNull column).or (geoNulls ts columns)
    | _, _ => none

theorem geoNulls_nil (items : List ChType) (h : ∀ t ∈ items, t.geoNull [] = none) (k : Nat) :
    geoNull.geoNulls items (List.replicate k []) = none := by
  induction items generalizing k with
  | nil => cases k <;> rfl
  | cons t ts ih =>
      cases k with
      | zero => rfl
      | succ k =>
          rw [List.replicate_succ, geoNull.geoNulls, h t List.mem_cons_self, Option.none_or]
          exact ih (fun u hu => h u (List.mem_cons_of_mem t hu)) k

theorem geoNull_nil (t : ChType) : t.geoNull [] = none := by
  induction t using inductionOn with
  | hleaf t hflat =>
      cases t with
      | nullable | array | tuple | map => cases hflat
      | _ => rfl
  | hnullable inner ih => rfl
  | hlowCardinality inner _ ih => rfl
  | harray inner ih => exact ih
  | htuple items ih =>
      rw [geoNull, List.map_nil, columnsOf_nil]
      exact geoNulls_nil items ih _
  | hmap key value _ ih => exact ih

end ChType

/-! ## How the writing of a column ends -/

/-- Bytes, unless there is a null among geo values. -/
inductive ColumnEnd : Option GeoNull → Result Bytes → Prop
  | written (bytes : Bytes) : ColumnEnd none (.ok bytes)
  | refused (e : Error) : ColumnEnd (some .refused) (.fail e)
  | unreachable (p : Panic) : ColumnEnd (some .unreachable) (.panic p)

namespace ColumnEnd

theorem bind {a b : Option GeoNull} {o : Result Bytes} {f : Bytes → Result Bytes}
    (ho : ColumnEnd a o) (hf : ∀ bytes, ColumnEnd b (f bytes)) : ColumnEnd (a.or b) (o >>= f) := by
  cases ho with
  | written bytes => exact hf bytes
  | refused e => exact .refused e
  | unreachable p => exact .unreachable p

theorem bind_written {a : Option GeoNull} {o : Result Bytes} (ho : ColumnEnd a o)
    (f : Bytes → Bytes) : ColumnEnd a (o >>= fun bytes => .ok (f bytes)) := by
  have h := ho.bind fun bytes => ColumnEnd.written (f bytes)
  rwa [Option.or_none] at h

theorem noPanic_iff {a : Option GeoNull} {o : Result Bytes} (h : ColumnEnd a o) :
    o.NoPanic ↔ a ≠ some .unreachable := by
  cases h with
  | written bytes => exact iff_of_true (Outcome.NoPanic.ok bytes) (by decide)
  | refused e => exact iff_of_true (Outcome.NoPanic.fail e) (by decide)
  | unreachable p => exact iff_of_false (fun h => h p rfl) (by decide)

end ColumnEnd

theorem emit_written (f : Value → Result Bytes) {column : List Value}
    (h : ∀ v ∈ column, ∃ bytes, f v = .ok bytes) : ColumnEnd none (Outcome.emit f column) := by
  have hwritten : ∀ v ∈ column, f v = .ok ((f v).toOption.getD []) := by
    intro v hv
    obtain ⟨bytes, hbytes⟩ := h v hv
    rw [hbytes]
    rfl
  rw [Outcome.emit_eq_ok_flatMap hwritten]
  exact .written _

namespace ChType

/-- An entry that its type accepts is written, and so is the default in a null's place. -/
theorem writeEntry_written {t : ChType} (ht : t.isEntry = true) {v : Value}
    (hv : v = .null ∨ t.accepts v = true) : ∃ bytes, t.writeEntry v = .ok bytes := by
  rcases hv with rfl | haccepts
  · cases t <;> first | exact ⟨_, rfl⟩ | cases ht
  · revert haccepts
    fun_cases accepts t v <;> intro haccepts
    all_goals first | exact ⟨_, rfl⟩ | cases ht | cases haccepts

theorem entries_written {t : ChType} (ht : t.isEntry = true) {column : List Value}
    (hcolumn : ∀ v ∈ column, v = .null ∨ t.accepts v = true) :
    ColumnEnd none (t.serializeColumn column) := by
  rw [serializeColumn_entry ht]
  exact emit_written _ fun v hv => writeEntry_written ht (hcolumn v hv)

end ChType

/-! ## Geo columns -/

theorem any_isNull_map {α : Type} {c : α → Value} (hc : ∀ a, (c a).isNull = false) (as : List α) :
    (as.map c).any Value.isNull = false := by
  rw [List.any_map, List.any_eq_false]
  intro a _
  simpa using hc a

theorem points_written (ps : List Point) : ColumnEnd none (PointSerializer.write (ps.map .point)) := by
  rw [PointSerializer.write, PointSerializer.columns_map, Outcome.ok_bind]
  have hfloats : ∀ f : Point → UInt64, ColumnEnd none
      (Outcome.emit (SizedSerializer.writeEntry .float64) (ps.map fun p => .float64 (f p))) := by
    intro f
    refine emit_written _ fun v hv => ?_
    obtain ⟨p, -, rfl⟩ := List.mem_map.mp hv
    exact ⟨_, rfl⟩
  exact (hfloats Point.x).bind fun first => (hfloats Point.y).bind_written fun second =>
    first ++ second

/-- The first value of the points that is none is taken for unreachable. -/
theorem points_end {column : List Value} (hcolumn : ∀ v ∈ column, v = .null ∨ ∃ p, v = .point p) :
    ColumnEnd (if column.any Value.isNull then some .unreachable else none)
      (PointSerializer.write column) := by
  have hsplit : column.any Value.isNull = true ∧ PointSerializer.columns column = .panic .unreachable ∨
      ∃ ps : List Point, column = ps.map .point := by
    induction column with
    | nil => exact .inr ⟨[], rfl⟩
    | cons v column ih =>
        rcases hcolumn v List.mem_cons_self with rfl | ⟨p, rfl⟩
        · exact .inl ⟨rfl, rfl⟩
        · rcases ih fun w hw => hcolumn w (List.mem_cons_of_mem _ hw) with ⟨hany, hrest⟩ | ⟨ps, rfl⟩
          · refine .inl ⟨by rw [List.any_cons, hany, Bool.or_true], ?_⟩
            rw [PointSerializer.columns, hrest]
            rfl
          · exact .inr ⟨p :: ps, rfl⟩
  rcases hsplit with ⟨hany, hcolumns⟩ | ⟨ps, rfl⟩
  · rw [hany, PointSerializer.write, hcolumns]
    exact .unreachable _
  · rw [any_isNull_map fun _ => rfl]
    exact points_written ps

/-- Shapes that are lists of smaller ones: the first null is refused. -/
theorem shapes_end {α : Type} {c : List α → Value} {item : α → Value} {e : Error}
    {values : Value → Result (List Value)} {inner : List Value → Result Bytes}
    (hvalues : ∀ as, values (c as) = .ok (as.map item)) (hnull : values .null = .fail e)
    (hc : ∀ as, (c as).isNull = false) (hinner : ∀ as : List α, ColumnEnd none (inner (as.map item)))
    {column : List Value} (hcolumn : ∀ v ∈ column, v = .null ∨ ∃ as, v = c as) :
    ColumnEnd (if column.any Value.isNull then some .refused else none)
      (ArraySerializer.write values inner column) := by
  have hsplit : column.any Value.isNull = true ∧ Outcome.traverse values column = .fail e ∨
      ∃ ass : List (List α), column = ass.map c := by
    induction column with
    | nil => exact .inr ⟨[], rfl⟩
    | cons v column ih =>
        rcases hcolumn v List.mem_cons_self with rfl | ⟨as, rfl⟩
        · refine .inl ⟨rfl, ?_⟩
          rw [Outcome.traverse, hnull]
          rfl
        · rcases ih fun w hw => hcolumn w (List.mem_cons_of_mem _ hw) with ⟨hany, hrest⟩ | ⟨ass, rfl⟩
          · refine .inl ⟨by rw [List.any_cons, hany, Bool.or_true], ?_⟩
            rw [Outcome.traverse, hvalues, hrest]
            rfl
          · exact .inr ⟨as :: ass, rfl⟩
  rcases hsplit with ⟨hany, htraverse⟩ | ⟨ass, rfl⟩
  · rw [hany, ArraySerializer.write, htraverse]
    exact .refused e
  · rw [any_isNull_map hc, ArraySerializer.write, Outcome.traverse_map,
      Outcome.traverse_eq_ok_map (g := fun as => as.map item) fun as _ => hvalues as, Outcome.ok_bind,
      ← List.map_flatten]
    exact (hinner ass.flatten).bind_written _

theorem shapes_written {α : Type} {c : List α → Value} {item : α → Value} {e : Error}
    {values : Value → Result (List Value)} {inner : List Value → Result Bytes}
    (hvalues : ∀ as, values (c as) = .ok (as.map item)) (hnull : values .null = .fail e)
    (hc : ∀ as, (c as).isNull = false) (hinner : ∀ as : List α, ColumnEnd none (inner (as.map item)))
    (ass : List (List α)) : ColumnEnd none (ArraySerializer.write values inner (ass.map c)) := by
  have hshapes : ∀ v ∈ ass.map c, v = .null ∨ ∃ as, v = c as := by
    intro v hv
    obtain ⟨as, -, rfl⟩ := List.mem_map.mp hv
    exact .inr ⟨as, rfl⟩
  have hend := shapes_end hvalues hnull hc hinner hshapes
  rwa [any_isNull_map hc] at hend

theorem rings_written (rs : List (List Point)) :
    ColumnEnd none (RingSerializer.write (rs.map .ring)) :=
  shapes_written (fun _ => rfl) rfl (fun _ => rfl) points_written rs

theorem polygons_written (ps : List (List (List Point))) :
    ColumnEnd none (PolygonSerializer.write (ps.map .polygon)) :=
  shapes_written (fun _ => rfl) rfl (fun _ => rfl) rings_written ps

namespace ChType

/-- A column of a nullable geo type, without its mask. -/
theorem geo_end {t : ChType} (ht : t.isGeo = true) {column : List Value}
    (hcolumn : ∀ v ∈ column, v = .null ∨ t.accepts v = true) :
    ColumnEnd (if column.any Value.isNull then t.ofNull else none) (t.serializeColumn column) := by
  cases t with
  | point =>
      have hpoints : ∀ v ∈ column, v = .null ∨ ∃ p, v = .point p := by
        intro v hv
        refine (hcolumn v hv).imp_right fun haccepts => ?_
        cases v <;> first | exact ⟨_, rfl⟩ | cases haccepts
      exact points_end hpoints
  | ring =>
      have hrings : ∀ v ∈ column, v = .null ∨ ∃ r, v = .ring r := by
        intro v hv
        refine (hcolumn v hv).imp_right fun haccepts => ?_
        cases v <;> first | exact ⟨_, rfl⟩ | cases haccepts
      exact shapes_end (fun _ => rfl) rfl (fun _ => rfl) points_written hrings
  | polygon =>
      have hpolygons : ∀ v ∈ column, v = .null ∨ ∃ p, v = .polygon p := by
        intro v hv
        refine (hcolumn v hv).imp_right fun haccepts => ?_
        cases v <;> first | exact ⟨_, rfl⟩ | cases haccepts
      exact shapes_end (fun _ => rfl) rfl (fun _ => rfl) rings_written hpolygons
  | multiPolygon =>
      have hmultiPolygons : ∀ v ∈ column, v = .null ∨ ∃ p, v = .multiPolygon p := by
        intro v hv
        refine (hcolumn v hv).imp_right fun haccepts => ?_
        cases v <;> first | exact ⟨_, rfl⟩ | cases haccepts
      exact shapes_end (fun _ => rfl) rfl (fun _ => rfl) polygons_written hmultiPolygons
  | _ => cases ht

/-! ## Any column -/

/-- Every value of a dictionary column is found among the keys. -/
theorem lowCardinality_written {inner : ChType} (hvalid : (lowCardinality inner).validate = .ok ())
    {column : List Value} (hcolumn : ∀ v ∈ column, inner.innerValidateValue v = true) :
    ColumnEnd none ((lowCardinality inner).serializeColumn column) := by
  have hinner := (validate_lowCardinality hvalid).1
  have hvalues := fun v hv => lowCardinality_values hinner (hcolumn v hv)
  rw [serializeColumn_lowCardinality, LowCardinalitySerializer.write]
  split_ifs with hempty
  · exact .written []
  have hplain : ∀ v ∈ column, v.isPlain = true := by
    intro v hv
    rcases hvalues v hv with ⟨rfl, -⟩ | haccepts
    · rfl
    · exact isPlain_of_accepts hinner haccepts
  have hkeys : ∀ k ∈ LowCardinality.keys inner.isNullable column,
      k = .null ∨ inner.stripNull.accepts k = true := by
    intro k hk
    rcases mem_insertKeys hk with hinitial | hmem
    · cases hnullable : inner.isNullable with
      | false => simp [hnullable] at hinitial
      | true => exact .inl (by simpa [hnullable] using hinitial)
    · exact (hvalues k hmem).imp_left And.left
  have hdictionary := entries_written (isEntry_of_isLowCardinalityInner hinner) hkeys
  have hindexes : ColumnEnd none (Outcome.emit (LowCardinalitySerializer.writeIndex
      (LowCardinality.keys inner.isNullable column)) column) := by
    refine emit_written _ fun v hv => ?_
    rw [LowCardinalitySerializer.writeIndex,
      (LowCardinality.position_spec inner.isNullable hplain hv).1]
    exact ⟨_, rfl⟩
  exact hdictionary.bind fun _ => hindexes.bind_written _

/-- The columns of a tuple, one after the other, each by the induction hypothesis of its type. -/
theorem columns_end {items : List ChType} {columns : List (List Value)}
    (hheld : List.Forall₂ (fun t column => ∀ v ∈ column, t.innerValidateValue v = true) items columns)
    (ih : ∀ t ∈ items, ∀ column, (∀ v ∈ column, t.innerValidateValue v = true) →
      ColumnEnd (t.geoNull column) (t.serializeColumn column)) :
    ColumnEnd (geoNull.geoNulls items columns) (serializeColumns items columns) := by
  induction hheld with
  | nil =>
      rw [serializeColumns]
      · exact .written []
      · intro t ts column columns h
        cases h
  | @cons t column ts columns hhead _ ihs =>
      rw [serializeColumns, geoNull.geoNulls]
      have hrest := ihs fun u hu => ih u (List.mem_cons_of_mem t hu)
      exact (ih t List.mem_cons_self column hhead).bind fun bytes =>
        hrest.bind_written fun rest => bytes ++ rest

theorem geoNull_of_isMapKey {t : ChType} (ht : t.isMapKey = true) (column : List Value) :
    t.geoNull column = none := by
  cases t <;> first | rfl | cases ht

theorem isMapKey_of_validate {key value : ChType} (h : (map key value).validate = .ok ()) :
    key.isMapKey = true := by
  rw [validate] at h
  split_ifs at h with hkey
  · exact hkey
  · cases h

/-- **How the writing of accepted values ends.** -/
theorem serializeColumn_end (t : ChType) (hvalid : t.validate = .ok ()) (column : List Value)
    (hcolumn : ∀ v ∈ column, t.innerValidateValue v = true) :
    ColumnEnd (t.geoNull column) (t.serializeColumn column) := by
  induction t using inductionOn generalizing column with
  | hleaf t hflat =>
      have haccepts : ∀ v ∈ column, t.accepts v = true := fun v hv =>
        innerValidateValue_leaf hflat v ▸ hcolumn v hv
      have hnone : t.geoNull column = none := by
        cases t <;> first | rfl | cases hflat
      rw [hnone]
      cases hgeo : t.isGeo with
      | true =>
          -- No accepted value of a geo type is null.
          have hnotNull : column.any Value.isNull = false := by
            rw [List.any_eq_false]
            intro v hv hnull
            exact ne_null_of_accepts (haccepts v hv) (Value.isNull_iff.mp hnull)
          have hend := geo_end hgeo fun v hv => .inr (haccepts v hv)
          rwa [hnotNull] at hend
      | false =>
          exact entries_written (by simp [isEntry, hflat, hgeo]) fun v hv => .inr (haccepts v hv)
  | hnullable inner ih =>
      obtain ⟨hflat, -⟩ := validate_nullable hvalid
      have hvalues : ∀ v ∈ column, v = .null ∨ inner.accepts v = true := by
        intro v hv
        rw [← innerValidateValue_leaf hflat]
        exact innerValidateValue_nullable (hcolumn v hv)
      -- Under a mask nulls are allowed, and a geo serializer does not know them.
      rw [geoNull, serializeColumn, NullableSerializer.write]
      apply ColumnEnd.bind_written
      cases hgeo : inner.isGeo with
      | true => exact geo_end hgeo hvalues
      | false =>
          have hnone : inner.ofNull = none := by
            cases inner <;> first | rfl | cases hgeo
          rw [hnone, ite_self]
          exact entries_written (by simp [isEntry, hflat, hgeo]) hvalues
  | hlowCardinality inner _ _ =>
      exact lowCardinality_written hvalid fun v hv => by
        simpa only [innerValidateValue] using hcolumn v hv
  | harray inner ih =>
      have harrays := fun v hv => innerValidateValue_array (hcolumn v hv)
      have hvalues : ∀ v ∈ column, v.unwrapArray = .ok v.parts := by
        intro v hv
        obtain ⟨items, rfl, -⟩ := harrays v hv
        rfl
      rw [geoNull, serializeColumn, ArraySerializer.write, Outcome.traverse_eq_ok_map hvalues,
        Outcome.ok_bind, ← List.flatMap_def]
      apply ColumnEnd.bind_written
      refine ih (validate_array hvalid) _ fun x hx => ?_
      obtain ⟨v, hv, hxv⟩ := List.mem_flatMap.mp hx
      obtain ⟨items, rfl, hitems⟩ := harrays v hv
      exact hitems x hxv
  | htuple items ih =>
      have htuples := fun v hv => innerValidateValue_tuple (hcolumn v hv)
      obtain ⟨rows, rfl⟩ : ∃ rows : List (List Value), column = rows.map .tuple :=
        exists_map_of_forall fun v hv => (htuples v hv).imp fun values h => h.1
      have hrows : ∀ row ∈ rows, items.length = row.length ∧
          innerValidateValue.validateZip items row = true := by
        intro row hrow
        obtain ⟨values, heq, hlen, hzip⟩ := htuples (.tuple row) (List.mem_map_of_mem hrow)
        obtain rfl : row = values := by simpa using heq
        exact ⟨hlen, hzip⟩
      -- The rows are turned into columns, each of which ends by induction.
      have hparts : (rows.map Value.tuple).map Value.parts = rows := by
        simp [Function.comp_def, Value.parts]
      rw [geoNull, serializeColumn, hparts, TupleSerializer.columns_map,
        pushAll_replicate fun row hrow => (hrows row hrow).1.symm, Outcome.ok_bind]
      exact columns_end (held_columns hrows) fun t ht column hcolumn =>
        ih t ht (validate_tuple hvalid t ht) column hcolumn
  | hmap key value ihkey ihvalue =>
      have hmaps := fun v hv => innerValidateValue_map (hcolumn v hv)
      obtain ⟨hkeyType, hvalueType⟩ := validate_map hvalid
      have hentries : ∀ v ∈ column, MapSerializer.entries v = .ok (v.mapKeys, v.mapValues) := by
        intro v hv
        obtain ⟨keys, values, rfl, hlen, -, -⟩ := hmaps v hv
        rw [MapSerializer.entries, if_pos hlen]
        rfl
      have hkeys := ihkey hkeyType (column.flatMap Value.mapKeys) fun x hx => by
        obtain ⟨v, hv, hxv⟩ := List.mem_flatMap.mp hx
        obtain ⟨keys, values, rfl, -, hvalidKeys, -⟩ := hmaps v hv
        exact hvalidKeys x hxv
      have hvalues := ihvalue hvalueType (column.flatMap Value.mapValues) fun x hx => by
        obtain ⟨v, hv, hxv⟩ := List.mem_flatMap.mp hx
        obtain ⟨keys, values, rfl, -, -, hvalidValues⟩ := hmaps v hv
        exact hvalidValues x hxv
      -- A key is no geo type, so the keys are always written.
      rw [geoNull_of_isMapKey (isMapKey_of_validate hvalid)] at hkeys
      rw [geoNull, serializeColumn, MapSerializer.write, Outcome.traverse_eq_ok_map hentries,
        Outcome.ok_bind, List.flatMap_map, List.flatMap_map]
      exact hkeys.bind fun _ => hvalues.bind_written _

end ChType

end ClickhouseArrow
