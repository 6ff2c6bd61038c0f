import ClickhouseArrow.Native.Entries

/-!
# Round trips of the containers

For every container layout, arrays, points, maps, tuples, nullable columns and
dictionaries, the writer followed by the reader gives the column back, provided that the
codec of the inner columns does.
-/

namespace ClickhouseArrow

open Wire

instance : Inhabited Value := ⟨.null⟩

/-! ## Arrays -/

theorem putUsize_offsets_reads (m : Mode) (offsets : List Nat) (h : ∀ o ∈ offsets, o < 2 ^ 64) :
    Reads (Reader.readMany (getUsize m) offsets.length) (offsets.flatMap putUsize) offsets := by
  have hread : Reads (Reader.readMany (getUsize m) offsets.length) (offsets.flatMap putUsize)
      (offsets.map id) := Reads.readMany fun o ho => getUsize_reads m (h o ho)
  rwa [List.map_id] at hread

/-- The end offsets of a column with fewer than `2 ^ 64` items in all. -/
theorem endOffsets_reads (m : Mode) (lens : List Nat) (h : lens.sum < 2 ^ 64) :
    Reads (Reader.readMany (getUsize m) lens.length) ((endOffsets 0 lens).flatMap putUsize)
      (endOffsets 0 lens) := by
  have hread := putUsize_offsets_reads m (endOffsets 0 lens) fun o ho =>
    Nat.lt_of_le_of_lt (by simpa using le_of_mem_endOffsets ho) h
  rwa [endOffsets_length] at hread

/-- The end offsets of the values of an array column. -/
def arrayOffsets (items : Value → List Value) (column : List Value) : List Nat :=
  endOffsets 0 ((column.map items).map List.length)

theorem arrayWrite_eq {values : Value → Result (List Value)} {items : Value → List Value}
    {inner : List Value → Result Bytes} {column : List Value} {body : Bytes}
    (hvalues : ∀ v ∈ column, values v = .ok (items v))
    (hwrite : inner (column.flatMap items) = .ok body) :
    ArraySerializer.write values inner column =
      .ok ((arrayOffsets items column).flatMap putUsize ++ body) := by
  rw [ArraySerializer.write, Outcome.traverse_eq_ok_map hvalues]
  simp only [Outcome.ok_bind, ← List.flatMap_def, hwrite]
  rfl

/-- The end offsets are read back, and the last one counts the items. -/
theorem arrayOffsets_reads (m : Mode) (items : Value → List Value) {column : List Value}
    (hne : column ≠ []) (hsize : (column.flatMap items).length < 2 ^ 64) :
    Reads (Reader.readMany (getUsize m) column.length)
        ((arrayOffsets items column).flatMap putUsize) (arrayOffsets items column) ∧
      (arrayOffsets items column).getLast? = some (column.flatMap items).length := by
  have hsum : ((column.map items).map List.length).sum = (column.flatMap items).length := by
    rw [List.length_flatMap, List.map_map]
    rfl
  have hoffsets := endOffsets_reads m ((column.map items).map List.length)
    (by rw [hsum]; exact hsize)
  simp only [List.length_map] at hoffsets
  have hlast := endOffsets_getLast? 0 ((column.map items).map List.length)
  rw [if_neg (by simpa using hne), hsum, Nat.zero_add] at hlast
  exact ⟨hoffsets, hlast⟩

/-- An array column: `values` takes a value apart, `innerValue` puts it together again, and
the items are a column of `inner`. -/
theorem array_roundTrip {m : Mode} {values : Value → Result (List Value)}
    {items : Value → List Value} {inner : List Value → Result Bytes}
    {readInner : Nat → Reader Error (List Value)} {innerValue : List Value → Result Value}
    {back itemBack : Value → Value} {column : List Value} {body : Bytes}
    (hvalues : ∀ v ∈ column, values v = .ok (items v))
    (hwrite : inner (column.flatMap items) = .ok body)
    (hempty : column = [] → body = [])
    (hread : Reads (readInner (column.flatMap items).length) body
      ((column.flatMap items).map itemBack))
    (hback : ∀ v ∈ column, innerValue ((items v).map itemBack) = .ok (back v))
    (hsize : (column.flatMap items).length < 2 ^ 64)
    (hmode : m = .async ∨ column ≠ []) :
    ∃ bytes, ArraySerializer.write values inner column = .ok bytes ∧
      Reads (ArrayDeserializer.read m readInner innerValue column.length) bytes
        (column.map back) := by
  refine ⟨_, arrayWrite_eq hvalues hwrite, ?_⟩
  by_cases hnil : column = []
  · subst hnil
    have hmode : m = .async := by simpa using hmode
    rw [hempty rfl, ArrayDeserializer.read, if_pos ⟨hmode, rfl⟩]
    exact Reads.pure []
  · rw [ArrayDeserializer.read, if_neg (by simp [hnil])]
    obtain ⟨hoffsets, hlast⟩ := arrayOffsets_reads m items hnil hsize
    refine hoffsets.bind ?_
    rw [hlast]
    refine hread.bind_nil (Reads.ofOutcome ?_)
    -- The parts that are cut out are the items as they read back.
    have hcut := cutAt_endOffsets (fun v => (items v).map itemBack) hback 0
    simpa [arrayOffsets, List.map_flatMap, Function.comp_def] using hcut

/-! ## Points -/

namespace PointDeserializer

theorem store_x (ps : List Point) :
    store (fun p bits => { p with x := bits }) (List.replicate ps.length ⟨0, 0⟩)
      (ps.map fun p => .float64 p.x) = .ok (ps.map fun p => ⟨p.x, 0⟩) := by
  induction ps with
  | nil => rfl
  | cons p ps ih => simp [List.replicate_succ, store, ih]

theorem store_y (ps : List Point) :
    store (fun p bits => { p with y := bits }) (ps.map fun p => ⟨p.x, 0⟩)
      (ps.map fun p => .float64 p.y) = .ok ps := by
  induction ps with
  | nil => rfl
  | cons p ps ih => simp [store, ih]

end PointDeserializer

theorem PointSerializer.columns_map (ps : List Point) :
    PointSerializer.columns (ps.map .point) =
      .ok (ps.map fun p => .float64 p.x, ps.map fun p => .float64 p.y) := by
  induction ps with
  | nil => rfl
  | cons p ps ih => simp [PointSerializer.columns, ih]

/-- A column of doubles is their bit patterns, one after the other. -/
theorem float64_column (m : Mode) (bits : List UInt64) (hrows : bits.length ≤ maxStringSize) :
    Outcome.emit (SizedSerializer.writeEntry .float64) (bits.map .float64) =
        .ok (bits.flatMap putLe) ∧
      Reads (guardRows bits.length
          (Reader.readMany (SizedDeserializer.readEntry m .float64) bits.length))
        (bits.flatMap putLe) (bits.map .float64) := by
  constructor
  · rw [Outcome.emit_map]
    exact Outcome.emit_eq_ok_flatMap fun b _ => rfl
  · rw [guardRows, if_neg (Nat.not_lt.mpr hrows)]
    exact Reads.readMany fun b _ => (Reads.getLe m.eof b).map _

theorem point_roundTrip (m : Mode) {ps : List Point} (hrows : ps.length ≤ maxStringSize) :
    ∃ bytes, PointSerializer.write (ps.map .point) = .ok bytes ∧
      Reads (PointDeserializer.read m ps.length) bytes (ps.map .point) := by
  obtain ⟨hwriteX, hreadX⟩ := float64_column m (ps.map Point.x) (by simpa using hrows)
  obtain ⟨hwriteY, hreadY⟩ := float64_column m (ps.map Point.y) (by simpa using hrows)
  simp only [List.map_map, Function.comp_def, List.length_map] at hwriteX hreadX hwriteY hreadY
  refine ⟨(ps.map Point.x).flatMap putLe ++ (ps.map Point.y).flatMap putLe, ?_, ?_⟩
  · rw [PointSerializer.write, PointSerializer.columns_map]
    simp only [Outcome.ok_bind, hwriteX, hwriteY]
  · refine hreadX.bind ?_
    refine Reads.bind (s := []) (Reads.ofOutcome (PointDeserializer.store_x ps)) ?_
    refine hreadY.bind_nil ?_
    refine Reads.bind_nil (Reads.ofOutcome (PointDeserializer.store_y ps)) ?_
    exact Reads.pure _

/-- A column of shapes, each a list of smaller shapes: `outer` and `item` are the
constructors of the two, `values` and `unwrap` their inverses. -/
theorem shape_roundTrip {m : Mode} {α : Type} {outer : List α → Value} {item : α → Value}
    {values : Value → Result (List Value)} {unwrap : Value → Result α}
    {inner : List Value → Result Bytes} {readInner : Nat → Reader Error (List Value)}
    {xss : List (List α)} (hvalues : ∀ xs, values (outer xs) = .ok (xs.map item))
    (hunwrap : ∀ a, unwrap (item a) = .ok a) (hempty : inner [] = .ok [])
    (hrows : xss.flatten.length ≤ maxStringSize)
    (hinner : ∃ body, inner (xss.flatten.map item) = .ok body ∧
      Reads (readInner xss.flatten.length) body (xss.flatten.map item))
    (hmode : m = .async ∨ xss ≠ []) :
    ∃ bytes, ArraySerializer.write values inner (xss.map outer) = .ok bytes ∧
      Reads (ArrayDeserializer.read m readInner
        (fun items => outer <$> Outcome.traverse unwrap items) xss.length) bytes
        (xss.map outer) := by
  obtain ⟨body, hwrite, hread⟩ := hinner
  -- The parts of a shape, as the writer takes it apart.
  let parts : Value → List Value := fun v => match values v with | .ok items => items | .error _ => []
  have hparts : ∀ xs, parts (outer xs) = xs.map item := fun xs => by simp [parts, hvalues]
  have hflat : (xss.map outer).flatMap parts = xss.flatten.map item := by
    rw [List.flatMap_map, List.map_flatten]
    simp only [hparts, List.flatMap_def]
  have htraverse : ∀ xs : List α, Outcome.traverse unwrap (xs.map item) = .ok xs := by
    intro xs
    rw [Outcome.traverse_map]
    simpa using Outcome.traverse_eq_ok_map (g := id) fun a (_ : a ∈ xs) => hunwrap a
  have hvalues' : ∀ v ∈ xss.map outer, values v = .ok (parts v) := by simp [hvalues, hparts]
  have hempty' : xss.map outer = [] → body = [] := by
    intro hnil
    have hxss : xss = [] := by simpa using hnil
    subst hxss
    simpa [hempty] using hwrite.symm
  have hread' : Reads (readInner ((xss.map outer).flatMap parts).length) body
      (((xss.map outer).flatMap parts).map id) := by
    rwa [hflat, List.length_map, List.map_id]
  have hback : ∀ v ∈ xss.map outer,
      outer <$> Outcome.traverse unwrap ((parts v).map id) = (.ok (id v) : Result Value) := by
    intro v hv
    obtain ⟨xs, -, rfl⟩ := List.mem_map.mp hv
    rw [List.map_id, hparts, htraverse]
    rfl
  have hsize : ((xss.map outer).flatMap parts).length < 2 ^ 64 := by
    rw [hflat, List.length_map]
    exact Nat.lt_of_le_of_lt hrows (by decide)
  have harray : ∃ bytes, ArraySerializer.write values inner (xss.map outer) = .ok bytes ∧
      Reads (ArrayDeserializer.read m readInner
        (fun items => outer <$> Outcome.traverse unwrap items) (xss.map outer).length) bytes
        ((xss.map outer).map id) :=
    array_roundTrip hvalues' (by rw [hflat, hwrite]) hempty' hread' hback hsize
      (hmode.imp_right fun hne => by simpa using hne)
  simpa using harray

theorem guardRows_of_le {rows : Nat} (h : rows ≤ maxStringSize)
    (column : Reader Error (List Value)) : guardRows rows column = column :=
  if_neg (Nat.not_lt.mpr h)

theorem ring_roundTrip {m : Mode} {rs : List (List Point)}
    (hpoints : rs.flatten.length ≤ maxStringSize) (hmode : m = .async ∨ rs ≠ []) :
    ∃ bytes, RingSerializer.write (rs.map .ring) = .ok bytes ∧
      Reads (RingDeserializer.read m rs.length) bytes (rs.map .ring) := by
  refine shape_roundTrip (fun _ => rfl) (fun _ => rfl) rfl hpoints ?_ hmode
  simpa only [guardRows_of_le hpoints] using point_roundTrip m hpoints

theorem polygon_roundTrip {m : Mode} {ps : List (List (List Point))}
    (hrings : ps.flatten.length ≤ maxStringSize)
    (hpoints : ps.flatten.flatten.length ≤ maxStringSize)
    (hmode : m = .async ∨ ps ≠ [] ∧ ps.flatten ≠ []) :
    ∃ bytes, PolygonSerializer.write (ps.map .polygon) = .ok bytes ∧
      Reads (PolygonDeserializer.read m ps.length) bytes (ps.map .polygon) := by
  refine shape_roundTrip (fun _ => rfl) (fun _ => rfl) rfl hrings ?_ (hmode.imp_right And.left)
  simpa only [guardRows_of_le hrings] using ring_roundTrip hpoints (hmode.imp_right And.right)

theorem multiPolygon_roundTrip {m : Mode} {ps : List (List (List (List Point)))}
    (hpolygons : ps.flatten.length ≤ maxStringSize)
    (hrings : ps.flatten.flatten.length ≤ maxStringSize)
    (hpoints : ps.flatten.flatten.flatten.length ≤ maxStringSize)
    (hmode : m = .async ∨ ps ≠ [] ∧ ps.flatten ≠ [] ∧ ps.flatten.flatten ≠ []) :
    ∃ bytes, MultiPolygonSerializer.write (ps.map .multiPolygon) = .ok bytes ∧
      Reads (MultiPolygonDeserializer.read m ps.length) bytes (ps.map .multiPolygon) := by
  refine shape_roundTrip (fun _ => rfl) (fun _ => rfl) rfl hpolygons ?_ (hmode.imp_right And.left)
  simpa only [guardRows_of_le hpolygons] using
    polygon_roundTrip hrings hpoints (hmode.imp_right And.right)

/-! ## Nullable columns -/

/-- The mask of a column marks exactly its nulls. -/
theorem applyMask_mask (back : Value → Value) (column : List Value) :
    NullableDeserializer.applyMask (NullableSerializer.mask column) (column.map back) =
      .ok (column.map fun v => if v.isNull then .null else back v) := by
  induction column with
  | nil => rfl
  | cons v column ih =>
      rw [NullableSerializer.mask] at ih
      cases hnull : v.isNull <;>
        simp [NullableSerializer.mask, NullableDeserializer.applyMask, hnull, ih]

theorem nullable_roundTrip {m : Mode} {inner : List Value → Result Bytes}
    {readInner : Nat → Reader Error (List Value)} {back : Value → Value} {column : List Value}
    {body : Bytes} (hwrite : inner column = .ok body)
    (hread : Reads (readInner column.length) body (column.map back)) :
    ∃ bytes, NullableSerializer.write inner column = .ok bytes ∧
      Reads (NullableDeserializer.read m readInner column.length) bytes
        (column.map fun v => if v.isNull then .null else back v) := by
  refine ⟨NullableSerializer.mask column ++ body, by rw [NullableSerializer.write, hwrite]; rfl, ?_⟩
  have hmask := Reads.takeExact m.eof (NullableSerializer.mask column)
  rw [NullableSerializer.mask, List.length_map] at hmask
  refine hmask.bind (hread.bind_nil (Reads.ofOutcome ?_))
  exact applyMask_mask back column

/-! ## Maps -/

/-- The keys and the values of a map. -/
def Value.mapKeys : Value → List Value
  | .map keys _ => keys
  | _ => []

def Value.mapValues : Value → List Value
  | .map _ values => values
  | _ => []

/-- A map column: the keys are a column of `key`, the values a column of `value`. -/
theorem map_roundTrip {key value : List Value → Result Bytes}
    {readKey readValue : Nat → Reader Error (List Value)} {keyBack valueBack : Value → Value}
    {column : List Value} {keyBytes valueBytes : Bytes}
    (hmaps : ∀ v ∈ column, ∃ keys values, v = .map keys values ∧ keys.length = values.length)
    (hwriteKey : key (column.flatMap Value.mapKeys) = .ok keyBytes)
    (hwriteValue : value (column.flatMap Value.mapValues) = .ok valueBytes)
    (hemptyKey : column = [] → keyBytes = []) (hemptyValue : column = [] → valueBytes = [])
    (hreadKey : Reads (readKey (column.flatMap Value.mapKeys).length) keyBytes
      ((column.flatMap Value.mapKeys).map keyBack))
    (hreadValue : Reads (readValue (column.flatMap Value.mapValues).length) valueBytes
      ((column.flatMap Value.mapValues).map valueBack))
    (hrows : column.length ≤ maxStringSize)
    (hsize : (column.flatMap Value.mapKeys).length < 2 ^ 64) :
    ∃ bytes, MapSerializer.write key value column = .ok bytes ∧
      Reads (MapDeserializer.read .async readKey readValue column.length) bytes
        (column.map fun v => .map (v.mapKeys.map keyBack) (v.mapValues.map valueBack)) := by
  have hlengths : ∀ v ∈ column, v.mapKeys.length = v.mapValues.length := by
    intro v hv
    obtain ⟨keys, values, rfl, hlen⟩ := hmaps v hv
    exact hlen
  have hentries : Outcome.traverse MapSerializer.entries column =
      .ok (column.map fun v => (v.mapKeys, v.mapValues)) := by
    refine Outcome.traverse_eq_ok_map fun v hv => ?_
    obtain ⟨keys, values, rfl, hlen⟩ := hmaps v hv
    rw [MapSerializer.entries, if_pos hlen]
    rfl
  refine ⟨(endOffsets 0 (column.map fun v => v.mapKeys.length)).flatMap putUsize
    ++ keyBytes ++ valueBytes, ?_, ?_⟩
  · rw [MapSerializer.write, hentries]
    simp only [Outcome.ok_bind, List.flatMap_map, hwriteKey, hwriteValue, List.map_map,
      Function.comp_def]
  · rw [MapDeserializer.read, if_neg (Nat.not_lt.mpr hrows)]
    by_cases hnil : column = []
    · subst hnil
      rw [hemptyKey rfl, hemptyValue rfl]
      exact Reads.pure []
    · rw [if_neg (by simpa using hnil)]
      have hsum : (column.map fun v => v.mapKeys.length).sum =
          (column.flatMap Value.mapKeys).length := by
        rw [List.length_flatMap]
      have hsumValues : (column.flatMap Value.mapValues).length =
          (column.flatMap Value.mapKeys).length := by
        rw [List.length_flatMap, List.length_flatMap, List.map_congr_left hlengths]
      have hoffsets := endOffsets_reads .async (column.map fun v => v.mapKeys.length)
        (by rw [hsum]; exact hsize)
      rw [List.length_map] at hoffsets
      rw [List.append_assoc]
      refine hoffsets.bind ?_
      have hlast := endOffsets_getLast? 0 (column.map fun v => v.mapKeys.length)
      rw [if_neg (by simpa using hnil), hsum, Nat.zero_add] at hlast
      rw [hlast]
      refine hreadKey.bind ?_
      rw [if_neg (by simp)]
      rw [hsumValues] at hreadValue
      refine hreadValue.bind_nil ?_
      rw [if_neg (by simpa using hsumValues)]
      refine Reads.ofOutcome ?_
      -- Keys and values are cut at the same offsets.
      have hcut := cutPairsAt_endOffsets (ε := Error)
        (column.map fun v => (v.mapKeys.map keyBack, v.mapValues.map valueBack))
        (by simpa using hlengths) 0
      simp only [List.map_map, Function.comp_def, List.length_map, List.flatMap_map] at hcut
      rw [List.map_flatMap, List.map_flatMap, hcut]
      simp [Functor.map, Except.map]

/-! ## Tuples -/

theorem TupleSerializer.columns_map (cols rows : List (List Value)) :
    TupleSerializer.columns cols (rows.map .tuple) = pushAll cols rows := by
  induction rows generalizing cols with
  | nil => rfl
  | cons row rows ih =>
      simp only [List.map_cons, TupleSerializer.columns, Value.unwrapTuple, Outcome.ok_bind, pushAll]
      cases hpush : (pushEach cols row : Result (List (List Value))) with
      | ok cols' => simpa using ih cols'
      | error e => rfl

/-- A column of the type, written and read back as `back` of its values. -/
def ColumnRoundTrip (m : Mode) (back : Value → Value) (t : ChType) (column : List Value) : Prop :=
  ∃ bytes, t.serializeColumn column = .ok bytes ∧
    Reads (t.readColumn m column.length) bytes (column.map back)

/-- The columns of a tuple column, written one after the other, are read back onto the
tuples that were read so far. -/
theorem tupleColumns_roundTrip {back : ChType → Value → Value} {items : List ChType}
    {rows : List (List Value)} (hrows : ∀ row ∈ rows, row.length = items.length)
    (hcolumns : List.Forall₂ (fun t column => ColumnRoundTrip .async (back t) t column) items
      (columnsOf items.length rows)) (tuples : List (List Value))
    (htuples : tuples.length = rows.length) :
    ∃ bytes, ChType.serializeColumns items (columnsOf items.length rows) = .ok bytes ∧
      Reads (ChType.readTuples .async items rows.length tuples) bytes
        (List.zipWith (· ++ ·) tuples (rows.map fun row => List.zipWith back items row)) := by
  induction items generalizing rows tuples with
  | nil =>
      refine ⟨[], by simp [ChType.serializeColumns], ?_⟩
      have hempty : (rows.map fun row => List.zipWith back [] row) =
          List.replicate tuples.length [] := by
        simp [htuples]
      rw [ChType.readTuples, hempty, zipWith_append_replicate_nil]
      exact Reads.pure tuples
  | cons t ts ih =>
      rw [List.length_cons, columnsOf] at hcolumns ⊢
      obtain ⟨⟨bytes, hwrite, hread⟩, htail⟩ := List.forall₂_cons.mp hcolumns
      rw [List.length_map] at hread
      have hrowsTail : ∀ row ∈ rows.map List.tail, row.length = ts.length := by
        intro row hrow
        obtain ⟨row', hrow', rfl⟩ := List.mem_map.mp hrow
        simp [hrows row' hrow']
      have hpush : (pushEach tuples ((rows.map List.headI).map (back t)) :
          Result (List (List Value))) =
            .ok (List.zipWith (fun l x => l ++ [x]) tuples ((rows.map List.headI).map (back t))) :=
        pushEach_of_length_eq (by simpa using htuples)
      obtain ⟨restBytes, hwriteRest, hreadRest⟩ := ih hrowsTail htail
        (List.zipWith (fun l x => l ++ [x]) tuples ((rows.map List.headI).map (back t)))
        (by simp [htuples])
      refine ⟨bytes ++ restBytes, ?_, ?_⟩
      · rw [ChType.serializeColumns, hwrite, Outcome.ok_bind, hwriteRest]
        rfl
      · rw [ChType.readTuples]
        refine hread.bind (Reads.bind (s := []) (Reads.ofOutcome hpush) ?_)
        rw [List.length_map, zipWith_append_snoc] at hreadRest
        -- Every row is its head and its tail.
        have hcons : List.zipWith List.cons ((rows.map List.headI).map (back t))
            ((rows.map List.tail).map fun row => List.zipWith back ts row) =
              rows.map fun row => List.zipWith back (t :: ts) row := by
          rw [List.map_map, List.map_map, List.zipWith_map, List.zipWith_self]
          refine List.map_congr_left fun row hrow => ?_
          cases row with
          | nil => simpa using hrows [] hrow
          | cons x xs => rfl
        rwa [hcons] at hreadRest

/-! ## Dictionaries -/

namespace LowCardinality

theorem IndexType.ofCode_code (i : IndexType) : IndexType.ofCode i.code = some i := by
  cases i <;> rfl

/-- The flag word of a block with additional keys: what the reader takes from it. -/
theorem flags_spec (i : IndexType) :
    i.code ||| hasAdditionalKeysBit < 2 ^ 64 ∧
      (i.code ||| hasAdditionalKeysBit) &&& hasAdditionalKeysBit ≠ 0 ∧
      (i.code ||| hasAdditionalKeysBit) &&& needGlobalDictionaryBit = 0 ∧
      (i.code ||| hasAdditionalKeysBit) &&& 255 = i.code := by
  cases i <;> decide

/-- An index into a dictionary fits the index type chosen for the size of the
dictionary. -/
theorem IndexType.get_reads (m : Mode) {n i : Nat} (hi : i < n) (hn : n < 2 ^ 64) :
    Reads ((IndexType.ofKeyCount n).get m) ((IndexType.ofKeyCount n).put i) i := by
  unfold IndexType.ofKeyCount
  split
  · have h := (Reads.getLe m.eof (UInt64.ofNat i)).map UInt64.toNat
    rwa [UInt64.toNat_ofNat', Nat.mod_eq_of_lt (by omega)] at h
  split
  · have h := (Reads.getLe m.eof (UInt32.ofNat i)).map UInt32.toNat
    rwa [UInt32.toNat_ofNat', Nat.mod_eq_of_lt (by omega)] at h
  split
  · have h := (Reads.getLe m.eof (UInt16.ofNat i)).map UInt16.toNat
    rwa [UInt16.toNat_ofNat', Nat.mod_eq_of_lt (by omega)] at h
  · have h := (Reads.getLe m.eof (UInt8.ofNat i)).map UInt8.toNat
    rwa [UInt8.toNat_ofNat', Nat.mod_eq_of_lt (by omega)] at h

theorem decidesEq_sameKey {column : List Value} (hplain : ∀ v ∈ column, v.isPlain = true) :
    DecidesEq Value.sameKey column :=
  fun v hv _ => Value.sameKey_iff (hplain v hv)

/-- The position of a value in the dictionary of its column. -/
def position (isNullable : Bool) (column : List Value) (v : Value) : Nat :=
  (indexOfKey Value.sameKey (keys isNullable column) v).getD 0

theorem position_spec (isNullable : Bool) {column : List Value}
    (hplain : ∀ v ∈ column, v.isPlain = true) {v : Value} (hv : v ∈ column) :
    indexOfKey Value.sameKey (keys isNullable column) v = some (position isNullable column v) ∧
      (keys isNullable column)[position isNullable column v]? = some v := by
  obtain ⟨i, hi, hkey⟩ := indexOfKey_insertKeys (decidesEq_sameKey hplain)
    (if isNullable then [.null] else []) hv
  have hposition : position isNullable column v = i := by
    rw [position, keys, hi]
    rfl
  rw [hposition]
  exact ⟨hi, hkey⟩

/-- In a nullable dictionary the null is the key at position zero, and no other value is. -/
theorem position_eq_zero_iff {column : List Value} (hplain : ∀ v ∈ column, v.isPlain = true)
    {v : Value} (hv : v ∈ column) : position true column v = 0 ↔ v = .null := by
  obtain ⟨tail, htail⟩ : [Value.null] <+: keys true column := prefix_insertKeys _ _
  constructor
  · intro hzero
    have hkey := (position_spec true hplain hv).2
    rw [hzero, ← htail] at hkey
    simpa using hkey.symm
  · rintro rfl
    rw [position, ← htail, indexOfKey]
    simp [List.findIdx?_cons, Value.sameKey, Value.eq]

end LowCardinality

namespace LowCardinalityDeserializer

open LowCardinality

/-- The state after the head of a block with the given dictionary. -/
def State.afterHeader (rows : Nat) (i : IndexType) (dictionary : List Value) : State where
  numPendingRows := rows
  limit := rows
  indexedType := i
  globalDictionary := none
  additionalKeys := some dictionary
  needsGlobalDictionary := false
  hasAdditionalKeys := true
  output := []

theorem readHeader_reads {readInner : Nat → Reader Error (List Value)} {i : IndexType}
    {count rows : Nat} {body : Bytes} {dictionary : List Value}
    (hread : Reads (readInner count) body dictionary) (hcount : count < 2 ^ 64)
    (hrows : rows < 2 ^ 64) :
    Reads (readHeader readInner (State.init rows))
      (putUsize (i.code ||| hasAdditionalKeysBit) ++ (putUsize count ++ body ++ putUsize rows))
      (State.afterHeader rows i dictionary) := by
  obtain ⟨hbound, hadditional, hglobal, hcode⟩ := flags_spec i
  refine (getUsize_reads .async hbound).bind ?_
  have hdictionary : Reads (some <$> readDictionary readInner) (putUsize count ++ body)
      (some dictionary) := ((getUsize_reads .async hcount).bind hread).map some
  simp only [hcode, IndexType.ofCode_code, hadditional, hglobal, ne_eq, not_true_eq_false,
    not_false_eq_true, decide_true, decide_false, Bool.false_and, readAnnounced, if_true,
    Bool.false_eq_true, if_false]
  refine Reads.bind (s := []) (Reads.pure _) ?_
  refine hdictionary.bind ((getUsize_reads .async hrows).bind_nil ?_)
  exact Reads.pure _

/-- The indexes of a column in the dictionary of its values are resolved to the values. -/
theorem resolve_positions {isNullable : Bool} {back : Value → Value} {column : List Value}
    (hplain : ∀ v ∈ column, v.isPlain = true) (hnull : .null ∈ column → isNullable = true)
    (rows : Nat) (i : IndexType) :
    resolve isNullable (State.afterHeader rows i ((keys isNullable column).map back))
        (column.map (position isNullable column)) =
      .ok (column.map fun v => if v.isNull then .null else back v) := by
  have hentry : ∀ v ∈ column, (if isNullable = true ∧ position isNullable column v = 0
      then (.ok .null : Result Value)
      else entryAt ((keys isNullable column).map back) (position isNullable column v)
        (position isNullable column v) "additional_keys") =
      .ok (if v.isNull then .null else back v) := by
    intro v hv
    by_cases hv0 : v = .null
    · subst hv0
      have hnullable := hnull hv
      subst hnullable
      rw [if_pos ⟨rfl, (position_eq_zero_iff hplain hv).mpr rfl⟩]
      rfl
    · have hpos : ¬ (isNullable = true ∧ position isNullable column v = 0) := by
        rintro ⟨rfl, hzero⟩
        exact hv0 ((position_eq_zero_iff hplain hv).mp hzero)
      have hkey := (position_spec isNullable hplain hv).2
      rw [if_neg hpos, entryAt, List.getElem?_map, hkey, Value.isNull_eq_false hv0]
      rfl
  have htraverse := Outcome.traverse_eq_ok_map hentry
  simpa [resolve, State.afterHeader, Outcome.traverse_map] using htraverse

/-- The state after a block that holds the whole column. -/
def State.afterBlock (i : IndexType) (dictionary output : List Value) : State where
  numPendingRows := 0
  limit := 0
  indexedType := i
  globalDictionary := none
  additionalKeys := some dictionary
  needsGlobalDictionary := false
  hasAdditionalKeys := true
  output := output

/-- What a block of the column is made of on the wire. -/
def blockBytes (isNullable : Bool) (body : Bytes) (column : List Value) : Bytes :=
  let i := IndexType.ofKeyCount (keys isNullable column).length
  putUsize (i.code ||| hasAdditionalKeysBit)
    ++ (putUsize (keys isNullable column).length ++ body ++ putUsize column.length)
    ++ column.flatMap fun v => i.put (position isNullable column v)

theorem turn_reads {isNullable : Bool} {readInner : Nat → Reader Error (List Value)}
    {back : Value → Value} {column : List Value} {body : Bytes}
    (hplain : ∀ v ∈ column, v.isPlain = true) (hnull : .null ∈ column → isNullable = true)
    (hread : Reads (readInner (keys isNullable column).length) body
      ((keys isNullable column).map back))
    (hkeys : (keys isNullable column).length < 2 ^ 64) (hrows : column.length < 2 ^ 64) :
    Reads (turn isNullable readInner (State.init column.length))
      (blockBytes isNullable body column)
      (State.afterBlock (IndexType.ofKeyCount (keys isNullable column).length)
        ((keys isNullable column).map back)
        (column.map fun v => if v.isNull then .null else back v)) := by
  have hindexes : Reads
      (Reader.readMany ((IndexType.ofKeyCount (keys isNullable column).length).get .async)
        column.length)
      (column.flatMap fun v => (IndexType.ofKeyCount (keys isNullable column).length).put
        (position isNullable column v))
      (column.map (position isNullable column)) := by
    refine Reads.readMany fun v hv => IndexType.get_reads .async ?_ hkeys
    exact (List.getElem?_eq_some_iff.mp (position_spec isNullable hplain hv).2).1
  refine Reads.bind (readHeader_reads hread hkeys hrows) ?_
  simp only [State.afterHeader, Nat.min_self, Nat.sub_self]
  refine hindexes.bind_nil (Reads.bind_nil (Reads.ofOutcome ?_) (Reads.pure _))
  exact resolve_positions hplain hnull _ _

/-- The loop reads one block and stops, whatever its fuel. -/
theorem loop_reads {isNullable : Bool} {readInner : Nat → Reader Error (List Value)}
    {back : Value → Value} {column : List Value} {body : Bytes} (hne : column ≠ [])
    (hplain : ∀ v ∈ column, v.isPlain = true) (hnull : .null ∈ column → isNullable = true)
    (hread : Reads (readInner (keys isNullable column).length) body
      ((keys isNullable column).map back))
    (hkeys : (keys isNullable column).length < 2 ^ 64) (hrows : column.length < 2 ^ 64)
    (fuel : Nat) :
    Reads (loop isNullable readInner (fuel + 2) (State.init column.length))
      (blockBytes isNullable body column)
      (column.map fun v => if v.isNull then .null else back v) := by
  have hlimit : (State.init column.length).limit ≠ 0 := by simpa [State.init] using hne
  rw [loop, if_neg hlimit]
  refine (turn_reads hplain hnull hread hkeys hrows).bind_nil ?_
  rw [loop, State.afterBlock, if_pos rfl]
  exact Reads.pure _

end LowCardinalityDeserializer

/-- A dictionary column: the keys are a column of the inner type, nulls are told by their
index. -/
theorem lowCardinality_roundTrip {isNullable : Bool} {inner : List Value → Result Bytes}
    {readInner : Nat → Reader Error (List Value)} {back : Value → Value} {column : List Value}
    {body : Bytes} (hplain : ∀ v ∈ column, v.isPlain = true)
    (hnull : .null ∈ column → isNullable = true)
    (hwrite : inner (LowCardinality.keys isNullable column) = .ok body)
    (hread : Reads (readInner (LowCardinality.keys isNullable column).length) body
      ((LowCardinality.keys isNullable column).map back))
    (hkeys : (LowCardinality.keys isNullable column).length < 2 ^ 64)
    (hrows : column.length < 2 ^ 64) :
    ∃ bytes, LowCardinalitySerializer.write isNullable inner column = .ok bytes ∧
      Reads (LowCardinalityDeserializer.read .async isNullable readInner column.length) bytes
        (column.map fun v => if v.isNull then .null else back v) := by
  by_cases hnil : column = []
  · subst hnil
    exact ⟨[], rfl, fun rest => rfl⟩
  · have hemit : Outcome.emit (LowCardinalitySerializer.writeIndex
        (LowCardinality.keys isNullable column)) column = .ok (column.flatMap fun v =>
          (LowCardinality.IndexType.ofKeyCount (LowCardinality.keys isNullable column).length).put
            (LowCardinality.position isNullable column v)) := by
      refine Outcome.emit_eq_ok_flatMap fun v hv => ?_
      rw [LowCardinalitySerializer.writeIndex,
        (LowCardinality.position_spec isNullable hplain hv).1]
    refine ⟨_, ?_, fun rest =>
      LowCardinalityDeserializer.loop_reads hnil hplain hnull hread hkeys hrows _ rest⟩
    rw [LowCardinalitySerializer.write, if_neg (by simpa using hnil)]
    simp only [hwrite, hemit, Outcome.ok_bind, LowCardinalityDeserializer.blockBytes,
      List.append_assoc]

end ClickhouseArrow
