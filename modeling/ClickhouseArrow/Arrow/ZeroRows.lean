import Mathlib.Data.List.Chain
import ClickhouseArrow.Arrow.EmptyColumns

/-!
# Columns without rows

The decoders of a nested column ask the decoders of its parts for as many rows as there are
values, which may be none.  The module says for which types nothing is read then and the array
returned has the data type announced (`readsNothing`): a dictionary has a flag word all the same,
and a tuple is given a placeholder of two columns.
-/

namespace ClickhouseArrow

open Wire

namespace Arrow

/-! ## The law -/

/-- A column of the data type without rows.  Values may be left behind its offsets. -/
structure EmptyColumn (d : DataType) (column : ArrowArray) : Prop where
  shaped : column.Shaped
  dataType_eq : column.dataType = d
  len_eq : column.len = 0

/-- The rows of the type are lists. -/
def isLists : ChType → Bool
  | .array _ | .map _ _ => true
  | _ => false

/-- Both decoders, asked for no rows, read nothing and return an array of the data type without
rows; rows that are empty lists are read from their ends alone. -/
def ReadsZeroRows (t : ChType) (d : DataType) : Prop :=
  ∃ builder, TypedBuilder.tryNew (typeHint t d) d = .ok builder ∧
    (∀ (json : Bytes → Bytes) (m : Mode) (rest : Bytes),
      ∃ array, deserializeBy json m (typeHint t d) builder d 0 [] rest = .ok (array, rest) ∧
        array.dataType = d ∧ array.len = 0) ∧
    (isLists t = true → ∀ (json : Bytes → Bytes) (m : Mode) (rows : Nat) (rest : Bytes),
      8 + rows * 8 ≤ isizeMax →
      ∃ array, deserializeBy json m (typeHint t d) builder d rows []
          ((List.replicate rows 0).flatMap putUsize ++ rest) = .ok (array, rest) ∧
        array.dataType = d ∧ array.len = rows)

/-- **The zero-row law**: the column is written as no bytes, and no bytes are read for no rows. -/
def ZeroRowLaw (t : ChType) (d : DataType) (column : ArrowArray) : Prop :=
  (∀ m : Mode, serializeBy m t column d = .ok []) ∧ ReadsZeroRows t d

/-! ## The condition -/

/-- The component is announced as the first column of the placeholder. -/
def isInt32 (t : ChType) : Bool :=
  match t.stripNull with
  | .int32 => true
  | _ => false

/-- The component is announced as the second column of the placeholder. -/
def isText (options : Option ArrowOptions) (t : ChType) : Bool :=
  match t.stripNull with
  | .string => wantsStrings options
  | .object => true
  | _ => false

/-- Nothing is read for no rows of the type, inside of a map or not: the type holds no dictionary,
no tuple but those of the placeholder, and nothing that has no builder. -/
def readsNothing (options : Option ArrowOptions) (inMap : Bool) : ChType → Bool
  | .nullable inner | .array inner => readsNothing options inMap inner
  | .map key value => readsNothing options true key && readsNothing options true value
  | .lowCardinality _ => false
  | .tuple [first, second] => isInt32 first && isText options second
  | .tuple _ => false
  | t => fitsBuilder options inMap t

/-! ## Types that read nothing -/

section Sufficient

variable {options : Option ArrowOptions} {isNull inMap n : Bool} {d : DataType}

/-- What is announced of a type is announced of it without its `Nullable`. -/
theorem arrowTypeOf_stripNull {t : ChType} (h : arrowTypeOf options isNull t = .ok (d, n)) :
    t.stripNull.isNullable = false ∧
      ∃ isNull', arrowTypeOf options isNull' t.stripNull = .ok (d, n) := by
  cases t with
  | nullable inner =>
      obtain ⟨-, hinner⟩ := arrowTypeOf_nullable h
      exact ⟨isNullable_of_arrowTypeOf hinner, true, hinner⟩
  | _ => exact ⟨rfl, isNull, h⟩

/-- The types that are announced as the columns of the placeholder. -/
theorem announced_placeholder {t : ChType} (h : arrowTypeOf options isNull t = .ok (d, n)) :
    (d = .primitive .int32 ↔ isInt32 t = true) ∧ (d = .bytes .utf8 ↔ isText options t = true) := by
  obtain ⟨hnull, isNull', hbare⟩ := arrowTypeOf_stripNull h
  unfold isInt32 isText
  generalize t.stripNull = u at hnull hbare
  -- A leaf says by its own data type whether it is one of the two.
  cases u with
  | nullable inner => cases hnull
  | array inner =>
      obtain ⟨item, -, rfl, -⟩ := arrowTypeOf_array hbare
      simp [listOf]
  | lowCardinality inner =>
      obtain ⟨value, -, rfl, -⟩ := arrowTypeOf_lowCardinality hbare
      simp
  | tuple items =>
      obtain ⟨fields, -, rfl, -⟩ := arrowTypeOf_tuple hbare
      simp
  | map key value =>
      obtain ⟨k, v, -, -, rfl, -⟩ := arrowTypeOf_map hbare
      simp [mapOf]
  | dateTime64 p tz =>
      rw [arrowTypeOf] at hbare
      split_ifs at hbare
      all_goals cases hbare
      all_goals simp
  | point | ring | polygon | multiPolygon =>
      cases isNull' with
      | true => cases hbare
      | false =>
          cases hbare
          simp [pointOf, listOf]
  | string =>
      cases hbare
      cases wantsStrings options <;> simp
  | _ =>
      cases hbare
      simp

theorem fitsBuilder_of_isInt32 {t : ChType} (h : isInt32 t = true) :
    fitsBuilder options inMap t = true := by
  cases t with
  | int32 => rfl
  | nullable inner => cases inner <;> first | rfl | cases h
  | _ => cases h

theorem fitsBuilder_of_isText {t : ChType} (h : isText options t = true) :
    fitsBuilder options inMap t = true := by
  have hstring (hstrings : wantsStrings options = true) :
      fitsBuilder options inMap .string = true := by
    rw [fitsBuilder, hstrings, Bool.or_true]
  cases t with
  | string => exact hstring h
  | object => rfl
  | nullable inner =>
      cases inner with
      | string => exact hstring h
      | object => rfl
      | _ => cases h
  | _ => cases h

theorem placeholder_of_readsNothing {items : List ChType}
    (h : readsNothing options inMap (.tuple items) = true) :
    ∃ first second, items = [first, second] ∧ isInt32 first = true ∧
      isText options second = true := by
  cases items with
  | nil => cases h
  | cons first rest =>
      cases rest with
      | nil => cases h
      | cons second rest =>
          cases rest with
          | nil => exact ⟨first, second, rfl, (Bool.and_eq_true _ _).mp h⟩
          | cons third rest => cases h

theorem fitsBuilder_of_readsNothing {t : ChType} (h : readsNothing options inMap t = true) :
    fitsBuilder options inMap t = true := by
  induction t using ChType.inductionOn generalizing inMap with
  | hleaf t hflat =>
      cases t with
      | nullable | lowCardinality | array | tuple | map => cases hflat
      | _ => exact h
  | hnullable inner ih => exact ih h
  | hlowCardinality inner _ _ => cases h
  | harray inner ih =>
      rw [fitsBuilder, Bool.and_eq_true]
      refine ⟨ih h, ?_⟩
      cases inner with
      | nullable z =>
          cases z with
          | lowCardinality y => cases h
          | _ => rfl
      | lowCardinality y => cases h
      | _ => rfl
  | htuple items _ =>
      obtain ⟨first, second, rfl, hfirst, hsecond⟩ := placeholder_of_readsNothing h
      rw [fitsBuilder, fitsBuilders, fitsBuilders, fitsBuilders, fitsBuilder_of_isInt32 hfirst,
        fitsBuilder_of_isText hsecond]
      rfl
  | hmap key value ihkey ihvalue =>
      rw [readsNothing, Bool.and_eq_true] at h
      rw [fitsBuilder, Bool.and_eq_true]
      exact ⟨ihkey h.1, ihvalue h.2⟩

end Sufficient

/-! ## Lists that are all empty -/

theorem bulkOffsets_reads (m : Mode) (ends : List UInt64) (hsize : 8 + ends.length * 8 ≤ isizeMax) :
    Reads (Lists.bulkOffsets m ends.length) (ends.flatMap putLe) (0 :: ends) := by
  have htake := Reads.takeExact (eof m) (ends.flatMap putLe)
  rw [flatMap_putLe_length] at htake
  have hcast : (castSlice 8 ends.length (ends.flatMap putLe)).map (ofLe UInt64) = ends := by
    have hslices := castSlice_flatMap ends
    rw [show Word.width UInt64 = 8 from rfl] at hslices
    rw [hslices, map_ofLe_putLe]
  rw [Lists.bulkOffsets, if_neg (by omega)]
  refine htake.bind_nil ?_
  rw [hcast]
  exact Reads.pure _

theorem bulkOffsets_zeros {rows : Nat} (hsize : 8 + rows * 8 ≤ isizeMax) :
    Reads (Lists.bulkOffsets .async rows) ((List.replicate rows 0).flatMap putUsize)
      (List.replicate (rows + 1) 0) := by
  have hends := bulkOffsets_reads .async (List.replicate rows 0) (by rwa [List.length_replicate])
  rw [List.length_replicate] at hends
  have hbytes : (List.replicate rows 0).flatMap putUsize =
      (List.replicate rows (0 : UInt64)).flatMap putLe := by
    simp [List.flatMap_replicate, putUsize]
  rw [hbytes]
  exact hends

theorem newOffsets_zeros (rows : Nat) :
    newOffsets ((List.replicate (rows + 1) (0 : UInt64)).map Lists.castI32) =
      .ok (List.replicate (rows + 1) 0) := by
  have hcast : Lists.castI32 0 = 0 := rfl
  rw [List.map_replicate, hcast, newOffsets, if_pos, List.map_replicate]
  · rfl
  · refine ⟨by simp, ?_, List.isChain_replicate_of_rel _ (le_refl 0)⟩
    simp [List.replicate_succ]

theorem getLastD_replicate {α : Type} (n : Nat) (a : α) : (List.replicate n a).getLastD a = a := by
  rw [List.getLastD_eq_getLast?, List.getLast?_replicate]
  split_ifs
  · rfl
  · rfl

/-- An array without rows has no nulls to be asked for. -/
theorem isNullable_of_empty {a : ArrowArray} (hlen : a.len = 0) (hnulls : a.nullCount = 0) :
    a.isNullable = false := by
  have hvalidity (nulls : Nulls) (hcount : nulls.count = 0) :
      (nulls.validity 0).contains false = false := by
    cases nulls with
    | none => rfl
    | some valid =>
        rw [Nulls.count, Option.getD_some, List.count_eq_zero] at hcount
        simpa [Nulls.validity] using hcount
  cases a with
  | null k =>
      obtain rfl : k = 0 := hlen
      rfl
  | dictionary key keys nulls values =>
      obtain rfl : keys = [] := List.length_eq_zero_iff.mp hlen
      rfl
  | union fields k | runEndEncoded runEnds values k =>
      obtain rfl : k = 0 := hlen
      rfl
  | _ =>
      simp only [ArrowArray.isNullable, ArrowArray.validity]
      rw [hlen]
      exact hvalidity _ hnulls

theorem hasUnmaskedNulls_of_empty {a : ArrowArray} (hlen : a.len = 0) :
    hasUnmaskedNulls none a = false := by
  rw [hasUnmaskedNulls, hlen]
  simp [Nulls.validity]

/-- Lists that are all empty are read from their ends, once nothing is read for no items. -/
theorem Lists.deserializeAsync_zeros {inner : ChType} {decode : Decode} {item : TypedBuilder}
    {f : Field} {a : ArrowArray} (hread : Reads (decode item f.dataType 0 []) [] a)
    (hlen : a.len = 0)
    (hnulls : inner.stripLowCardinality.isNullable = true ∨ a.nullCount = 0) {rows : Nat}
    (hsize : 8 + rows * 8 ≤ isizeMax) :
    Reads (Lists.deserializeAsync inner decode (.list .list item) (.list false f) rows [])
      ((List.replicate rows 0).flatMap putUsize)
      (.list false ⟨listItemFieldName, a.dataType, inner.stripLowCardinality.isNullable⟩
        (List.replicate (rows + 1) 0) a none) := by
  have hoffsets := bulkOffsets_zeros hsize
  have hlast : ((List.replicate (rows + 1) (0 : UInt64)).getLastD 0).toNat = 0 := by
    rw [getLastD_replicate]
    rfl
  -- No items are null, so the field of the items need not be nullable.
  have hnew : ListArray.new false ⟨listItemFieldName, a.dataType,
      inner.stripLowCardinality.isNullable⟩ (List.replicate (rows + 1) 0) a none =
      .ok (.list false ⟨listItemFieldName, a.dataType, inner.stripLowCardinality.isNullable⟩
        (List.replicate (rows + 1) 0) a none) := by
    have hnullable : (!inner.stripLowCardinality.isNullable && a.isNullable) = false := by
      rcases hnulls with h | h
      · rw [h]
        rfl
      · rw [isNullable_of_empty hlen h, Bool.and_false]
    apply unwrap_eq_ok.mpr
    rw [ListArray.tryNew, if_neg (by rw [getLastD_replicate]; omega)]
    show (if (!inner.stripLowCardinality.isNullable && a.isNullable) = true then _ else
      if a.dataType ≠ a.dataType then _ else _) = _
    rw [hnullable, if_neg Bool.false_ne_true, if_neg (not_not.mpr rfl)]
  refine hoffsets.bind_nil ?_
  refine (Reads.ofOutcome (newOffsets_zeros rows)).nil_bind ?_
  rw [hlast]
  refine hread.nil_bind ?_
  refine (Reads.ofOutcome hnew).nil_bind ?_
  rw [if_neg]
  · exact Reads.pure _
  · simp [ArrowArray.len]

/-- Columns without rows suit their fields. -/
theorem checkColumns_of_empty {fields : List Field} {columns : List ArrowArray}
    (htypes : columns.map ArrowArray.dataType = fields.map FieldOf.dataType)
    (hlen : ∀ a ∈ columns, a.len = 0) : checkColumns 0 none fields columns = .ok () := by
  induction columns generalizing fields with
  | nil => cases fields <;> rfl
  | cons a columns ih =>
      cases fields with
      | nil => rfl
      | cons f fields =>
          obtain ⟨hhead, htail⟩ := List.cons.inj htypes
          obtain ⟨ha, hcolumns⟩ := List.forall_mem_cons.mp hlen
          have hcolumn : checkColumn 0 none f a = .ok () := by
            rw [checkColumn, if_neg (not_not.mpr hhead.symm), if_neg (not_not.mpr ha),
              hasUnmaskedNulls_of_empty ha, Bool.and_false, if_neg Bool.false_ne_true]
          rw [checkColumns, hcolumn]
          exact ih htail hcolumns

theorem tryNewWithLength_of_empty {fields : List Field} {columns : List ArrowArray}
    (htypes : columns.map ArrowArray.dataType = fields.map FieldOf.dataType)
    (hlen : ∀ a ∈ columns, a.len = 0) :
    StructArray.tryNewWithLength fields columns none 0 = .ok (.struct fields columns 0 none) := by
  have hlength : fields.length = columns.length := by
    simpa using (congrArg List.length htypes).symm
  rw [StructArray.tryNewWithLength, if_neg (not_not.mpr hlength),
    checkColumns_of_empty htypes hlen]
  rfl

/-- Maps that are all empty are read from their ends, once nothing is read for no keys and no
values. -/
theorem Maps.deserializeAsync_zeros {decodeKey decodeValue : Decode} {k v : TypedBuilder}
    {name : String} {keyField valueField : Field} {nullable sorted : Bool}
    {keys values : ArrowArray} (hkeys : Reads (decodeKey k keyField.dataType 0 []) [] keys)
    (hvalues : Reads (decodeValue v valueField.dataType 0 []) [] values)
    (hkeyType : keys.dataType = keyField.dataType) (hkeyLen : keys.len = 0)
    (hvalueType : values.dataType = valueField.dataType) (hvalueLen : values.len = 0) {rows : Nat}
    (hsize : 8 + rows * 8 ≤ isizeMax) :
    Reads (Maps.deserializeAsync decodeKey decodeValue (.map k v)
        (.map ⟨name, .struct [keyField, valueField], nullable⟩ sorted) rows [])
      ((List.replicate rows 0).flatMap putUsize)
      (.map ⟨mapFieldName, .struct [keyField, valueField], false⟩ false
        (List.replicate (rows + 1) 0) keys values none) := by
  have hlast : ((List.replicate (rows + 1) (0 : UInt64)).getLastD 0).toNat = 0 := by
    rw [getLastD_replicate]
    rfl
  have hentries : StructArray.new [keyField, valueField] [keys, values] none =
      .ok (.struct [keyField, valueField] [keys, values] 0 none) := by
    apply unwrap_eq_ok.mpr
    rw [hkeyLen]
    exact tryNewWithLength_of_empty (by simp [hkeyType, hvalueType]) (by simp [hkeyLen, hvalueLen])
  have hnew : MapArray.new ⟨mapFieldName, .struct [keyField, valueField], false⟩
      (List.replicate (rows + 1) 0) (.struct [keyField, valueField] [keys, values] 0 none) none
      false = .ok (.map ⟨mapFieldName, .struct [keyField, valueField], false⟩ false
        (List.replicate (rows + 1) 0) keys values none) := by
    apply unwrap_eq_ok.mpr
    rw [MapArray.tryNew, if_neg (by rw [getLastD_replicate]; omega)]
    simp [checkNulls, ArrowArray.nullCount, ArrowArray.nulls, Nulls.count, ArrowArray.dataType]
  refine Reads.nil_bind (Reads.pure (keyField, valueField)) ?_
  refine (bulkOffsets_zeros hsize).bind_nil ?_
  refine (Reads.ofOutcome (newOffsets_zeros rows)).nil_bind ?_
  rw [hlast]
  refine hkeys.nil_bind (hvalues.nil_bind ?_)
  exact (Reads.ofOutcome hentries).nil_bind (Reads.ofOutcome hnew)

/-! ## Reading no rows -/

section Reading

variable {options : Option ArrowOptions} {isNull inMap n : Bool} {d : DataType}

/-- The arrays that the decoder returns are arrays of the data type. -/
theorem decoded_of_reads (json : Bytes → Bytes) {t : ChType} {b : TypedBuilder}
    (h : Serves t b d) {rows : Nat} {bytes : Bytes} {a : ArrowArray}
    (hread : Reads (deserializeArrowAsync json t b d rows []) bytes a) :
    Decoded d rows (t.isNullable = false) a := by
  have ha := deserializeArrowAsync_decoded json h rows [] _ _ hread.run
  exact ⟨ha.dataType_eq, ha.len_eq, fun hnull => ha.nullCount_eq ⟨hnull, rfl⟩⟩

/-- Empty lists of a type whose decoder reads nothing for no rows. -/
theorem exists_reads_lists (json : Bytes → Bytes) {inner : ChType} {b : TypedBuilder} {it : DataType}
    (hserves : Serves inner b it) {a : ArrowArray}
    (hread : Reads (deserializeArrowAsync json inner b it 0 []) [] a) (nullable : Bool) {rows : Nat}
    (hsize : 8 + rows * 8 ≤ isizeMax) :
    ∃ array, Reads (deserializeArrowAsync json (.array inner) (.list .list b)
      (listOf (it, nullable)) rows []) ((List.replicate rows 0).flatMap putUsize) array := by
  have ha := decoded_of_reads json hserves hread
  refine ⟨_, Lists.deserializeAsync_zeros (f := ⟨listItemFieldName, it, nullable⟩) hread ha.len_eq
    ?_ hsize⟩
  cases hnull : inner.isNullable with
  | false => exact .inr (ha.nullCount_eq hnull)
  | true =>
      left
      cases inner with
      | nullable w => rfl
      | _ => cases hnull

theorem exists_reads_maps (json : Bytes → Bytes) {key value : ChType} {bk bv : TypedBuilder}
    {dk : DataType} {dv : DataType × Bool} (hkey : Serves key bk dk) (hvalue : Serves value bv dv.1)
    {keys values : ArrowArray} (hkeys : Reads (deserializeArrowAsync json key bk dk 0 []) [] keys)
    (hvalues : Reads (deserializeArrowAsync json value bv dv.1 0 []) [] values) {rows : Nat}
    (hsize : 8 + rows * 8 ≤ isizeMax) :
    ∃ array, Reads (deserializeArrowAsync json (.map key value) (.map bk bv) (mapOf dk dv) rows [])
      ((List.replicate rows 0).flatMap putUsize) array := by
  have hk := decoded_of_reads json hkey hkeys
  have hv := decoded_of_reads json hvalue hvalues
  exact ⟨_, @Maps.deserializeAsync_zeros _ _ bk bv _ ⟨structKeyFieldName, dk, false⟩
    ⟨structValueFieldName, dv.1, dv.2⟩ _ _ _ _ hkeys hvalues hk.dataType_eq hk.len_eq
    hv.dataType_eq hv.len_eq _ hsize⟩

theorem mapOf_inj {dk dk' : DataType} {dv dv' : DataType × Bool} (h : mapOf dk dv = mapOf dk' dv') :
    dk = dk' ∧ dv = dv' := by
  simp only [mapOf, DataType.map.injEq, FieldOf.mk.injEq, DataType.struct.injEq, List.cons.injEq,
    true_and, and_true] at h
  exact ⟨h.1, Prod.ext h.2.1 h.2.2⟩

theorem isPlain_hintOf {t : ChType} (ht : isPlain t = true)
    (h : arrowTypeOf options isNull t = .ok (d, n)) : isPlain (hintOf inMap t d) = true := by
  have hself (hsame : coerces options t = false) : isPlain (hintOf inMap t d) = true := by
    rw [hintOf_eq_self h (by rw [coerced, hsame, Bool.and_false])]
    exact ht
  cases t with
  | nullable i => cases ht
  | lowCardinality i => cases ht
  | array i => cases ht
  | tuple ts => cases ht
  | map k v => cases ht
  | string =>
      cases h
      cases inMap <;> cases wantsStrings options <;> rfl
  | fixedSizedString len =>
      cases h
      cases inMap <;> rfl
  | _ => exact hself rfl

theorem Serves.typedBuild {t : ChType} (ht : isPlain t = true) {b : TypedBuilder}
    (h : Serves t b d) : ∃ d', Arrow.typedBuild t d' = .ok b := by
  cases t with
  | nullable i => cases ht
  | lowCardinality i => cases ht
  | array i => cases ht
  | tuple ts => cases ht
  | map k v => cases ht
  | _ => exact h.1

/-- Nothing is read for no rows of a type that reads nothing. -/
theorem exists_reads_nothing (json : Bytes → Bytes) {t : ChType}
    (h : arrowTypeOf options isNull t = .ok (d, n)) (hreads : readsNothing options inMap t = true)
    {b : TypedBuilder} (hserves : Serves (hintOf inMap t d) b d) :
    ∃ a, Reads (deserializeArrowAsync json (hintOf inMap t d) b d 0 []) [] a := by
  induction t using ChType.inductionOn generalizing isNull inMap d n b with
  | hleaf t hflat =>
      have ht : isPlain t = true := by
        cases t with
        | nullable | lowCardinality | array | tuple | map => cases hflat
        | _ => rfl
      obtain ⟨d', hb⟩ := hserves.typedBuild (isPlain_hintOf ht h)
      exact exists_reads_nil json hb d
  | hnullable inner ih =>
      obtain ⟨rfl, hinner⟩ := arrowTypeOf_nullable h
      obtain ⟨hnull, hdict⟩ := head_hintOf hinner (isNullable_of_arrowTypeOf hinner) inMap
      have hplain : isDictionary inner = false := by
        cases inner with
        | lowCardinality y => cases hreads
        | _ => rfl
      -- The mask has no bytes, and the rest is read as the inner type.
      have hstays : hintOf inMap (.nullable inner) d = .nullable (hintOf inMap inner d) := by
        rw [hintOf_nullable hinner, intoNullable_eq hnull (hdict.trans hplain), ite_self]
      rw [hstays] at hserves ⊢
      obtain ⟨a, hread⟩ := ih hinner hreads hserves
      exact ⟨a, (Reads.pure []).nil_bind hread⟩
  | hlowCardinality inner _ _ => cases hreads
  | harray inner ih =>
      obtain ⟨item, hitem, rfl, -⟩ := arrowTypeOf_array h
      rw [hintOf_array] at hserves ⊢
      obtain ⟨b', it, rfl, hd, hinner⟩ := hserves
      obtain rfl : it = item.1 := (FieldOf.mk.inj (DataType.list.inj hd).2).2.1.symm
      obtain ⟨a, hread⟩ := ih hitem hreads hinner
      exact exists_reads_lists json hinner hread item.2 (by decide)
  | htuple items _ =>
      obtain ⟨first, second, rfl, hfirst, hsecond⟩ := placeholder_of_readsNothing hreads
      obtain ⟨fields, hfields, rfl, -⟩ := arrowTypeOf_tuple h
      obtain ⟨item, rest, hitem, hrest, rfl⟩ := arrowTypesOf_cons hfields
      obtain ⟨item', rest', hitem', hrest', rfl⟩ := arrowTypesOf_cons hrest
      cases hrest'
      rw [hintOf_tuple inMap (length_of_arrowTypesOf hfields 0)] at hserves ⊢
      obtain ⟨builders, fields, rfl, hd, -⟩ := hserves
      obtain rfl := DataType.struct.inj hd
      have hint32 := (announced_placeholder hitem).1.mpr hfirst
      have hutf8 := (announced_placeholder hitem').2.mpr hsecond
      -- The two columns that are made up are those of the tuple.
      refine ⟨_, Reads.ofOutcome (tryNewWithLength_of_empty ?_ ?_)⟩
      · simp [Tuples.emptyColumns, tupleFields, hint32, hutf8, ArrowArray.dataType]
      · simp [Tuples.emptyColumns, ArrowArray.len]
  | hmap key value ihkey ihvalue =>
      obtain ⟨k, v, hk, hv, rfl, -⟩ := arrowTypeOf_map h
      rw [hintOf_map] at hserves ⊢
      obtain ⟨bk, bv, dk, dv, rfl, hd, hkey, hvalue⟩ := hserves
      rw [readsNothing, Bool.and_eq_true] at hreads
      obtain ⟨rfl, rfl⟩ := mapOf_inj hd
      obtain ⟨keys, hkeys⟩ := ihkey hk hreads.1 hkey
      obtain ⟨values, hvalues⟩ := ihvalue hv hreads.2 hvalue
      exact exists_reads_maps json hkey hvalue hkeys hvalues (by decide)

/-- Lists that are all empty are read where nothing is read for no rows. -/
theorem exists_reads_empty_lists (json : Bytes → Bytes) {t : ChType} (hlists : isLists t = true)
    (h : arrowTypeOf options isNull t = .ok (d, n)) (hreads : readsNothing options inMap t = true)
    {b : TypedBuilder} (hserves : Serves (hintOf inMap t d) b d) {rows : Nat}
    (hsize : 8 + rows * 8 ≤ isizeMax) :
    ∃ a, Reads (deserializeArrowAsync json (hintOf inMap t d) b d rows [])
      ((List.replicate rows 0).flatMap putUsize) a := by
  cases t with
  | array inner =>
      obtain ⟨item, hitem, rfl, -⟩ := arrowTypeOf_array h
      rw [hintOf_array] at hserves ⊢
      obtain ⟨b', it, rfl, hd, hinner⟩ := hserves
      obtain rfl : it = item.1 := (FieldOf.mk.inj (DataType.list.inj hd).2).2.1.symm
      obtain ⟨a, hread⟩ := exists_reads_nothing json hitem hreads hinner
      exact exists_reads_lists json hinner hread item.2 hsize
  | map key value =>
      obtain ⟨k, v, hk, hv, rfl, -⟩ := arrowTypeOf_map h
      rw [hintOf_map] at hserves ⊢
      obtain ⟨bk, bv, dk, dv, rfl, hd, hkey, hvalue⟩ := hserves
      rw [readsNothing, Bool.and_eq_true] at hreads
      obtain ⟨rfl, rfl⟩ := mapOf_inj hd
      obtain ⟨keys, hkeys⟩ := exists_reads_nothing json hk hreads.1 hkey
      obtain ⟨values, hvalues⟩ := exists_reads_nothing json hv hreads.2 hvalue
      exact exists_reads_maps json hkey hvalue hkeys hvalues hsize
  | _ => cases hlists

/-- Both decoders return what is read. -/
theorem exists_deserializeBy {json : Bytes → Bytes} (m : Mode) {t : ChType} {b : TypedBuilder}
    (hb : TypedBuilder.tryNew t d = .ok b) (hserves : Serves t b d) {rows : Nat} {bytes : Bytes}
    (h : ∃ a, Reads (deserializeArrowAsync json t b d rows []) bytes a) (rest : Bytes) :
    ∃ array, deserializeBy json m t b d rows [] (bytes ++ rest) = .ok (array, rest) ∧
      array.dataType = d ∧ array.len = rows := by
  obtain ⟨a, hread⟩ := h
  have ha := decoded_of_reads json hserves hread
  exact ⟨a, (deserializeBy_eq_ok m hb).mpr (hread rest), ha.dataType_eq, ha.len_eq⟩

theorem readsZeroRows_of_readsNothing {t : ChType} (h : chToArrowType t options = .ok (d, n))
    (hreads : readsNothing options false t = true) : ReadsZeroRows t d := by
  have hbuilder : HasBuilder (hintOf false t d) d :=
    hasBuilder_hintOf h (fitsBuilder_of_readsNothing hreads)
  obtain ⟨b, hb, hserves⟩ := hbuilder
  refine ⟨b, hb 0, fun json m rest => ?_, fun hlists json m rows rest hsize => ?_⟩
  · exact exists_deserializeBy m (hb 0) hserves (exists_reads_nothing json h hreads hserves) rest
  · exact exists_deserializeBy m (hb 0) hserves
      (exists_reads_empty_lists json hlists h hreads hserves hsize) rest

/-! ## Types that do not -/

theorem types_of_checkColumns {len : Nat} {nulls : Nulls} {fields : List Field}
    {columns : List ArrowArray} (hlength : fields.length = columns.length)
    (h : checkColumns len nulls fields columns = .ok ()) :
    columns.map ArrowArray.dataType = fields.map FieldOf.dataType := by
  induction columns generalizing fields with
  | nil =>
      obtain rfl := List.length_eq_zero_iff.mp hlength
      rfl
  | cons a columns ih =>
      cases fields with
      | nil => cases hlength
      | cons f fields =>
          obtain ⟨_, hcolumn, hrest⟩ := Outcome.bind_eq_ok.mp h
          have htype : f.dataType = a.dataType := by
            by_contra hne
            rw [checkColumn, if_pos hne] at hcolumn
            cases hcolumn
          rw [List.map_cons, List.map_cons, htype, ih (Nat.succ.inj hlength) hrest]

/-- The columns of a struct have the data types of its fields. -/
theorem StructArray.types_of_tryNewWithLength {fields : List Field} {columns : List ArrowArray}
    {nulls : Nulls} {len : Nat} {a : ArrowArray}
    (h : StructArray.tryNewWithLength fields columns nulls len = .ok a) :
    columns.map ArrowArray.dataType = fields.map FieldOf.dataType := by
  unfold StructArray.tryNewWithLength at h
  split_ifs at h with hlength
  · cases h
  · obtain ⟨_, -, h⟩ := Outcome.bind_eq_ok.mp h
    obtain ⟨_, hcolumns, -⟩ := Outcome.bind_eq_ok.mp h
    exact types_of_checkColumns (not_not.mp hlength) hcolumns

theorem ofOutcome_eq_ok {ε α : Type} {o : Outcome ε α} {bytes : Bytes} {x : α × Bytes}
    (h : Reader.ofOutcome o bytes = .ok x) : o = .ok x.1 ∧ x.2 = bytes := by
  cases o with
  | ok a =>
      cases h
      exact ⟨rfl, rfl⟩
  | error e => cases h

/-- A list without rows has its items read. -/
theorem Lists.items_of_read {inner : ChType} {decode : Decode} {item : TypedBuilder} {f : Field}
    {x : ArrowArray × Bytes}
    (h : Lists.deserializeAsync inner decode (.list .list item) (.list false f) 0 [] [] = .ok x)
    (hx : x.1.dataType = .list false f) :
    ∃ y, decode item f.dataType 0 [] [] = .ok y ∧ y.1.dataType = f.dataType := by
  have hoffsets : Lists.bulkOffsets .async 0 [] = .ok ([0], []) :=
    (@bulkOffsets_zeros 0 (by decide)).run
  obtain ⟨offsets, rest, hends, h⟩ := Reader.bind_eq_ok.mp h
  obtain ⟨rfl, rfl⟩ := Prod.mk.inj (Except.ok.inj (hoffsets.symm.trans hends))
  obtain ⟨buffer, rest, hbuffer, h⟩ := Reader.bind_eq_ok.mp h
  obtain ⟨-, rfl⟩ := ofOutcome_eq_ok hbuffer
  obtain ⟨y, rest, hy, h⟩ := Reader.bind_eq_ok.mp h
  obtain ⟨array, rest', hnew, h⟩ := Reader.bind_eq_ok.mp h
  have hlist := ListArray.eq_of_new (ofOutcome_eq_ok hnew).1
  refine ⟨(y, rest), hy, ?_⟩
  split_ifs at h with hlen
  · cases h
  · obtain rfl := Except.ok.inj h
    replace hx : ((array, rest').1).dataType = .list false f := hx
    rw [hlist] at hx
    exact congrArg FieldOf.dataType (DataType.list.inj hx).2

/-- A map without rows has its keys and its values read. -/
theorem Maps.parts_of_read {decodeKey decodeValue : Decode} {k v : TypedBuilder} {name : String}
    {keyField valueField : Field} {nullable sorted : Bool} {x : ArrowArray × Bytes}
    (h : Maps.deserializeAsync decodeKey decodeValue (.map k v)
      (.map ⟨name, .struct [keyField, valueField], nullable⟩ sorted) 0 [] [] = .ok x) :
    ∃ y z, decodeKey k keyField.dataType 0 [] [] = .ok y ∧ y.1.dataType = keyField.dataType ∧
      decodeValue v valueField.dataType 0 [] y.2 = .ok z ∧ z.1.dataType = valueField.dataType := by
  have hoffsets : Lists.bulkOffsets .async 0 [] = .ok ([0], []) :=
    (@bulkOffsets_zeros 0 (by decide)).run
  obtain ⟨fields, rest, hfields, h⟩ := Reader.bind_eq_ok.mp h
  cases hfields
  obtain ⟨offsets, rest, hends, h⟩ := Reader.bind_eq_ok.mp h
  obtain ⟨rfl, rfl⟩ := Prod.mk.inj (Except.ok.inj (hoffsets.symm.trans hends))
  obtain ⟨buffer, rest, hbuffer, h⟩ := Reader.bind_eq_ok.mp h
  obtain ⟨-, rfl⟩ := ofOutcome_eq_ok hbuffer
  obtain ⟨keys, rest, hkeys, h⟩ := Reader.bind_eq_ok.mp h
  obtain ⟨values, rest', hvalues, h⟩ := Reader.bind_eq_ok.mp h
  obtain ⟨entries, rest'', hentries, -⟩ := Reader.bind_eq_ok.mp h
  have htypes :=
    StructArray.types_of_tryNewWithLength (unwrap_eq_ok.mp (ofOutcome_eq_ok hentries).1)
  simp only [List.map_cons, List.cons.injEq] at htypes
  exact ⟨(keys, rest), (values, rest'), hkeys, htypes.1, hvalues, htypes.2.1⟩

/-- The columns of the placeholder have the data types of the fields of a tuple of that kind. -/
theorem readsNothing_of_placeholder {items : List ChType} {fields : List (DataType × Bool)}
    (h : arrowTypesOf options items = .ok fields) {a : ArrowArray}
    (hnew : StructArray.tryNewWithLength (tupleFields 0 fields) Tuples.emptyColumns none 0 = .ok a) :
    readsNothing options inMap (.tuple items) = true := by
  have htypes := StructArray.types_of_tryNewWithLength hnew
  have hlength := length_of_arrowTypesOf h 0
  have htwo : items.length = 2 := by
    rw [hlength]
    simpa [Tuples.emptyColumns] using (congrArg List.length htypes).symm
  obtain ⟨first, second, rfl⟩ := List.length_eq_two.mp htwo
  obtain ⟨item, rest, hitem, hrest, rfl⟩ := arrowTypesOf_cons h
  obtain ⟨item', rest', hitem', hrest', rfl⟩ := arrowTypesOf_cons hrest
  simp only [Tuples.emptyColumns, tupleFields, List.map_cons, List.cons.injEq] at htypes
  have hfirst := (announced_placeholder hitem).1.mp htypes.1.symm
  have hsecond := (announced_placeholder hitem').2.mp htypes.2.1.symm
  rw [readsNothing, hfirst, hsecond]
  rfl

/-- A type whose decoder returns an array of the data type announced for no rows and no bytes. -/
theorem readsNothing_of_read {t : ChType} (h : arrowTypeOf options isNull t = .ok (d, n)) {s : Nat}
    {b : TypedBuilder} (hb : TypedBuilder.tryNewOf s (hintOf inMap t d) d = .ok b)
    {x : ArrowArray × Bytes} (hread : deserializeArrowAsync id (hintOf inMap t d) b d 0 [] [] = .ok x)
    (hx : x.1.dataType = d) : readsNothing options inMap t = true := by
  induction t using ChType.inductionOn generalizing isNull inMap d n s b x with
  | hleaf t hflat =>
      have hfits (ht : isPlain t = true) : fitsBuilder options inMap t = true := by
        refine fitsBuilder_of_emptyArray ht h hb fun y hy => ?_
        rw [hread] at hy
        obtain rfl := Except.ok.inj hy
        exact hx
      cases t with
      | nullable | lowCardinality | array | tuple | map => cases hflat
      | _ => exact hfits rfl
  | hnullable inner ih =>
      obtain ⟨rfl, hinner⟩ := arrowTypeOf_nullable h
      obtain ⟨hnull, hdict⟩ := head_hintOf hinner (isNullable_of_arrowTypeOf hinner) inMap
      -- A dictionary has a flag word, with the `Nullable` around it or moved to its values.
      have hnothing (u : ChType) :
          deserializeArrowAsync id (.lowCardinality u) b d 0 [] [] ≠ .ok x := by
        rw [deserializeArrowAsync_lowCardinality]
        exact LowCardinality.deserializeAsync_nil _ _ _ _ _ _ _
      cases hdictionary : isDictionary inner with
      | true =>
          cases inner with
          | lowCardinality y =>
              obtain ⟨v, -, rfl, -⟩ := arrowTypeOf_lowCardinality hinner
              rw [hintOf_nullable hinner, hintOf_lowCardinality] at hread
              split_ifs at hread
              · exact absurd hread (hnothing _)
              · exact absurd hread (hnothing _)
          | _ => cases hdictionary
      | false =>
          have hstays : hintOf inMap (.nullable inner) d = .nullable (hintOf inMap inner d) := by
            rw [hintOf_nullable hinner, intoNullable_eq hnull (hdict.trans hdictionary), ite_self]
          rw [hstays] at hb hread
          cases s with
          | zero => cases hb
          | succ s => exact ih hinner hb hread hx
  | hlowCardinality inner _ _ =>
      obtain ⟨v, hv, rfl, -⟩ := arrowTypeOf_lowCardinality h
      rw [hintOf_lowCardinality, deserializeArrowAsync_lowCardinality] at hread
      exact absurd hread (LowCardinality.deserializeAsync_nil _ _ _ _ _ _ _)
  | harray inner ih =>
      obtain ⟨item, hitem, rfl, -⟩ := arrowTypeOf_array h
      rw [hintOf_array] at hb hread
      obtain ⟨b', hb', rfl⟩ := Outcome.map_eq_ok.mp hb
      obtain ⟨y, hy, hyType⟩ := Lists.items_of_read hread hx
      exact ih hitem hb' hy hyType
  | htuple items _ =>
      obtain ⟨fields, hfields, rfl, -⟩ := arrowTypeOf_tuple h
      have hlength := length_of_arrowTypesOf hfields 0
      rw [hintOf_tuple inMap hlength] at hb hread
      rw [TypedBuilder.tryNewOf, if_neg (not_not.mpr (length_hintsOf inMap hlength))] at hb
      obtain ⟨bs, -, rfl⟩ := Outcome.map_eq_ok.mp hb
      replace hread : Reader.ofOutcome
        (StructArray.tryNewWithLength (tupleFields 0 fields) Tuples.emptyColumns none 0) [] = .ok x :=
        hread
      exact readsNothing_of_placeholder hfields (ofOutcome_eq_ok hread).1
  | hmap key value ihkey ihvalue =>
      obtain ⟨k, v, hk, hv, rfl, -⟩ := arrowTypeOf_map h
      rw [hintOf_map] at hb hread
      obtain ⟨fields, hfieldsOk, hb⟩ := Outcome.bind_eq_ok.mp hb
      cases hfieldsOk
      obtain ⟨bk, hbk, hb⟩ := Outcome.bind_eq_ok.mp hb
      obtain ⟨bv, hbv, hb⟩ := Outcome.bind_eq_ok.mp hb
      cases hb
      obtain ⟨y, z, hy, hyType, hz, hzType⟩ := Maps.parts_of_read hread
      have hkey := ihkey hk hbk hy hyType
      -- The keys read nothing, so the values are read from where the keys were.
      obtain ⟨bk', hbk', hserves⟩ := hasBuilder_hintOf hk (fitsBuilder_of_readsNothing hkey)
      obtain rfl := Except.ok.inj (hbk.symm.trans (hbk' 0))
      obtain ⟨a, ha⟩ := exists_reads_nothing id hk hkey hserves
      obtain rfl := Except.ok.inj (hy.symm.trans ha.run)
      rw [readsNothing, Bool.and_eq_true]
      exact ⟨hkey, ihvalue hv hbv hz hzType⟩

theorem readsZeroRows_iff_readsNothing {t : ChType} (h : chToArrowType t options = .ok (d, n)) :
    ReadsZeroRows t d ↔ readsNothing options false t = true := by
  constructor
  · rintro ⟨b, hb, hread, -⟩
    obtain ⟨a, ha, hd, -⟩ := hread id .async []
    have hplain : TypedBuilder.tryNewOf _ (hintOf false t d) d = .ok b := hb
    exact readsNothing_of_read h hplain ha hd
  · exact readsZeroRows_of_readsNothing h

end Reading

/-! ## The law, decided -/

/-- **The zero-row law** holds of the columns that are written as nothing and the types that read
nothing, and of no others. -/
theorem zeroRowLaw_iff (options : Option ArrowOptions) (t : ChType) (d : DataType) (nullable : Bool)
    (h : chToArrowType t options = .ok (d, nullable)) (column : ArrowArray)
    (hcolumn : EmptyColumn d column) :
    ZeroRowLaw t d column ↔
      writesNothing false t column = true ∧ readsNothing options false t = true := by
  have hwrites : (∀ m : Mode, serializeBy m t column d = .ok []) ↔
      writesNothing false t column = true := by
    rw [← serializeAsyncOf_eq_ok_nil_iff h hcolumn.shaped hcolumn.dataType_eq]
    constructor
    · intro hall
      exact hall .async
    · intro hnothing m
      rw [serializeBy_eq]
      exact hnothing
  rw [ZeroRowLaw, hwrites, readsZeroRows_iff_readsNothing h]

/-- A column of lists without rows, whose items are these. -/
def emptyLists (items : ArrowArray) : ArrowArray :=
  .list false ⟨listItemFieldName, items.dataType, false⟩ [0] items none

theorem emptyLists_emptyColumn {items : ArrowArray} (h : items.Shaped) :
    EmptyColumn (listOf (items.dataType, false)) (emptyLists items) where
  shaped := .list (by simp) rfl h (fun _ hnulls => by cases hnulls)
  dataType_eq := rfl
  len_eq := rfl

theorem shaped_emptyPrimitive (t : PrimitiveType) : (ArrowArray.primitive t [] none).Shaped :=
  .primitive fun _ hnulls => by cases hnulls

/-- Tuples without rows of a number and a text, which are the columns of the placeholder. -/
def emptyPairs : ArrowArray :=
  .struct [⟨"field_0", .primitive .int32, false⟩, ⟨"field_1", .bytes .utf8, false⟩]
    [.primitive .int32 [] none, .bytes .utf8 [] none] 0 none

theorem shaped_emptyPairs : emptyPairs.Shaped :=
  .struct rfl (by simp [ArrowArray.len])
    (by
      simp only [List.mem_cons, List.not_mem_nil, or_false, forall_eq_or_imp, forall_eq]
      exact ⟨shaped_emptyPrimitive .int32, .bytes fun _ hnulls => by cases hnulls⟩)
    fun _ hnulls => by cases hnulls

/-- An array of numbers keeps the law, and so does one of tuples of the placeholder. -/
theorem zeroRowLaw_iff_sample :
    ZeroRowLaw (.array .uint8) (listOf (.primitive .uint8, false))
        (emptyLists (.primitive .uint8 [] none)) ∧
      ZeroRowLaw (.array (.tuple [.int32, .string])) (listOf (emptyPairs.dataType, false))
        (emptyLists emptyPairs) :=
  ⟨(zeroRowLaw_iff (some .new) (.array .uint8) _ false rfl _
      (emptyLists_emptyColumn (shaped_emptyPrimitive .uint8))).mpr (by decide),
    (zeroRowLaw_iff (some ⟨true, false, false, false, true⟩) (.array (.tuple [.int32, .string])) _
      false rfl _ (emptyLists_emptyColumn shaped_emptyPairs)).mpr (by decide)⟩

/-- Arrays without rows of dictionaries, which have a flag word read, of tuples that are not those
of the placeholder, of enums, whose labels are looked for, and of numbers that are left behind the
offsets. -/
theorem not_zeroRowLaw_samples :
    (chToArrowType (.array (.lowCardinality .string)) (some .new) =
        .ok (listOf (.dictionary (.primitive .int32) (.bytes .binary), false), false) ∧
      ¬ReadsZeroRows (.array (.lowCardinality .string))
        (listOf (.dictionary (.primitive .int32) (.bytes .binary), false))) ∧
    (chToArrowType (.array (.tuple [.uint8])) (some .new) =
        .ok (listOf (.struct [⟨"field_0", .primitive .uint8, false⟩], false), false) ∧
      ¬ReadsZeroRows (.array (.tuple [.uint8]))
        (listOf (.struct [⟨"field_0", .primitive .uint8, false⟩], false))) ∧
    (EmptyColumn (listOf (.dictionary (.primitive .int8) (.bytes .utf8), false))
        (emptyLists (.dictionary .int8 [] none (.bytes .utf8 [] none))) ∧
      serializeBy .async (.array (.enum8 [("a", 1)]))
        (emptyLists (.dictionary .int8 [] none (.bytes .utf8 [] none)))
        (listOf (.dictionary (.primitive .int8) (.bytes .utf8), false)) ≠ .ok []) ∧
    (EmptyColumn (listOf (.primitive .uint8, false)) (emptyLists (.primitive .uint8 [(7 : UInt8)] none)) ∧
      serializeBy .async (.array .uint8) (emptyLists (.primitive .uint8 [(7 : UInt8)] none))
        (listOf (.primitive .uint8, false)) = .ok [7]) := by
  have hdictionary : chToArrowType (.array (.lowCardinality .string)) (some .new) =
      .ok (listOf (.dictionary (.primitive .int32) (.bytes .binary), false), false) := rfl
  have htuple : chToArrowType (.array (.tuple [.uint8])) (some .new) =
      .ok (listOf (.struct [⟨"field_0", .primitive .uint8, false⟩], false), false) := rfl
  have hlabels : (ArrowArray.dictionary .int8 [] none (.bytes .utf8 [] none)).Shaped :=
    .dictionary (fun _ hnulls => by cases hnulls) (.bytes fun _ hnulls => by cases hnulls)
  have hleft : (ArrowArray.primitive .uint8 [(7 : UInt8)] none).Shaped :=
    .primitive fun _ hnulls => by cases hnulls
  refine ⟨⟨hdictionary, ?_⟩, ⟨htuple, ?_⟩, ⟨emptyLists_emptyColumn hlabels, ?_⟩,
    emptyLists_emptyColumn hleft, rfl⟩
  · rw [readsZeroRows_iff_readsNothing hdictionary]
    decide
  · rw [readsZeroRows_iff_readsNothing htuple]
    decide
  · intro h
    cases h

end Arrow

end ClickhouseArrow
