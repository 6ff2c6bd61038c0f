import ClickhouseArrow.Arrow.NestedParts

/-!
# The types of nested columns

Something is announced for the type of every nested column.  What is read is of the data type
announced unless a string of a map is announced as bytes; there the struct of keys and values is not
made, and no such column is read.
-/

namespace ClickhouseArrow

open Wire

namespace Arrow

/-! ## Induction -/

/-- A column without parts. -/
theorem Nested.flat {t : ChType} {a : ArrowArray} (h : Nested t a)
    (ht : isPlain t.stripNull = true) :
    ∃ nullable column, t = stringType nullable column.type ∧ a = FlatColumn.array column := by
  cases t with
  | nullable inner =>
    obtain ⟨column, rfl, rfl⟩ := h
    exact ⟨true, column, rfl, rfl⟩
  | array inner => cases ht
  | tuple items => cases ht
  | map key value => cases ht
  | lowCardinality inner => cases ht
  | _ =>
    obtain ⟨column, htype, rfl⟩ := h
    exact ⟨false, column, htype.symm, rfl⟩

theorem nested_of_leaf {t : ChType} {a : ArrowArray} (h : LeafColumn t a)
    (hcolumn : ∃ column : FlatColumn, column.type = t ∧ column.array = a) : Nested t a := by
  cases h <;> exact hcolumn

/-- A column without parts is a nested one, nullable or not. -/
theorem FlatColumn.nested (nullable : Bool) (column : FlatColumn) :
    Nested (stringType nullable column.type) column.array := by
  cases nullable with
  | true => exact ⟨column, rfl, rfl⟩
  | false => exact nested_of_leaf column.leaf ⟨column, rfl, rfl⟩

/-- Induction over a nested column: it has no parts, or is made of nested columns. -/
@[elab_as_elim]
theorem Nested.inductionOn {motive : ∀ (t : ChType) (a : ArrowArray), Nested t a → Prop}
    (flat : ∀ (nullable : Bool) (column : FlatColumn), motive _ _ (column.nested nullable))
    (list : ∀ {inner : ChType} (large : Bool) (item : Field) (offsets : List Nat)
      {values : ArrowArray} (nulls : Nulls) (hitem : item.dataType = values.dataType)
      (hlaid : Laid offsets nulls values.len) (hvalues : Nested inner values),
      motive inner values hvalues →
      motive (.array inner) (.list large item offsets values nulls)
        ⟨large, item, offsets, values, nulls, rfl, hitem, hlaid, hvalues⟩)
    (struct : ∀ {items : List ChType} {fields : List Field} {columns : List ArrowArray} {len : Nat}
      {nulls : Nulls} (hfit : nulls.Fit len) (hcolumns : NestedEach len items fields columns),
      (∀ t ∈ items, ∀ (a : ArrowArray) (ha : Nested t a), motive t a ha) →
      motive (.tuple items) (.struct fields columns len nulls)
        ⟨fields, columns, len, nulls, rfl, hfit, hcolumns⟩)
    (map : ∀ {key value : ChType} (name : String) (nullable : Bool) {keyField valueField : Field}
      (sorted : Bool) (offsets : List Nat) {keys values : ArrowArray} (nulls : Nulls)
      (hkey : keyField.dataType = keys.dataType) (hvalue : valueField.dataType = values.dataType)
      (hcount : values.len = keys.len) (hlaid : Laid offsets nulls keys.len)
      (hkeys : Nested key keys) (hvalues : Nested value values),
      motive key keys hkeys → motive value values hvalues →
      motive (.map key value)
        (.map ⟨name, .struct [keyField, valueField], nullable⟩ sorted offsets keys values nulls)
        ⟨name, nullable, keyField, valueField, sorted, offsets, keys, values, nulls, rfl, hkey,
          hvalue, hcount, hlaid, hkeys, hvalues⟩)
    {t : ChType} {a : ArrowArray} (h : Nested t a) : motive t a h := by
  induction t using ChType.inductionOn generalizing a with
  | hleaf t hflat =>
    have hplain : isPlain t.stripNull = true := by
      cases t with
      | nullable | lowCardinality | array | tuple | map => cases hflat
      | _ => rfl
    obtain ⟨nullable, column, rfl, rfl⟩ := h.flat hplain
    exact flat nullable column
  | hnullable inner _ =>
    obtain ⟨column, rfl, rfl⟩ := h
    exact flat true column
  -- A dictionary is none of the leaves.
  | hlowCardinality inner _ _ =>
    obtain ⟨column, htype, -⟩ := h
    have hleaf := column.leaf
    rw [htype] at hleaf
    cases hleaf
  | harray inner ih =>
    obtain ⟨large, item, offsets, values, nulls, rfl, hitem, hlaid, hvalues⟩ := h
    exact list large item offsets nulls hitem hlaid hvalues (ih hvalues)
  | htuple items ih =>
    obtain ⟨fields, columns, len, nulls, rfl, hfit, hcolumns⟩ := h
    exact struct hfit hcolumns fun t ht a hnested => ih t ht hnested
  | hmap key value ihkey ihvalue =>
    obtain ⟨name, nullable, kf, vf, sorted, offsets, keys, values, nulls, rfl, hkf, hvf, hcount,
      hlaid, hkeys, hvalues⟩ := h
    exact map name nullable sorted offsets nulls hkf hvf hcount hlaid hkeys hvalues (ihkey hkeys)
      (ihvalue hvalues)

/-! ## What is announced -/

section Announced

variable {options : Option ArrowOptions} {isNull n : Bool} {d : DataType}

theorem isLeafType_of_announced {t : ChType} {a : ArrowArray} (h : LeafColumn t a)
    (hd : arrowTypeOf options isNull t = .ok (d, n)) : isLeafType d = true ∧ n = isNull := by
  cases h with
  | dateTime64 hp =>
    rw [arrowTypeOf_dateTime64 hp options isNull] at hd
    cases hd
    exact ⟨rfl, rfl⟩
  | _ =>
    cases hd
    exact ⟨rfl, rfl⟩

theorem ownsNulls_of_announced {t : ChType} {a : ArrowArray} (h : Nested t a)
    (hd : arrowTypeOf options false t = .ok (d, n)) :
    ownsNulls d = true ∧ n = t.isNullable := by
  cases t with
  | array inner =>
    obtain ⟨item, -, rfl, rfl⟩ := arrowTypeOf_array hd
    exact ⟨rfl, rfl⟩
  | map key value =>
    obtain ⟨k, v, -, -, rfl, rfl⟩ := arrowTypeOf_map hd
    exact ⟨rfl, rfl⟩
  | tuple items =>
    obtain ⟨fields, -, rfl, rfl⟩ := arrowTypeOf_tuple hd
    exact ⟨rfl, rfl⟩
  | nullable inner =>
    obtain ⟨column, rfl, rfl⟩ := h
    obtain ⟨hleaf, rfl⟩ := isLeafType_of_announced column.leaf (arrowTypeOf_nullable hd).2
    exact ⟨ownsNulls_leaf hleaf, rfl⟩
  | _ =>
    obtain ⟨column, htype, rfl⟩ := h
    have hleaf := column.leaf
    rw [htype] at hleaf
    obtain ⟨hleaf, rfl⟩ := isLeafType_of_announced hleaf hd
    exact ⟨ownsNulls_leaf hleaf, rfl⟩

theorem exists_announced_flat (options : Option ArrowOptions) (column : FlatColumn)
    (isNull : Bool) : ∃ d, arrowTypeOf options isNull column.type = .ok (d, isNull) := by
  obtain ⟨d, hd, -⟩ := decodes_leaf options column.leaf
  exact ⟨d, hd isNull⟩

theorem exists_announced_each {len : Nat} {ts : List ChType}
    (ih : ∀ t ∈ ts, ∀ a, Nested t a → ∃ p, arrowTypeOf options false t = .ok p)
    {fields : List Field} {columns : List ArrowArray} (h : NestedEach len ts fields columns) :
    ∃ items, arrowTypesOf options ts = .ok items := by
  induction ts generalizing fields columns with
  | nil => exact ⟨[], rfl⟩
  | cons t ts ihts =>
    obtain ⟨f, fs, a, as, rfl, rfl, -, -, hhead, htail⟩ := h
    obtain ⟨item, hitem⟩ := ih t List.mem_cons_self a hhead
    obtain ⟨items, hitems⟩ := ihts (fun u hu => ih u (List.mem_cons_of_mem t hu)) htail
    exact ⟨item :: items, by rw [arrowTypesOf, hitem, Outcome.ok_bind, hitems, Outcome.ok_bind]⟩

/-- Something is announced for every nested type. -/
theorem exists_announced (options : Option ArrowOptions) {t : ChType} {a : ArrowArray}
    (h : Nested t a) : ∃ p, arrowTypeOf options false t = .ok p := by
  induction h using Nested.inductionOn with
  | flat nullable column =>
    obtain ⟨d, hd⟩ := exists_announced_flat options column nullable
    cases nullable with
    | false => exact ⟨_, hd⟩
    | true => exact ⟨_, hd⟩
  | @list inner large item offsets values nulls hitem hlaid hvalues ih =>
    obtain ⟨p, hp⟩ := ih
    refine ⟨(listOf p, false), ?_⟩
    rw [arrowTypeOf, if_neg (by simp), hp]
    rfl
  | struct hfit hcolumns ih =>
    obtain ⟨ps, hps⟩ := exists_announced_each ih hcolumns
    refine ⟨(.struct (tupleFields 0 ps), false), ?_⟩
    rw [arrowTypeOf, hps]
    rfl
  | map name nullable sorted offsets nulls hkey hvalue hcount hlaid hkeys hvalues ihkey ihvalue =>
    obtain ⟨k, hk⟩ := ihkey
    obtain ⟨v, hv⟩ := ihvalue
    refine ⟨(mapOf k.1 v, false), ?_⟩
    rw [arrowTypeOf, hk, Outcome.ok_bind, hv]
    rfl

end Announced

/-! ## Types that are not read -/

section Unread

variable {options : Option ArrowOptions} {inMap n : Bool} {d : DataType} {b : TypedBuilder}

theorem fits_leaf {t : ChType} {a : ArrowArray} (h : LeafColumn t a)
    (hstring : t = .string → inMap = true → wantsStrings options = true) :
    fitsBuilder options inMap t = true := by
  have hwidth {n : Nat} (hn : n < 2 ^ 31) : 0 ≤ (i32OfUsize n).toInt := by
    rw [i32OfUsize, Int32.toInt_ofNat_of_lt hn]
    omega
  have hscale {s p : Nat} (hs : s ≤ p) (hp : p ≤ 76) : (i8OfUsize s).toInt ≤ p := by
    rw [toInt_scale (hs.trans hp)]
    omega
  cases h with
  | string _ =>
    rw [fitsBuilder]
    cases inMap with
    | false => rfl
    | true => exact hstring rfl rfl
  | fixedSizedString h => exact decide_eq_true (hwidth h.lt)
  | fixedSizedBinary h => exact decide_eq_true (hwidth h.lt)
  | decimal32 hs => exact decide_eq_true (hscale hs (by decide))
  | decimal64 hs => exact decide_eq_true (hscale hs (by decide))
  | decimal128 hs => exact decide_eq_true (hscale hs (by decide))
  | decimal256 hs => exact decide_eq_true (hscale hs (by decide))
  | _ => rfl

theorem fitsBuilder_stringType (nullable : Bool) (t : ChType) :
    fitsBuilder options inMap (stringType nullable t) = fitsBuilder options inMap t := by
  cases nullable <;> rfl

/-- A string in a map is read as text, whatever is announced. -/
theorem fits_of_read_flat {nullable : Bool} {column : FlatColumn}
    (h : arrowTypeOf options false (stringType nullable column.type) = .ok (d, n)) {s : Nat}
    (hb : TypedBuilder.tryNewOf s (hintOf inMap (stringType nullable column.type) d) d = .ok b)
    {json : Bytes → Bytes} {rows : Nat} {nulls bytes : Bytes} {x : ArrowArray × Bytes}
    (hread : deserializeArrowAsync json (hintOf inMap (stringType nullable column.type) d) b d rows
      nulls bytes = .ok x)
    (hx : inMap = true → x.1.dataType = d) :
    fitsBuilder options inMap (stringType nullable column.type) = true := by
  rw [fitsBuilder_stringType]
  refine fits_leaf column.leaf fun htype hmap => ?_
  subst hmap
  replace hread : deserializeArrowAsync json (stringType nullable column.type) b d rows nulls
    bytes = .ok x := hread
  replace hb : TypedBuilder.tryNewOf s (stringType nullable column.type) d = .ok b := hb
  rw [htype] at h hb hread
  have hd : d = .bytes (if wantsStrings options then .utf8 else .binary) := by
    cases nullable with
    | false =>
      cases h
      rfl
    | true =>
      have hinner := (arrowTypeOf_nullable h).2
      cases hinner
      rfl
  -- In a map the reader takes the text arm, which gives text.
  have hstring : b = .string ∧ ∃ mask rest, deserializeArrowAsync json .string b d rows mask rest =
      .ok x := by
    cases nullable with
    | false =>
      cases hb
      exact ⟨rfl, _, _, hread⟩
    | true =>
      cases s with
      | zero => cases hb
      | succ s =>
        cases hb
        obtain ⟨mask, rest, -, hread⟩ := Reader.bind_eq_ok.mp hread
        exact ⟨rfl, _, _, hread⟩
  obtain ⟨rfl, mask, rest, hread⟩ := hstring
  have hserves : Serves .string .string (.bytes .utf8) := ⟨⟨.bytes .utf8, rfl⟩, rfl⟩
  have hdecoded := deserializeArrowAsync_decoded json hserves rows mask rest x hread
  have hsame := hdecoded.dataType_eq.symm.trans (hx rfl)
  rw [hd] at hsame
  cases hwants : wantsStrings options with
  | true => rfl
  | false =>
    rw [hwants] at hsame
    cases hsame

/-- A list that is read has had its items read. -/
theorem Lists.exists_items {inner : ChType} {decode : Decode} {f : Field} {rows : Nat}
    {nulls bytes : Bytes} {x : ArrowArray × Bytes}
    (h : Lists.deserializeAsync inner decode (.list .list b) (.list false f) rows nulls bytes =
      .ok x) :
    ∃ total rest y, decode b f.dataType total [] rest = .ok y ∧
      x.1.dataType = .list false ⟨listItemFieldName, y.1.dataType,
        inner.stripLowCardinality.isNullable⟩ := by
  obtain ⟨offsets, r, -, h⟩ := Reader.bind_eq_ok.mp h
  obtain ⟨buffer, r, -, h⟩ := Reader.bind_eq_ok.mp h
  obtain ⟨values, r', hvalues, h⟩ := Reader.bind_eq_ok.mp h
  obtain ⟨array, r'', hnew, h⟩ := Reader.bind_eq_ok.mp h
  refine ⟨_, _, _, hvalues, ?_⟩
  have hlist := ListArray.eq_of_new (ofOutcome_eq_ok hnew).1
  split_ifs at h with hlen
  · cases h
  · cases h
    rw [show array = _ from hlist]
    rfl

/-- A map that is read has had its keys and its values read, of the data types of its fields. -/
theorem Maps.exists_parts {decodeKey decodeValue : Decode} {k v : TypedBuilder} {name : String}
    {keyField valueField : Field} {nullable sorted : Bool} {rows : Nat} {nulls bytes : Bytes}
    {x : ArrowArray × Bytes}
    (h : Maps.deserializeAsync decodeKey decodeValue (.map k v)
      (.map ⟨name, .struct [keyField, valueField], nullable⟩ sorted) rows nulls bytes = .ok x) :
    ∃ total r r' y z, decodeKey k keyField.dataType total [] r = .ok y ∧
      y.1.dataType = keyField.dataType ∧ decodeValue v valueField.dataType total [] r' = .ok z ∧
      z.1.dataType = valueField.dataType := by
  obtain ⟨fields, r, hfields, h⟩ := Reader.bind_eq_ok.mp h
  cases hfields
  obtain ⟨offsets, r, -, h⟩ := Reader.bind_eq_ok.mp h
  obtain ⟨buffer, r, -, h⟩ := Reader.bind_eq_ok.mp h
  obtain ⟨keys, r', hkeys, h⟩ := Reader.bind_eq_ok.mp h
  obtain ⟨values, r'', hvalues, h⟩ := Reader.bind_eq_ok.mp h
  obtain ⟨entries, r3, hentries, -⟩ := Reader.bind_eq_ok.mp h
  have htypes :=
    StructArray.types_of_tryNewWithLength (unwrap_eq_ok.mp (ofOutcome_eq_ok hentries).1)
  simp only [List.map_cons, List.cons.injEq] at htypes
  exact ⟨_, _, _, _, _, hkeys, htypes.1, hvalues, htypes.2.1⟩

/-- A part that is read as an array of the data type announced, if it stands in a map, fits. -/
def FitsWhereRead (options : Option ArrowOptions) (inMap : Bool) (t : ChType) : Prop :=
  ∀ (a : ArrowArray) (d : DataType) (n : Bool) (s : Nat) (b : TypedBuilder) (json : Bytes → Bytes)
    (rows : Nat) (nulls bytes : Bytes) (x : ArrowArray × Bytes), Nested t a →
    arrowTypeOf options false t = .ok (d, n) →
    TypedBuilder.tryNewOf s (hintOf inMap t d) d = .ok b →
    deserializeArrowAsync json (hintOf inMap t d) b d rows nulls bytes = .ok x →
    (inMap = true → x.1.dataType = d) → fitsBuilder options inMap t = true

theorem fits_of_read_each {json : Bytes → Bytes} {ts : List ChType}
    (ih : ∀ t ∈ ts, FitsWhereRead options inMap t) {len : Nat} {fields : List Field}
    {columns : List ArrowArray} (hnested : NestedEach len ts fields columns)
    {items : List (DataType × Bool)} (h : arrowTypesOf options ts = .ok items) (i : Nat)
    {bs : List TypedBuilder}
    (hbs : TypedBuilder.tryNews (hintsOf inMap ts (tupleFields i items)) (tupleFields i items) =
      .ok bs) {rows : Nat} {bytes : Bytes} {x : List ArrowArray × Bytes}
    (hread : deserializeColumnsAsync json (hintsOf inMap ts (tupleFields i items)) bs
      (tupleFields i items) rows bytes = .ok x)
    (hx : x.1.map ArrowArray.dataType = (tupleFields i items).map FieldOf.dataType) :
    fitsBuilders options inMap ts = true := by
  induction ts generalizing fields columns items i bs bytes x with
  | nil => rfl
  | cons t ts ihts =>
    obtain ⟨f, fs, a, as, rfl, rfl, -, -, hhead, htail⟩ := hnested
    obtain ⟨item, rest, hitem, hrest, rfl⟩ := arrowTypesOf_cons h
    obtain ⟨b, hb, hbs⟩ := Outcome.bind_eq_ok.mp hbs
    obtain ⟨bs', hbs', hbs⟩ := Outcome.bind_eq_ok.mp hbs
    cases hbs
    obtain ⟨array, r, harray, hread⟩ := Reader.bind_eq_ok.mp hread
    obtain ⟨arrays, r', harrays, hread⟩ := Reader.bind_eq_ok.mp hread
    cases hread
    obtain ⟨hxHead, hxTail⟩ := List.cons.inj hx
    rw [fitsBuilders, Bool.and_eq_true]
    constructor
    · exact ih t List.mem_cons_self a _ _ _ b json _ _ _ _ hhead hitem hb harray fun _ => hxHead
    · exact ihts (fun u hu => ih u (List.mem_cons_of_mem t hu)) htail hrest (i + 1) hbs' harrays
        hxTail

theorem itemAgrees_of_nested {t : ChType} {a : ArrowArray} (h : Nested t a) :
    itemAgrees options inMap t = true := by
  have hleaf (column : FlatColumn) : isDictionary column.type = false := by
    obtain ⟨u, a', hleaf, -, -, -, -⟩ := column
    cases hleaf <;> rfl
  cases t with
  | nullable inner =>
    obtain ⟨column, rfl, -⟩ := h
    have hplain := hleaf column
    cases hcase : column.type with
    | lowCardinality y => simp [hcase, isDictionary] at hplain
    | _ => rfl
  | lowCardinality inner =>
    obtain ⟨column, htype, -⟩ := h
    have hplain := hleaf column
    simp [htype, isDictionary] at hplain
  | _ => rfl

/-- A nested type of which a column is read fits. -/
theorem fitsWhereRead (options : Option ArrowOptions) (inMap : Bool) (t : ChType) :
    FitsWhereRead options inMap t := by
  intro a d n s b json rows nulls bytes x hnested h hb hread hx
  induction hnested using Nested.inductionOn generalizing inMap d n s b json rows nulls bytes
    x with
  | flat nullable column => exact fits_of_read_flat h hb hread hx
  | list large item offsets _ hitem hlaid hvalues ih =>
    obtain ⟨item', hitem', rfl, -⟩ := arrowTypeOf_array h
    rw [hintOf_array] at hb hread
    obtain ⟨bi, hbi, rfl⟩ := Outcome.map_eq_ok.mp hb
    obtain ⟨total, rest, y, hy, hxy⟩ := Lists.exists_items hread
    rw [fitsBuilder, Bool.and_eq_true]
    refine ⟨ih inMap _ _ _ bi json _ _ _ y hitem' hbi hy fun hmap => ?_,
      itemAgrees_of_nested hvalues⟩
    have hsame := hxy.symm.trans (hx hmap)
    exact congrArg FieldOf.dataType (DataType.list.inj hsame).2
  | @struct items fields columns len nulls' hfit hcolumns ih =>
    obtain ⟨ps, hps, rfl, -⟩ := arrowTypeOf_tuple h
    have hlength := length_of_arrowTypesOf hps 0
    rw [hintOf_tuple inMap hlength] at hb hread
    rw [TypedBuilder.tryNewOf, if_neg (not_not.mpr (length_hintsOf inMap hlength))] at hb
    obtain ⟨bs, hbs, rfl⟩ := Outcome.map_eq_ok.mp hb
    -- Without rows the placeholder is what was read.
    by_cases hzero : rows = 0
    · subst hzero
      replace hread : Reader.ofOutcome (StructArray.tryNewWithLength (tupleFields 0 ps)
        Tuples.emptyColumns none 0) bytes = .ok x := hread
      exact fitsBuilder_of_readsNothing
        (readsNothing_of_placeholder hps (ofOutcome_eq_ok hread).1)
    · have hif : (if rows = 0 then Reader.ofOutcome (StructArray.tryNewWithLength
          (tupleFields 0 ps) Tuples.emptyColumns none 0) else do
            let arrays ← deserializeColumnsAsync json (hintsOf inMap items (tupleFields 0 ps)) bs
              (tupleFields 0 ps) rows
            Reader.ofOutcome (StructArray.new (tupleFields 0 ps) arrays (nestedNulls nulls)))
              bytes = .ok x := hread
      rw [if_neg hzero] at hif
      -- With rows the struct is made of the columns, whose types are then those of its fields.
      obtain ⟨arrays, r, harrays, hnew⟩ := Reader.bind_eq_ok.mp hif
      have hnew' := (ofOutcome_eq_ok hnew).1
      obtain ⟨first, others, rfl, -⟩ := StructArray.eq_of_new hnew'
      have htypes := StructArray.types_of_tryNewWithLength (unwrap_eq_ok.mp hnew')
      have hall : ∀ t ∈ items, FitsWhereRead options inMap t :=
        fun t ht a d n s b json rows nulls bytes x ha => ih t ht a ha inMap d n s b json rows nulls
          bytes x
      exact fits_of_read_each hall hcolumns hps 0 hbs harrays htypes
  | map name nullable sorted offsets _ hkey hvalue hcount hlaid hkeys hvalues ihkey ihvalue =>
    obtain ⟨k, v, hk, hv, rfl, -⟩ := arrowTypeOf_map h
    rw [hintOf_map] at hb hread
    obtain ⟨fs, hfs, hb⟩ := Outcome.bind_eq_ok.mp hb
    cases hfs
    obtain ⟨bk, hbk, hb⟩ := Outcome.bind_eq_ok.mp hb
    obtain ⟨bv, hbv, hb⟩ := Outcome.bind_eq_ok.mp hb
    cases hb
    obtain ⟨total, r, r', y, z, hy, hyType, hz, hzType⟩ := Maps.exists_parts hread
    rw [fitsBuilder, Bool.and_eq_true]
    exact ⟨ihkey true _ _ _ bk json _ _ _ y hk hbk hy fun _ => hyType,
      ihvalue true _ _ _ bv json _ _ _ z hv hbv hz fun _ => hzType⟩

end Unread

end Arrow

end ClickhouseArrow
