import ClickhouseArrow.Arrow.BatchRoundTrip

/-!
# Batches of announced types

A batch whose fields are those that are announced for given types is written with the header that
names these types, and is read with the same options at the same revision.  The module says which
batches come back with their names, their Arrow types and their cells.
-/

namespace ClickhouseArrow

open Wire

/-! ## Types -/

namespace ChType

variable {lex : Lexicon}

/-- No enum, no dictionary, no `Object` and no geo type is in the type; its sizes are those of a
`usize`, and its zones are in the table. -/
def Ordinary (lex : Lexicon) : ChType → Prop
  | .enum8 _ | .enum16 _ | .lowCardinality _ | .object => False
  | .point | .ring | .polygon | .multiPolygon => False
  | .fixedSizedString n | .fixedSizedBinary n => n ≤ usizeMax
  | .dateTime tz | .dateTime64 _ tz => NameableTz lex tz
  | .nullable inner | .array inner => inner.Ordinary lex
  | .tuple items => ordinaries lex items
  | .map key value => key.Ordinary lex ∧ value.Ordinary lex
  | _ => True
where
  ordinaries (lex : Lexicon) : List ChType → Prop
    | [] => True
    | t :: ts => t.Ordinary lex ∧ ordinaries lex ts

theorem ordinaries_iff {items : List ChType} :
    Ordinary.ordinaries lex items ↔ ∀ t ∈ items, t.Ordinary lex := by
  induction items with
  | nil => simp [Ordinary.ordinaries]
  | cons t ts ih => simp [Ordinary.ordinaries, ih]

theorem Ordinary.quotable {t : ChType} (h : t.Ordinary lex) : t.Quotable := by
  induction t using inductionOn with
  | hleaf t hflat =>
      cases t with
      | nullable | lowCardinality | array | tuple | map => cases hflat
      | enum8 | enum16 => exact h.elim
      | dateTime tz | dateTime64 precision tz => exact h.2
      | _ => trivial
  | hnullable inner ih => exact ih h
  | hlowCardinality => exact h.elim
  | harray inner ih => exact ih h
  | htuple items ih =>
      exact quotables_iff.mpr fun t ht => ih t ht (ordinaries_iff.mp h t ht)
  | hmap key value ihkey ihvalue => exact ⟨ihkey h.1, ihvalue h.2⟩

theorem Ordinary.sizes_le {t : ChType} (h : t.Ordinary lex) :
    ∀ n ∈ t.sizes, n ≤ usizeMax := by
  induction t using inductionOn with
  | hleaf t hflat =>
      cases t with
      | nullable | lowCardinality | array | tuple | map => cases hflat
      | fixedSizedString n | fixedSizedBinary n =>
          intro m hm
          obtain rfl := List.mem_singleton.mp hm
          exact h
      | _ => exact fun n hn => absurd hn List.not_mem_nil
  | hnullable inner ih => exact ih h
  | hlowCardinality => exact h.elim
  | harray inner ih => exact ih h
  | htuple items ih =>
      rw [sizes, sizesOf_eq]
      intro n hn
      obtain ⟨t, ht, hmem⟩ := List.mem_flatMap.mp hn
      exact ih t ht (ordinaries_iff.mp h t ht) n hmem
  | hmap key value ihkey ihvalue =>
      intro n hn
      rcases List.mem_append.mp hn with hn | hn
      · exact ihkey h.1 n hn
      · exact ihvalue h.2 n hn

theorem checkScale_iff {s max : Nat} {msg : List Fragment} :
    checkScale s max msg = .ok () ↔ 0 < s ∧ s ≤ max := by
  unfold checkScale
  split_ifs with hbad
  · exact iff_of_false (fun h => by cases h) (by omega)
  · exact iff_of_true rfl (by omega)

/-- The name of an accepted type without empty strings is read back. -/
theorem Ordinary.parametersInRange {t : ChType} (h : t.Ordinary lex)
    (hvalid : t.validate = .ok ()) (hsizes : ∀ n ∈ t.sizes, 0 < n) :
    t.ParametersInRange lex := by
  induction t using inductionOn with
  | hleaf t hflat =>
      cases t with
      | nullable | lowCardinality | array | tuple | map => cases hflat
      | enum8 | enum16 => exact h.elim
      | decimal32 s | decimal64 s | decimal128 s | decimal256 s => exact checkScale_iff.mp hvalid
      | fixedSizedString n | fixedSizedBinary n => exact ⟨hsizes n List.mem_cons_self, h⟩
      | dateTime tz => exact h
      | dateTime64 precision tz =>
          have hprecision := (checkScale_iff.mp hvalid).2
          exact ⟨hprecision.trans (by decide), h⟩
      | _ => trivial
  | hnullable inner ih => exact ih h (validate_nullable hvalid).2 hsizes
  | hlowCardinality => exact h.elim
  | harray inner ih => exact ih h (validate_array hvalid) hsizes
  | htuple items ih =>
      rw [sizes, sizesOf_eq] at hsizes
      refine inRanges_iff.mpr fun t ht => ?_
      exact ih t ht (ordinaries_iff.mp h t ht) (validate_tuple hvalid t ht)
        fun n hn => hsizes n (List.mem_flatMap.mpr ⟨t, ht, hn⟩)
  | hmap key value ihkey ihvalue =>
      obtain ⟨hkey, hvalue⟩ := validate_map hvalid
      exact ⟨ihkey h.1 hkey fun n hn => hsizes n (List.mem_append_left _ hn),
        ihvalue h.2 hvalue fun n hn => hsizes n (List.mem_append_right _ hn)⟩

end ChType

namespace Arrow

/-! ## Arrays -/

/-- The bytes of a value of the type. -/
def PrimitiveType.bytes : PrimitiveType → Nat
  | .int8 | .uint8 => 1
  | .int16 | .uint16 | .float16 => 2
  | .int32 | .uint32 | .float32 | .decimal32 _ _ | .date32 | .time32 _ | .interval .yearMonth => 4
  | .int64 | .uint64 | .float64 | .decimal64 _ _ | .date64 | .time64 _ | .duration _
  | .interval .dayTime | .timestamp _ _ => 8
  | .decimal128 _ _ | .interval .monthDayNano => 16
  | .decimal256 _ _ => 32

theorem PrimitiveType.bytes_pos (t : PrimitiveType) : 0 < t.bytes := by
  cases t with
  | interval unit => cases unit <;> exact Nat.succ_pos _
  | _ => exact Nat.succ_pos _

/-- An array that no slice has cut: the rows of lists and maps lie one behind the other over all
the values, text is UTF-8, and there are no more rows and bytes than fit in memory. -/
inductive Unsliced : ArrowArray → Prop
  | primitive {t values nulls} : nulls.Fit values.length → values.length * t.bytes ≤ isizeMax →
      Unsliced (.primitive t values nulls)
  | fixedSizeBinary {n : Nat} {size : Int32} {values nulls} : OfLength n size values →
      nulls.Fit values.length → values.length ≤ isizeMax → values.length * n ≤ isizeMax →
      Unsliced (.fixedSizeBinary size values nulls)
  | bytes {t values nulls} : IsText t values → nulls.Fit values.length →
      values.length ≤ isizeMax → (∀ v ∈ values, v.length ≤ isizeMax) →
      Unsliced (.bytes t values nulls)
  | list {large item offsets values nulls} : item.dataType = values.dataType →
      Laid offsets nulls values.len → Unsliced values →
      Unsliced (.list large item offsets values nulls)
  | struct {fields columns len nulls} :
      fields.map FieldOf.dataType = columns.map ArrowArray.dataType →
      (∀ a ∈ columns, a.len = len) → (∀ a ∈ columns, Unsliced a) → nulls.Fit len →
      len ≤ isizeMax → Unsliced (.struct fields columns len nulls)
  | map {name nullable sorted offsets keys values nulls} {keyField valueField : Field} :
      keyField.dataType = keys.dataType → valueField.dataType = values.dataType →
      values.len = keys.len → Laid offsets nulls keys.len → Unsliced keys → Unsliced values →
      Unsliced (.map ⟨name, .struct [keyField, valueField], nullable⟩ sorted offsets keys values
        nulls)

namespace Unsliced

variable {a : ArrowArray}

theorem len_le (h : Unsliced a) : a.len ≤ isizeMax := by
  cases h with
  | @primitive t values nulls hfit hsized =>
    exact (Nat.le_mul_of_pos_right _ t.bytes_pos).trans hsized
  | fixedSizeBinary _ _ hrows _ => exact hrows
  | bytes _ _ hrows _ => exact hrows
  | list _ hlaid _ | map _ _ _ hlaid _ _ =>
    have hsized := hlaid.sized
    simp only [ArrowArray.len]
    omega
  | struct _ _ _ _ hlen => exact hlen

theorem of_primitive (h : Unsliced a) {p : PrimitiveType}
    (hd : a.dataType = .primitive p) : ∃ values nulls, a = .primitive p values nulls ∧
      values.length * p.bytes ≤ isizeMax := by
  cases h with
  | @primitive t values nulls _ hsized =>
    obtain rfl : t = p := DataType.primitive.inj hd
    exact ⟨values, nulls, rfl, hsized⟩
  | _ => cases hd

theorem of_fixedSizeBinary (h : Unsliced a) {n : Nat} {size : Int32}
    (hn : size.toInt = n) (hd : a.dataType = .fixedSizeBinary size) :
    ∃ values nulls, a = .fixedSizeBinary size values nulls ∧ OfLength n size values ∧
      values.length * n ≤ isizeMax := by
  cases h with
  | @fixedSizeBinary n' size' values nulls hlength _ _ hsized =>
    obtain rfl : size' = size := DataType.fixedSizeBinary.inj hd
    obtain rfl : n' = n := by
      have hsize := hlength.1
      omega
    exact ⟨values, nulls, rfl, hlength, hsized⟩
  | _ => cases hd

theorem of_bytes (h : Unsliced a) {t : BytesType}
    (hd : a.dataType = .bytes t) : ∃ values nulls, a = .bytes t values nulls ∧ IsText t values := by
  cases h with
  | @bytes t' values nulls htext _ _ _ =>
    obtain rfl : t' = t := DataType.bytes.inj hd
    exact ⟨values, nulls, rfl, htext⟩
  | _ => cases hd

/-- The bytes of an array without parts have an address. -/
theorem addressed (h : Unsliced a) (hd : isLeafType a.dataType = true) :
    ∀ b, some (.bytes b) ∈ leafRows a → b.length ≤ isizeMax := by
  have hmem {values : List Bytes} {nulls : Nulls} {b : Bytes}
      (hb : some (.bytes b) ∈ (slots values nulls).map (Option.map Leaf.bytes)) : b ∈ values := by
    obtain ⟨row, hrow, hleaf⟩ := List.mem_map.mp hb
    obtain ⟨v, rfl, hv⟩ := Option.map_eq_some_iff.mp hleaf
    cases hv
    exact mem_of_slots hrow
  intro b hb
  cases h with
  | @primitive t values nulls hfit hsized =>
    obtain ⟨row, -, hleaf⟩ := List.mem_map.mp hb
    obtain ⟨v, rfl, hv⟩ := Option.map_eq_some_iff.mp hleaf
    have hoctets {n : Nat} (o : Octets n) (ho : Leaf.bytes o.bytes = .bytes b) (hn : n ≤ 32) :
        b.length ≤ isizeMax := by
      cases ho
      rw [o.length_eq]
      exact hn.trans (by decide)
    -- Only some of the values are shown by their bytes.
    cases t with
    | decimal256 precision scale => exact hoctets v hv le_rfl
    | interval unit =>
      cases unit with
      | yearMonth => cases hv
      | dayTime => exact hoctets v hv (by decide)
      | monthDayNano => exact hoctets v hv (by decide)
    | _ => cases hv
  | fixedSizeBinary hlength =>
    have hlt := hlength.lt
    rw [hlength.2 b (hmem hb)]
    unfold isizeMax
    omega
  | bytes _ _ _ haddressed => exact haddressed b (hmem hb)
  | _ => cases hd

theorem fit (h : Unsliced a) (hd : isLeafType a.dataType = true) : a.nulls.Fit a.len := by
  cases h with
  | primitive hfit _ => exact hfit
  | fixedSizeBinary _ hfit _ _ => exact hfit
  | bytes _ hfit _ _ => exact hfit
  | _ => cases hd

end Unsliced

/-! ## Arrays of announced data types -/

section Image

variable {options : Option ArrowOptions} {lex : Lexicon}

/-- An array of the data type that is announced for the alias of a type without parts is a column
of the type. -/
theorem leafColumn_of_image {t : ChType} {isNull n : Bool} {d : DataType} {a : ArrowArray}
    (hflat : t.isComposite = false) (hordinary : t.Ordinary lex) (hvalid : t.validate = .ok ())
    (hsizes : ∀ n ∈ t.sizes, n < 2 ^ 31)
    (hannounced : arrowTypeOf options isNull t.unaliased = .ok (d, n))
    (ha : Unsliced a) (hd : a.dataType = d) :
    LeafColumn t a ∧ a.len * (lengthOf t).getD 0 ≤ isizeMax := by
  have hprimitive {p : PrimitiveType} (h : DataType.primitive p = d) :=
    ha.of_primitive (p := p) (hd.trans h.symm)
  have hfixed {m : Nat} {size : Int32} (h : DataType.fixedSizeBinary size = d)
      (hm : size.toInt = m) := ha.of_fixedSizeBinary hm (hd.trans h.symm)
  cases t with
  | nullable | lowCardinality | array | tuple | map => cases hflat
  | enum8 | enum16 | object | point | ring | polygon | multiPolygon => exact hordinary.elim
  | string =>
    obtain ⟨rfl, -⟩ := Prod.mk.inj (Except.ok.inj hannounced)
    obtain ⟨values, nulls, rfl, htext⟩ := ha.of_bytes hd
    exact ⟨.string htext, by simp [lengthOf]⟩
  | binary =>
    obtain ⟨rfl, -⟩ := Prod.mk.inj (Except.ok.inj hannounced)
    obtain ⟨values, nulls, rfl, htext⟩ := ha.of_bytes hd
    exact ⟨.binary htext, by simp [lengthOf]⟩
  | fixedSizedString m =>
    obtain ⟨h, -⟩ := Prod.mk.inj (Except.ok.inj hannounced)
    obtain ⟨values, nulls, rfl, hlength, hsized⟩ :=
      hfixed h (Int32.toInt_ofNat_of_lt (hsizes m List.mem_cons_self))
    exact ⟨.fixedSizedString hlength, hsized⟩
  | fixedSizedBinary m =>
    obtain ⟨h, -⟩ := Prod.mk.inj (Except.ok.inj hannounced)
    obtain ⟨values, nulls, rfl, hlength, hsized⟩ :=
      hfixed h (Int32.toInt_ofNat_of_lt (hsizes m List.mem_cons_self))
    exact ⟨.fixedSizedBinary hlength, hsized⟩
  | ipv4 | ipv6 | uuid | int128 | uint128 | int256 | uint256 =>
    obtain ⟨h, -⟩ := Prod.mk.inj (Except.ok.inj hannounced)
    obtain ⟨values, nulls, rfl, hlength, hsized⟩ := hfixed h rfl
    exact ⟨by constructor; exact hlength, hsized⟩
  | dateTime64 p tz =>
    replace hannounced : arrowTypeOf options isNull (.dateTime64 p tz) = .ok (d, n) := hannounced
    have hp : p ≤ 9 := by
      by_contra hlarge
      rw [arrowTypeOf, if_neg (by omega), if_neg (by omega), if_neg (by omega), if_neg (by omega)]
        at hannounced
      cases hannounced
    rw [arrowTypeOf_dateTime64 hp] at hannounced
    obtain ⟨h, -⟩ := Prod.mk.inj (Except.ok.inj hannounced)
    obtain ⟨values, nulls, rfl, hsized⟩ := hprimitive h
    exact ⟨.dateTime64 hp, hsized⟩
  | decimal32 s | decimal64 s | decimal128 s | decimal256 s =>
    obtain ⟨h, -⟩ := Prod.mk.inj (Except.ok.inj hannounced)
    obtain ⟨values, nulls, rfl, hsized⟩ := hprimitive h
    refine ⟨by constructor; exact (ChType.checkScale_iff.mp hvalid).2, ?_⟩
    simp only [lengthOf, Option.getD_some, PrimitiveType.bytes, ArrowArray.len] at hsized ⊢
    omega
  | _ =>
    obtain ⟨h, -⟩ := Prod.mk.inj (Except.ok.inj hannounced)
    obtain ⟨values, nulls, rfl, hsized⟩ := hprimitive h
    refine ⟨by constructor, ?_⟩
    simp only [lengthOf, Option.getD_some, PrimitiveType.bytes, ArrowArray.len] at hsized ⊢
    omega

theorem nestedEach_of_image {items : List ChType}
    (ih : ∀ t ∈ items, t.Ordinary lex → t.validate = .ok () → (∀ n ∈ t.sizes, n < 2 ^ 31) →
      ∀ (d : DataType) (n : Bool) (a : ArrowArray),
        arrowTypeOf options false t.unaliased = .ok (d, n) →
        Unsliced a → a.dataType = d → Nested t a)
    (hordinary : ∀ t ∈ items, t.Ordinary lex) (hvalid : ∀ t ∈ items, t.validate = .ok ())
    (hsizes : ∀ n ∈ ChType.sizes.sizesOf items, n < 2 ^ 31) {ps : List (DataType × Bool)}
    (hps : arrowTypesOf options (items.map ChType.unaliased) = .ok ps) {i len : Nat}
    {columns : List ArrowArray}
    (htypes : (tupleFields i ps).map FieldOf.dataType = columns.map ArrowArray.dataType)
    (hlens : ∀ a ∈ columns, a.len = len) (hall : ∀ a ∈ columns, Unsliced a) :
    NestedEach len items (tupleFields i ps) columns := by
  induction items generalizing i ps columns with
  | nil =>
    cases hps
    exact ⟨rfl, List.map_eq_nil_iff.mp htypes.symm⟩
  | cons t ts ihts =>
    obtain ⟨item, rest, hitem, hrest, rfl⟩ := arrowTypesOf_cons hps
    cases columns with
    | nil => cases htypes
    | cons a as =>
      simp only [tupleFields, List.map_cons, List.cons.injEq] at htypes
      rw [ChType.sizes.sizesOf] at hsizes
      rw [List.forall_mem_cons] at hlens hall hordinary hvalid
      refine ⟨_, _, a, as, rfl, rfl, htypes.1, hlens.1, ?_, ?_⟩
      · exact ih t List.mem_cons_self hordinary.1 hvalid.1
          (fun n hn => hsizes n (List.mem_append_left _ hn)) _ _ a hitem hall.1 htypes.1.symm
      · exact ihts (fun u hu => ih u (List.mem_cons_of_mem t hu)) hordinary.2 hvalid.2
          (fun n hn => hsizes n (List.mem_append_right _ hn)) hrest htypes.2 hlens.2 hall.2

theorem flatColumn_of_image {t : ChType} {isNull n : Bool} {d : DataType} {a : ArrowArray}
    (hflat : t.isComposite = false) (hordinary : t.Ordinary lex) (hvalid : t.validate = .ok ())
    (hsizes : ∀ n ∈ t.sizes, n < 2 ^ 31)
    (hannounced : arrowTypeOf options isNull t.unaliased = .ok (d, n))
    (ha : Unsliced a) (hd : a.dataType = d) :
    ∃ column : FlatColumn, column.type = t ∧ column.array = a := by
  obtain ⟨hleaf, hsized⟩ := leafColumn_of_image hflat hordinary hvalid hsizes hannounced ha hd
  have htype := isLeafType_leaf hleaf
  exact ⟨⟨t, a, hleaf, ha.fit htype, ha.len_le, hsized, ha.addressed htype⟩, rfl, rfl⟩

/-- An unsliced array of the data type that is announced for the alias of a type is a nested column
of the type itself. -/
theorem nested_of_image {t : ChType} {d : DataType} {n : Bool} {a : ArrowArray}
    (hordinary : t.Ordinary lex) (hvalid : t.validate = .ok ())
    (hsizes : ∀ n ∈ t.sizes, n < 2 ^ 31)
    (hannounced : arrowTypeOf options false t.unaliased = .ok (d, n))
    (ha : Unsliced a) (hd : a.dataType = d) : Nested t a := by
  induction t using ChType.inductionOn generalizing d n a with
  | hleaf t hflat =>
    have hcolumn := flatColumn_of_image hflat hordinary hvalid hsizes hannounced ha hd
    obtain ⟨column, rfl, rfl⟩ := hcolumn
    exact nested_of_leaf column.leaf ⟨column, rfl, rfl⟩
  | hnullable inner ih =>
    obtain ⟨hflat, hinner⟩ := ChType.validate_nullable hvalid
    exact flatColumn_of_image hflat hordinary hinner hsizes (arrowTypeOf_nullable hannounced).2 ha
      hd
  | hlowCardinality => exact hordinary.elim
  | harray inner ih =>
    obtain ⟨item, hitem, rfl, -⟩ := arrowTypeOf_array hannounced
    cases ha with
    | list hvalues hlaid ha =>
      cases hd
      exact ⟨_, _, _, _, _, rfl, hvalues, hlaid,
        ih hordinary (ChType.validate_array hvalid) hsizes hitem ha hvalues.symm⟩
    | _ => cases hd
  | htuple items ih =>
    rw [ChType.unaliased, ChType.unaliaseds_eq_map] at hannounced
    obtain ⟨ps, hps, rfl, -⟩ := arrowTypeOf_tuple hannounced
    cases ha with
    | struct htypes hlens hall hfit hlen =>
      cases hd
      refine ⟨_, _, _, _, rfl, hfit, ?_⟩
      exact nestedEach_of_image (fun t ht ho hv hs d n a => ih t ht ho hv hs)
        (ChType.ordinaries_iff.mp hordinary) (ChType.validate_tuple hvalid) hsizes hps htypes hlens
        hall
    | _ => cases hd
  | hmap key value ihkey ihvalue =>
    obtain ⟨k, v, hk, hv, rfl, -⟩ := arrowTypeOf_map hannounced
    obtain ⟨hvkey, hvvalue⟩ := ChType.validate_map hvalid
    cases ha with
    | map hkeys hvalues hcount hlaid hakeys havalues =>
      cases hd
      refine ⟨_, _, _, _, _, _, _, _, _, rfl, hkeys, hvalues, hcount, hlaid, ?_, ?_⟩
      · exact ihkey hordinary.1 hvkey (fun n hn => hsizes n (List.mem_append_left _ hn)) hk
          hakeys hkeys.symm
      · exact ihvalue hordinary.2 hvvalue (fun n hn => hsizes n (List.mem_append_right _ hn)) hv
          havalues hvalues.symm
    | _ => cases hd

end Image

/-! ## Batches of announced types -/

/-- A column of the data type that is announced for an accepted type. -/
structure ImageColumn (lex : Lexicon) (options : ArrowOptions) (rows : Nat) where
  name : String
  type : ChType
  dataType : DataType
  nullable : Bool
  array : ArrowArray
  valid : type.validate = .ok ()
  ordinary : type.Ordinary lex
  announced : chToArrowType type (some options) = .ok (dataType, nullable)
  dataType_eq : array.dataType = dataType
  len_eq : array.len = rows
  unsliced : Unsliced array
  name_le : (utf8Bytes name).length ≤ isizeMax
  typeName_le : (utf8Bytes (String.ofList type.display)).length ≤ isizeMax

/-- The field of the column. -/
def ImageColumn.field {lex : Lexicon} {options : ArrowOptions} {rows : Nat}
    (column : ImageColumn lex options rows) : Field :=
  ⟨column.name, column.dataType, column.nullable⟩

/-- A batch of columns of announced data types. -/
structure ImageBatch (lex : Lexicon) (options : ArrowOptions) where
  rows : Nat
  columns : List (ImageColumn lex options rows)
  columns_le : columns.length ≤ isizeMax

namespace ImageBatch

variable {lex : Lexicon} {options : ArrowOptions}

/-- The batch itself. -/
def batch (b : ImageBatch lex options) : RecordBatch where
  schema := b.columns.map ImageColumn.field
  columns := b.columns.map ImageColumn.array
  rowCount := b.rows

/-- The header: the types under the names of the columns. -/
def header (b : ImageBatch lex options) : List (String × ChType) :=
  b.columns.map fun column => (column.name, column.type)

/-- What the writer is told. -/
def writer (b : ImageBatch lex options) (revision : Nat) : BlockWriter where
  lex := lex
  header := some b.header
  options := options
  revision := revision

/-- The type that a column is written as: that of the first column of its name. -/
def sentAs (b : ImageBatch lex options) (column : ImageColumn lex options b.rows) : ChType :=
  ((b.header.find? fun entry => entry.1 == column.name).map Prod.snd).getD column.type

/-- The batch comes back, from both readers and both writers, with its names, its Arrow types and
its cells, and the reader stops behind the block. -/
def RoundTrips (b : ImageBatch lex options) (revision : Nat) : Prop :=
  ∀ (json : Bytes → Bytes) (m m' : Mode) (rest : Bytes), ∃ (bytes : Bytes) (batch : RecordBatch),
    (b.writer revision).write m' b.batch = .ok bytes ∧
      (((b.writer revision).reader json m options).read (bytes ++ rest)
        ArrowDeserializerState.fresh).1 = .ok (batch, rest) ∧
      batch.schema = b.batch.schema ∧ batch.rowCount = b.batch.rowCount ∧
      ArrowArray.rowsEach batch.columns = ArrowArray.rowsEach b.batch.columns

end ImageBatch

/-- The header of the column is read back under the type, and the field of the column is announced
for it. -/
structure ImageColumn.HeaderReturns {lex : Lexicon} {options : ArrowOptions} {rows : Nat}
    (column : ImageColumn lex options rows) (t : ChType) : Prop where
  name_le : (utf8Bytes column.name).length ≤ maxStringSize
  typeName_le : (utf8Bytes (String.ofList t.display)).length ≤ maxStringSize
  sizes : ∀ n ∈ t.sizes, 0 < n ∧ n < 2 ^ 31
  announced : chToArrowType t.unaliased (some options) = .ok (column.dataType, column.nullable)

/-- What the column needs to come back under the type. -/
structure ImageColumn.Returns {lex : Lexicon} {options : ArrowOptions} {rows : Nat}
    (column : ImageColumn lex options rows) (t : ChType) : Prop extends
    column.HeaderReturns t where
  carried : rows ≠ 0 → fitsBuilder (some options) false t.unaliased = true ∧
    Carried (some options) t.unaliased column.array

/-- The block has an info, rows stand in columns, and every column comes back under the type that it
is written as. -/
structure ImageBatch.Returns {lex : Lexicon} {options : ArrowOptions} (b : ImageBatch lex options)
    (revision : Nat) : Prop where
  revision_pos : 0 < revision
  filled : b.columns = [] → b.rows = 0
  columns : ∀ column ∈ b.columns, column.Returns (b.sentAs column)

section Batches

variable {lex : Lexicon} {options : ArrowOptions} {rows revision : Nat}

namespace ImageBatch

variable {b : ImageBatch lex options}

theorem find_header {column : ImageColumn lex options b.rows} (h : column ∈ b.columns) :
    ∃ other ∈ b.columns, (b.header.find? fun entry => entry.1 == column.name) =
      some (other.name, other.type) := by
  have hmem : (column.name, column.type) ∈ b.header := List.mem_map_of_mem h
  have hsome : (b.header.find? fun entry => entry.1 == column.name).isSome := by
    rw [List.find?_isSome]
    exact ⟨_, hmem, beq_self_eq_true column.name⟩
  obtain ⟨entry, hentry⟩ := Option.isSome_iff_exists.mp hsome
  obtain ⟨other, hother, rfl⟩ := List.mem_map.mp (List.mem_of_find?_eq_some hentry)
  exact ⟨other, hother, hentry⟩

/-- A column is written as the type of one of the columns. -/
theorem sentAs_mem {column : ImageColumn lex options b.rows} (h : column ∈ b.columns) :
    ∃ other ∈ b.columns, b.sentAs column = other.type := by
  obtain ⟨other, hother, hfind⟩ := find_header h
  exact ⟨other, hother, by rw [sentAs, hfind]; rfl⟩

theorem typeOf_eq (revision : Nat) {column : ImageColumn lex options b.rows}
    (h : column ∈ b.columns) :
    (b.writer revision).typeOf column.field = .ok (b.sentAs column) := by
  obtain ⟨other, -, hfind⟩ := find_header h
  have hgeo {t : ChType} (ht : t.Ordinary lex) : simplifyGeo t = .ok t := by
    cases t with
    | point | ring | polygon | multiPolygon => exact ht.elim
    | _ => rfl
  have hchoose : (b.writer revision).chooseType column.field = .ok other.type := by
    have hentry : ((b.writer revision).header.bind fun header =>
        header.find? fun entry => entry.1 == column.field.name) = some (other.name, other.type) :=
      hfind
    rw [BlockWriter.chooseType, hentry]
  rw [BlockWriter.typeOf, hchoose, Outcome.ok_bind, hgeo other.ordinary, sentAs, hfind]
  rfl

end ImageBatch

/-- The column under the type that it is written as. -/
def ImageColumn.sent {w : BlockWriter} (column : ImageColumn w.lex options rows) {t : ChType}
    (htype : w.typeOf column.field = .ok t) (hordinary : t.Ordinary w.lex)
    (hvalid : t.validate = .ok ()) (h : column.HeaderReturns t) : SentColumn w rows where
  field := column.field
  array := column.array
  type := t
  dataType_eq := column.dataType_eq.symm
  len_eq := column.len_eq
  typeOf_eq := htype
  nested := nested_of_image hordinary hvalid (fun n hn => (h.sizes n hn).2) h.announced
    column.unsliced column.dataType_eq
  ranged := hordinary.parametersInRange hvalid fun n hn => (h.sizes n hn).1
  name_le := h.name_le
  typeName_le := h.typeName_le

namespace ImageBatch

variable {b : ImageBatch lex options}

theorem rows_lt (h : b.columns ≠ []) : b.rows < 2 ^ 63 := by
  obtain ⟨column, hcolumn⟩ := List.exists_mem_of_ne_nil _ h
  have hle := column.unsliced.len_le
  rw [column.len_eq] at hle
  exact hle.trans_lt (by decide)

/-- A column of the batch under the type that it is written as. -/
def sentColumn (h : b.Returns revision) (column : {column // column ∈ b.columns}) :
    SentColumn (b.writer revision) b.rows := by
  refine column.1.sent (w := b.writer revision) (typeOf_eq revision column.2) ?_ ?_
    (h.columns column.1 column.2).toHeaderReturns
  · obtain ⟨other, -, hsame⟩ := sentAs_mem column.2
    rw [hsame]
    exact other.ordinary
  · obtain ⟨other, -, hsame⟩ := sentAs_mem column.2
    rw [hsame]
    exact other.valid

/-- The batch with every column under the type that it is written as. -/
def sent (h : b.Returns revision) : SentBatch (b.writer revision) where
  rows := b.rows
  columns := b.columns.attach.map (sentColumn h)
  rows_lt := by
    by_cases hnone : b.columns = []
    · rw [h.filled hnone]
      decide
    · exact rows_lt hnone
  columns_lt := by
    rw [List.length_map, List.length_attach]
    exact b.columns_le.trans_lt (by decide)

theorem sent_batch (h : b.Returns revision) : (sent h).batch = b.batch := by
  have hfields : (b.columns.attach.map (sentColumn h)).map SentColumn.field =
      b.columns.map ImageColumn.field := by
    rw [List.map_map]
    exact List.attach_map_val (l := b.columns) (f := ImageColumn.field)
  have harrays : (b.columns.attach.map (sentColumn h)).map SentColumn.array =
      b.columns.map ImageColumn.array := by
    rw [List.map_map]
    exact List.attach_map_val (l := b.columns) (f := ImageColumn.array)
  rw [SentBatch.batch, batch]
  exact congr_arg₂ (fun fields arrays => (⟨fields, arrays, b.rows⟩ : RecordBatch)) hfields harrays

theorem Returns.roundTrips (h : b.Returns revision) : b.RoundTrips revision := by
  have hback : (sent h).ComesBack options := by
    refine (comesBack_iff options (sent h) h.revision_pos).mpr ⟨fun hnone => ?_, ?_⟩
    · have hnil : b.columns = [] := by simpa [sent] using hnone
      exact h.filled hnil
    · intro column hcolumn
      obtain ⟨column', -, rfl⟩ := List.mem_map.mp hcolumn
      exact (h.columns column'.1 column'.2).carried
  intro json m m' rest
  obtain ⟨bytes, batch, hwrite, hread, hdelivered, hrows⟩ := hback json m m' rest
  rw [sent_batch] at hwrite hrows
  refine ⟨bytes, batch, hwrite, hread, ?_, hdelivered.rowCount_eq, hrows⟩
  -- The field that is announced for the alias of the type is the one that the column had.
  have hschema := hdelivered.schema
  rw [sent, List.forall₂_map_left_iff] at hschema
  have hfields : List.Forall₂ Eq (b.columns.attach.map fun column => column.1.field)
      batch.schema := by
    rw [List.forall₂_map_left_iff]
    refine hschema.imp fun column f hf => ?_
    have hannounced := hf.announced.symm.trans (h.columns column.1 column.2).announced
    obtain ⟨hd, hn⟩ := Prod.mk.inj (Except.ok.inj hannounced)
    obtain ⟨name, d, n⟩ := f
    obtain rfl : name = column.1.name := hf.name_eq
    obtain rfl : d = column.1.dataType := hd
    obtain rfl : n = column.1.nullable := hn
    rfl
  rw [List.forall₂_eq_eq_eq, List.attach_map_val] at hfields
  exact hfields.symm

end ImageBatch

/-! ## What comes back -/

/-- A header is read only where its names are not too long and that of the type is parsed. -/
theorem of_readHeader {w : BlockWriter} {json : Bytes → Bytes} {name typeName : String}
    {rest : Bytes} {x : ColumnHeader × Bytes}
    (hread : (w.reader json .async options).readHeader
      (writeString (utf8Bytes name) ++ (writeString (utf8Bytes typeName) ++ rest)) = .ok x)
    (hname : (utf8Bytes name).length ≤ isizeMax)
    (htypeName : (utf8Bytes typeName).length ≤ isizeMax) :
    (utf8Bytes name).length ≤ maxStringSize ∧ (utf8Bytes typeName).length ≤ maxStringSize ∧
      ∃ u, ChType.fromStr w.lex typeName.toList = .ok u ∧
        chToArrowType u (some options) = .ok (x.1.field.dataType, x.1.field.nullable) := by
  have hfirst : (utf8Bytes name).length ≤ maxStringSize := by
    by_contra hlong
    have hstuck := (readUtf8String_stuck .async (Nat.not_le.mp hlong) hname).mapError
      ArrowError.native
    exact hstuck.bind _ _ _ hread
  have hname' := (readUtf8String_reads .async hfirst).mapError ArrowError.native
  replace hread := (hname'.bind_append _ _).symm.trans hread
  have hsecond : (utf8Bytes typeName).length ≤ maxStringSize := by
    by_contra hlong
    have hstuck := (readUtf8String_stuck .async (Nat.not_le.mp hlong) htypeName).mapError
      ArrowError.native
    exact hstuck.bind _ _ _ hread
  have htypeName' := (readUtf8String_reads .async hsecond).mapError ArrowError.native
  replace hread := (htypeName'.bind_append _ _).symm.trans hread
  obtain ⟨u, rest₁, hu, hread⟩ := Reader.bind_eq_ok.mp hread
  obtain ⟨announced, rest₂, hd, hread⟩ := Reader.bind_eq_ok.mp hread
  obtain ⟨flag, rest₃, -, hread⟩ := Reader.bind_eq_ok.mp hread
  obtain rfl := Except.ok.inj hread
  have hparse : Reader.ofOutcome (ChType.fromStr w.lex typeName.toList) rest = .ok (u, rest₁) :=
    Reader.mapError_eq_ok.mp hu
  exact ⟨hfirst, hsecond, u, (ofOutcome_eq_ok hparse).1, (ofOutcome_eq_ok hd).1⟩

/-- A column whose field and rows are read meets the condition, and is read to its end. -/
theorem ImageColumn.returns_of_reads {w : BlockWriter} {column : ImageColumn w.lex options rows}
    {json : Bytes → Bytes} {t : ChType} (htype : w.typeOf column.field = .ok t)
    (hordinary : t.Ordinary w.lex) (hvalid : t.validate = .ok ())
    (htypeName : (utf8Bytes (String.ofList t.display)).length ≤ isizeMax)
    (hsmall : ∀ n ∈ t.sizes, n < 2 ^ 31) {bytes rest rest' : Bytes} {p : Field × ArrowArray}
    (hwrite : w.writeColumn .async column.field column.array = .ok bytes)
    (hread : (w.reader json .async options).readColumn rows (bytes ++ rest) = .ok (p, rest'))
    (hfield : p.1 = column.field) (hrows : p.2.rows = column.array.rows) :
    column.Returns t ∧ rest' = rest := by
  have hheader : column.HeaderReturns t := by
    have hbytes := hwrite
    rw [BlockWriter.writeColumn, htype, Outcome.ok_bind] at hbytes
    obtain ⟨data, -, hbytes⟩ := Outcome.bind_eq_ok.mp hbytes
    cases hbytes
    obtain ⟨h, rest₁, hhead, htail⟩ := Reader.bind_eq_ok.mp hread
    obtain ⟨array, rest₂, -, hpair⟩ := Reader.bind_eq_ok.mp htail
    obtain ⟨rfl, -⟩ := Prod.mk.inj (Except.ok.inj hpair)
    simp only [List.append_assoc] at hhead
    obtain ⟨hname, hsecond, u, hu, hannounced⟩ := of_readHeader hhead column.name_le htypeName
    rw [String.toList_ofList] at hu
    have hpos := ChType.sizes_pos_of_parse hordinary.quotable hordinary.sizes_le hu
    rw [ChType.fromStr_display_unaliased (hordinary.parametersInRange hvalid hpos)] at hu
    cases hu
    replace hfield : h.field = column.field := hfield
    rw [hfield] at hannounced
    exact ⟨hname, hsecond, fun n hn => ⟨hpos n hn, hsmall n hn⟩, hannounced⟩
  have htransit := @SentColumn.transit w rows options json
    (column.sent htype hordinary hvalid hheader) .async
  exact ⟨⟨hheader, htransit.carried_of_shows hwrite hread hrows⟩, htransit.rest_eq hwrite hread⟩

namespace ImageBatch

variable {b : ImageBatch lex options} {json : Bytes → Bytes}

theorem columns_return (hsmall : ∀ column ∈ b.columns, ∀ n ∈ column.type.sizes, n < 2 ^ 31)
    {columns : List (ImageColumn lex options b.rows)}
    (hmem : ∀ column ∈ columns, column ∈ b.columns)
    {bytes rest rest' : Bytes} {ps : List (Field × ArrowArray)}
    (hwrite : (b.writer revision).writeColumns .async (columns.map ImageColumn.field)
      (columns.map ImageColumn.array) = .ok bytes)
    (hread : ((b.writer revision).reader json .async options).columnsOf b.rows columns.length
      (bytes ++ rest) = .ok (ps, rest'))
    (hfields : ps.map Prod.fst = columns.map ImageColumn.field)
    (hrows : ps.map (fun p => p.2.rows) = columns.map fun column => column.array.rows) :
    ∀ column ∈ columns, column.Returns (b.sentAs column) := by
  induction columns generalizing bytes ps with
  | nil => simp
  | cons column columns ih =>
    obtain ⟨hhead, hothers⟩ := List.forall_mem_cons.mp hmem
    obtain ⟨first, hfirst, hwrite⟩ := Outcome.bind_eq_ok.mp hwrite
    obtain ⟨others, hrest, hwrite⟩ := Outcome.bind_eq_ok.mp hwrite
    cases hwrite
    rw [List.length_cons, BlockReader.columnsOf_succ, List.append_assoc] at hread
    obtain ⟨p, rest₁, hp, hread⟩ := Reader.bind_eq_ok.mp hread
    obtain ⟨ps', rest₂, hps, hread⟩ := Reader.bind_eq_ok.mp hread
    obtain ⟨rfl, rfl⟩ := Prod.mk.inj (Except.ok.inj hread)
    simp only [List.map_cons, List.cons.injEq] at hfields hrows
    -- The column is written as the type of one that stands in the header.
    obtain ⟨other, hother, hsame⟩ := sentAs_mem hhead
    have hback := ImageColumn.returns_of_reads (w := b.writer revision)
      (typeOf_eq revision hhead) (by rw [hsame]; exact other.ordinary)
      (by rw [hsame]; exact other.valid) (by rw [hsame]; exact other.typeName_le)
      (by rw [hsame]; exact hsmall other hother) hfirst hp hfields.1 hrows.1
    obtain ⟨hreturns, rfl⟩ := hback
    exact List.forall_mem_cons.mpr ⟨hreturns, ih hothers hrest hps hfields.2 hrows.2⟩

theorem write_batch (hrevision : 0 < revision) :
    (b.writer revision).write .async b.batch =
      ((b.writer revision).writeColumns .async (b.columns.map ImageColumn.field)
        (b.columns.map ImageColumn.array) >>= fun columns =>
          .ok (BlockInfo.initial.write ++ (writeVarUint b.columns.length ++
            (writeVarUint b.rows ++ columns)))) := by
  have hpos : 0 < (b.writer revision).revision := hrevision
  rw [BlockWriter.write, if_pos hpos]
  simp only [batch, List.length_map]

/-- There are as many columns as have been written. -/
theorem columns_of_readCounts {r : BlockReader} {columns : Nat} (hcolumns : columns < 2 ^ 63)
    {tail : Bytes} {x : (Nat × Nat) × Bytes}
    (h : r.readCounts (BlockInfo.initial.write ++ (writeVarUint columns ++ tail)) = .ok x) :
    x.1.1 = columns := by
  have hinfo := (BlockInfo.read_reads r.mode BlockInfo.initial).mapError ArrowError.native
  have hcount := (readVarUint_reads r.mode hcolumns).mapError ArrowError.native
  replace h := (hinfo.bind_append _ _).symm.trans h
  replace h := (hcount.bind_append _ _).symm.trans h
  obtain ⟨rows, rest, -, h⟩ := Reader.bind_eq_ok.mp h
  cases h
  rfl

theorem returns_of_roundTrips (hrevision : 0 < revision)
    (hsmall : ∀ column ∈ b.columns, ∀ n ∈ column.type.sizes, n < 2 ^ 31)
    (h : b.RoundTrips revision) : b.Returns revision := by
  obtain ⟨bytes, batch, hwrite, hread, hschema, hcount, hrows⟩ := h id .async .async []
  rw [BlockReader.read_fresh] at hread
  rw [write_batch hrevision] at hwrite
  obtain ⟨data, hdata, hwrite⟩ := Outcome.bind_eq_ok.mp hwrite
  cases hwrite
  simp only [List.append_nil] at hread
  obtain ⟨⟨columns, rows⟩, rest, hcounts, hread⟩ := Reader.bind_eq_ok.mp hread
  have hlength : b.columns.length < 2 ^ 63 := b.columns_le.trans_lt (by decide)
  obtain rfl : columns = b.columns.length := columns_of_readCounts hlength hcounts
  by_cases hnone : b.columns = []
  · -- of rows without columns no batch is made
    refine ⟨hrevision, fun _ => ?_, by simp [hnone]⟩
    rw [hnone] at hread
    dsimp only at hread
    split_ifs at hread with hboth
    · obtain ⟨rfl, -⟩ := Prod.mk.inj (Except.ok.inj hread)
      exact hcount.symm
    · cases hread
  · have hreads := BlockReader.counts_reads ((b.writer revision).reader id .async options)
      hlength (rows_lt hnone)
    have hexact := hreads data
    rw [List.append_assoc, List.append_assoc] at hexact
    cases hcounts.symm.trans hexact
    dsimp only at hread
    rw [if_neg fun hboth => hnone (List.length_eq_zero_iff.mp hboth.1)] at hread
    obtain ⟨ps, rest₁, hps, hread⟩ := Reader.bind_eq_ok.mp hread
    obtain ⟨-, hfields, harrays⟩ := RecordBatch.tryNew_eq_ok (ofOutcome_eq_ok hread).1
    rw [harrays, ArrowArray.rowsEach_eq, ArrowArray.rowsEach_eq, ImageBatch.batch, List.map_map,
      List.map_map] at hrows
    rw [← List.append_nil data] at hps
    refine ⟨hrevision, fun hnil => absurd hnil hnone,
      columns_return hsmall (fun _ hc => hc) hdata hps (hfields.symm.trans hschema) ?_⟩
    exact hrows

end ImageBatch

/-- **A batch of announced types comes back** where it has an info, its rows stand in columns, and
every column is announced again as its own field and carries its rows under the type that it is
written as.  From revision 1 on, and with fixed strings below `2^31` bytes, only then. -/
theorem imageBatch_roundTrips (b : ImageBatch lex options) (revision : Nat) :
    (b.Returns revision → b.RoundTrips revision) ∧
      (0 < revision → (∀ column ∈ b.columns, ∀ n ∈ column.type.sizes, n < 2 ^ 31) →
        b.RoundTrips revision → b.Returns revision) :=
  ⟨ImageBatch.Returns.roundTrips, ImageBatch.returns_of_roundTrips⟩

end Batches

/-- A column of one number. -/
def oneNumber : ImageBatch .ascii .new where
  rows := 1
  columns := [
    { name := "a"
      type := .int8
      dataType := .primitive .int8
      nullable := false
      array := .primitive .int8 [(5 : Int8)] none
      valid := rfl
      ordinary := trivial
      announced := rfl
      dataType_eq := rfl
      len_eq := rfl
      unsliced := .primitive (fun _ h => by cases h) (by decide)
      name_le := by decide
      typeName_le := by decide }]
  columns_le := by decide

/-- A column of one identifier. -/
def oneUuid : ImageBatch .ascii .new where
  rows := 1
  columns := [
    { name := "id"
      type := .uuid
      dataType := .fixedSizeBinary 16
      nullable := false
      array := .fixedSizeBinary 16 [[0, 1, 2, 3, 4, 5, 6, 7, 8, 9, 10, 11, 12, 13, 14, 15]] none
      valid := rfl
      ordinary := trivial
      announced := rfl
      dataType_eq := rfl
      len_eq := rfl
      unsliced := .fixedSizeBinary (n := 16) ⟨rfl, by decide⟩ (fun _ h => by cases h) (by decide)
        (by decide)
      name_le := by decide
      typeName_le := by decide }]
  columns_le := by decide

/-- The halves of the identifier are exchanged, and the info that is read before the number has not
been written. -/
theorem imageBatch_not_roundTrips_samples :
    ¬ oneUuid.RoundTrips 54454 ∧ ¬ oneNumber.RoundTrips 0 := by
  constructor
  · intro h
    have hreturns := ImageBatch.returns_of_roundTrips (by decide)
      (fun column hcolumn n hn => by
        obtain rfl := List.mem_singleton.mp hcolumn
        cases hn) h
    have hcarried := ((hreturns.columns _ List.mem_cons_self).carried (by decide)).2
    have hsame : [8, 9, 10, 11, 12, 13, 14, 15] = ([0, 1, 2, 3, 4, 5, 6, 7] : Bytes) :=
      hcarried.1 _ List.mem_cons_self
    exact absurd hsame (by decide)
  · intro h
    obtain ⟨bytes, batch, hwrite, hread, -⟩ := h id .async .async []
    rw [BlockReader.read_fresh] at hread
    obtain rfl : [1, 1, 1, 97, 4, 73, 110, 116, 56, 5] = bytes := Except.ok.inj hwrite
    cases hread

/-- Lists of strings, one of them empty, and numbers with a null. -/
def tagged : ImageBatch .ascii .new where
  rows := 2
  columns := [
    { name := "tags"
      type := .array .string
      dataType := .list false ⟨"item", .bytes .binary, false⟩
      nullable := false
      array := .list false ⟨"item", .bytes .binary, false⟩ [0, 2, 2]
        (.bytes .binary [[97], [255]] none) none
      valid := rfl
      ordinary := trivial
      announced := rfl
      dataType_eq := rfl
      len_eq := rfl
      unsliced := .list rfl laid_sample
        (.bytes (fun h => by cases h) (fun _ h => by cases h) (by decide) (by decide))
      name_le := by decide
      typeName_le := by decide },
    { name := "n"
      type := .nullable .int32
      dataType := .primitive .int32
      nullable := true
      array := .primitive .int32 [(7 : Int32), (0 : Int32)] (some [true, false])
      valid := rfl
      ordinary := trivial
      announced := rfl
      dataType_eq := rfl
      len_eq := rfl
      unsliced := .primitive (fun _ h => by cases h; rfl) (by decide)
      name_le := by decide
      typeName_le := by decide }]
  columns_le := by decide

theorem tagged_returns : tagged.Returns 54454 where
  revision_pos := by decide
  filled := fun h => by cases h
  columns := by
    intro column hcolumn
    rcases List.mem_cons.mp hcolumn with rfl | hcolumn
    · refine ⟨⟨by decide, by decide, fun n hn => (by cases hn), rfl⟩, fun _ => ⟨rfl, ?_, ?_⟩⟩
      · simp [ArrowArray.rows, slices]
      · refine ⟨fun v hv => ?_, by simp [leafRows]⟩
        have hletter : v = .bytes [97] ∨ v = .bytes [255] := by simpa [leafRows, slots] using hv
        rcases hletter with rfl | rfl
        · exact ⟨by decide, fun h => by cases h⟩
        · exact ⟨by decide, fun h => by cases h⟩
    · obtain rfl := List.mem_singleton.mp hcolumn
      refine ⟨⟨by decide, by decide, fun n hn => (by cases hn), rfl⟩, fun _ => ⟨rfl, ?_⟩⟩
      intro v _
      cases v <;> trivial

/-- The sample comes back, with bytes that are no text. -/
theorem imageBatch_roundTrips_sample : tagged.RoundTrips 54454 :=
  (imageBatch_roundTrips tagged 54454).1 tagged_returns

end Arrow
end ClickhouseArrow
