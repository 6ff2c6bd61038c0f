import ClickhouseArrow.Arrow.LeafReads

/-!
# Flat columns that come back

An Arrow array without parts is written as a column of its type, nullable or not, and the bytes are
read with the data type, the builder and the type hint that are announced for that type.  The module
says exactly which arrays come back with the cells that they had.
-/

namespace ClickhouseArrow

open Wire

namespace Arrow

/-! ## The decoder of the type -/

theorem isNullable_leaf {t : ChType} {a : ArrowArray} (h : LeafColumn t a) :
    t.isNullable = false := by
  cases h <;> rfl

theorem isNullable_leafHint (options : Option ArrowOptions) {t : ChType} {a : ArrowArray}
    (h : LeafColumn t a) : (leafHint options t).isNullable = false := by
  cases h with
  | string =>
    show (textHint options).isNullable = false
    unfold textHint
    cases wantsStrings options <;> rfl
  | _ => rfl

theorem toInt_scale {s : Nat} (hs : s ≤ 76) : (i8OfUsize s).toInt = s :=
  Int8.toInt_ofNat_of_lt (by omega)

/-- The scale of a decimal is one that its builder takes. -/
theorem checkScale_leaf {s precision maxScale : Nat} (hs : s ≤ precision)
    (hmax : precision ≤ maxScale) (hsmall : precision ≤ 76) :
    checkScale maxScale precision (i8OfUsize s) = .ok (i8OfUsize s) :=
  checkScale_eq_ok hmax (by rw [toInt_scale (hs.trans hsmall)]; omega)

/-- The data type, the hint and the builder of a type, be it nullable or not. -/
def Decodes (options : Option ArrowOptions) (t : ChType) (d : DataType) : Prop :=
  (∀ isNull, arrowTypeOf options isNull t = .ok (d, isNull)) ∧ typeHint t d = leafHint options t ∧
    typedBuild (leafHint options t) d = .ok (leafBuilder options t) ∧
    ∀ strips, TypedBuilder.tryNewOf strips (leafHint options t) d =
      typedBuild (leafHint options t) d

theorem decodes_fixed (options : Option ArrowOptions) {n : Nat} (hn : n < 2 ^ 31) :
    Decodes options (.fixedSizedString n) (.fixedSizeBinary (i32OfUsize n)) ∧
      Decodes options (.fixedSizedBinary n) (.fixedSizeBinary (i32OfUsize n)) := by
  have hsize : (i32OfUsize n).toInt = n := Int32.toInt_ofNat_of_lt hn
  have hback : usizeOfInt (i32OfUsize n).toInt = n := by
    rw [hsize, usizeOfInt]
    omega
  have hbuilder : fixedSizeBinaryBuilder (i32OfUsize n) = .ok (.fixedSizeBinary (i32OfUsize n)) :=
    if_pos (by omega)
  constructor
  · exact ⟨fun _ => rfl, congrArg ChType.fixedSizedBinary hback, hbuilder, fun _ => rfl⟩
  · exact ⟨fun _ => rfl, rfl, hbuilder, fun _ => rfl⟩

theorem OfLength.lt {n : Nat} {size : Int32} {values : List Bytes} (h : OfLength n size values) :
    n < 2 ^ 31 := by
  have hsize := size.toInt_lt
  rw [h.1] at hsize
  omega

theorem decodes_leaf (options : Option ArrowOptions) {t : ChType} {a : ArrowArray}
    (h : LeafColumn t a) : ∃ d, Decodes options t d := by
  cases h with
  | decimal32 hs =>
    exact ⟨_, fun _ => rfl, rfl, congrArg (_ <$> ·) (checkScale_leaf hs (by decide) (by decide)),
      fun _ => rfl⟩
  | decimal64 hs =>
    exact ⟨_, fun _ => rfl, rfl, congrArg (_ <$> ·) (checkScale_leaf hs (by decide) (by decide)),
      fun _ => rfl⟩
  | decimal128 hs =>
    exact ⟨_, fun _ => rfl, rfl, congrArg (_ <$> ·) (checkScale_leaf hs (by decide) (by decide)),
      fun _ => rfl⟩
  | decimal256 hs =>
    exact ⟨_, fun _ => rfl, rfl, congrArg (_ <$> ·) (checkScale_leaf hs (by decide) (by decide)),
      fun _ => rfl⟩
  | dateTime64 hp =>
    exact ⟨_, arrowTypeOf_dateTime64 hp options, rfl, typedBuild_dateTime64 hp _, fun _ => rfl⟩
  | string =>
    refine ⟨_, fun _ => rfl, ?_⟩
    show typeHint .string _ = textHint options ∧ typedBuild (textHint options) _ =
      .ok (textBuilder options) ∧ ∀ strips, TypedBuilder.tryNewOf strips (textHint options) _ =
        typedBuild (textHint options) _
    unfold textHint textBuilder
    cases wantsStrings options <;> exact ⟨rfl, rfl, fun _ => rfl⟩
  | fixedSizedString h => exact ⟨_, (decodes_fixed options h.lt).1⟩
  | fixedSizedBinary h => exact ⟨_, (decodes_fixed options h.lt).2⟩
  | _ => exact ⟨_, fun _ => rfl, rfl, rfl, fun _ => rfl⟩

theorem normalizeType_leaf {options : Option ArrowOptions} {t : ChType} {a : ArrowArray}
    (h : LeafColumn t a) {d : DataType} (hhint : typeHint t d = leafHint options t) :
    typeHint (.nullable t) d = .nullable (leafHint options t) := by
  have hflat := isNullable_leafHint options h
  rw [typeHint, normalizeType_nullable (isNullable_leaf h)]
  unfold typeHint at hhint
  cases hnorm : normalizeType t d with
  | none =>
    rw [hnorm] at hhint
    exact congrArg ChType.nullable hhint
  | some u =>
    rw [hnorm, Option.getD_some] at hhint
    subst hhint
    show (leafHint options t).intoNullable = .nullable (leafHint options t)
    cases h with
    | string =>
      show (textHint options).intoNullable = .nullable (textHint options)
      unfold textHint
      cases wantsStrings options <;> rfl
    | _ => rfl

/-- What is announced for a column, and what it is read with. -/
theorem leaf_setup (options : Option ArrowOptions) {t : ChType} {a : ArrowArray}
    (h : LeafColumn t a) (nullable : Bool) :
    ∃ d, chToArrowType (stringType nullable t) options = .ok (d, nullable) ∧
      typeHint (stringType nullable t) d = stringType nullable (leafHint options t) ∧
      TypedBuilder.tryNew (stringType nullable (leafHint options t)) d =
        .ok (leafBuilder options t) := by
  obtain ⟨d, hd, hhint, hbuilder, hstrips⟩ := decodes_leaf options h
  refine ⟨d, ?_⟩
  cases nullable with
  | false => exact ⟨hd false, hhint, (hstrips 1).trans hbuilder⟩
  | true => exact ⟨hd true, normalizeType_leaf h hhint, (hstrips 0).trans hbuilder⟩

/-! ## Columns -/

/-- A column without parts.  Its rows, and the bytes that they are written as, fit in a buffer. -/
structure FlatColumn where
  type : ChType
  array : ArrowArray
  leaf : LeafColumn type array
  fit : array.nulls.Fit array.len
  rows : array.len ≤ isizeMax
  sized : array.len * (lengthOf type).getD 0 ≤ isizeMax
  addressed : ∀ b, some (.bytes b) ∈ leafRows array → b.length ≤ isizeMax

namespace FlatColumn

def cells (column : FlatColumn) : List (Option Leaf) := leafRows column.array

theorem length_cells (column : FlatColumn) : column.cells.length = column.array.len := by
  obtain ⟨t, a, h, hfit, -, -, -⟩ := column
  show (leafRows a).length = a.len
  cases h <;> exact (List.length_map _).trans (slots_length hfit)

theorem within {column : FlatColumn} {v : Leaf} (h : some v ∈ column.cells) :
    Within column.type v :=
  within_of_leafColumn column.leaf h

end FlatColumn

/-- The mask that is written for rows. -/
def marks (rows : List (Option Leaf)) : Bytes := rows.map fun row => if row.isSome then 0 else 1

/-- Under its own mask a row stays a null, or is what is read for its cell. -/
theorem masked_marks (rows : List (Option Leaf)) (f : Option Leaf → Leaf) :
    masked (marks rows) (rows.map f) = rows.map fun row => row.map fun _ => f row := by
  cases rows with
  | nil => rfl
  | cons row rows =>
    have hmarks : (marks (row :: rows)).isEmpty = false := rfl
    rw [masked, validities, hmarks, if_neg Bool.false_ne_true, keep, marks, List.map_map,
      List.zipWith_map, List.zipWith_self]
    refine List.map_congr_left fun row _ => ?_
    cases row <;> rfl

/-- The mask of an array is that of its rows. -/
theorem marks_slots {α : Type} (leaf : α → Leaf) {values : List α} {a : ArrowArray}
    (hlen : a.len = values.length) (hfit : a.nulls.Fit values.length) :
    Null.serializeNullsAsync .int8 a = marks ((slots values a.nulls).map (Option.map leaf)) := by
  rw [marks, List.map_map]
  cases hnulls : a.nulls with
  | none =>
    have hmask : Null.serializeNullsAsync .int8 a = List.replicate a.len 0 := by
      simp only [Null.serializeNullsAsync, hnulls]
    rw [hmask, slots_none, List.map_map, hlen]
    exact List.map_const'.symm
  | some valid =>
    have hlength : valid.length = values.length := hfit valid hnulls
    have hmask : Null.serializeNullsAsync .int8 a =
        valid.map fun isValid => if isValid then 0 else 1 := by
      simp only [Null.serializeNullsAsync, hnulls]
    rw [hmask, slots, List.map_zipWith]
    refine List.ext_getElem (by simp [hlength]) fun i hi hi' => ?_
    rw [List.getElem_map, List.getElem_zipWith]
    have hvalid : i < valid.length := by
      rw [List.length_map] at hi
      exact hi
    cases valid[i] <;> rfl

theorem serializeNullsAsync_leaf (column : FlatColumn) :
    Null.serializeNullsAsync column.type column.array = marks column.cells := by
  obtain ⟨t, a, h, hfit, -, -, -⟩ := column
  show Null.serializeNullsAsync t a = marks (leafRows a)
  cases h <;> exact marks_slots _ rfl hfit

/-! ## Which columns come back -/

/-- The cells that come back.  A decimal has no more digits than its type; a date and a time are in
the range of their type; the halves of a UUID are the same, and so are the address and its mirror
image; a string is not too long, and where it is read as text it is UTF-8. -/
def Survives (options : Option ArrowOptions) : ChType → Leaf → Prop
  | .decimal32 _, .number i => -(10 ^ 9) < i ∧ i < 10 ^ 9
  | .decimal64 _, .number i => -(10 ^ 18) < i ∧ i < 10 ^ 18
  | .date, .number i => 0 ≤ i ∧ i ≤ 65535
  | .date32, .number i => i + 25567 < 2 ^ 31
  | .dateTime _, .number i => 0 ≤ i ∧ i < 2 ^ 32
  | .uuid, .bytes b => b.drop 8 = b.take 8
  | .ipv4, .bytes b => b.reverse = b
  | .string, .bytes b =>
      b.length ≤ maxStringSize ∧ (wantsStrings options = true → fromUtf8Lossy b = b)
  | .binary, .bytes b => b.length ≤ maxStringSize
  | _, _ => True

/-- The halves of a UUID are written the other way round. -/
theorem swapped_eq_iff {b : Bytes} (h : b.length = 16) :
    b.drop 8 ++ b.take 8 = b ↔ b.drop 8 = b.take 8 := by
  have hhalves : (b.drop 8).length = (b.take 8).length := by
    rw [List.length_drop, List.length_take]
    omega
  constructor
  · intro hswap
    have hboth := hswap.trans (List.take_append_drop 8 b).symm
    exact (List.append_inj hboth hhalves).1
  · intro hsame
    rw [hsame]
    nth_rewrite 2 [← hsame]
    exact List.take_append_drop 8 b

theorem survives_iff (options : Option ArrowOptions) {t : ChType} {v : Leaf} (h : Within t v) :
    Survives options t v ↔ Passes t v ∧ Short t v ∧ readBack options t (some v) = v := by
  cases v with
  | number i =>
    cases t <;> simp only [Survives, Passes, Short, readBack, Leaf.number.injEq, and_true, true_and]
    omega
  | bytes b =>
    cases t <;> simp only [Survives, Passes, Short, readBack, Leaf.bytes.injEq, and_true, true_and]
    case string => rw [Strings.readAs_eq_self_iff]
    case uuid => exact (swapped_eq_iff h).symm

namespace FlatColumn

variable {options : Option ArrowOptions} {nullable : Bool} {column : FlatColumn}

/-- The mask of the column, where its type is nullable. -/
def mask (nullable : Bool) (column : FlatColumn) : Bytes :=
  if nullable then marks column.cells else []

/-- The bytes of a column whose cells pass. -/
def bytes (nullable : Bool) (column : FlatColumn) : Bytes :=
  column.mask nullable ++ cellBytes column.type column.cells

/-- The row that is read for a row. -/
def readRow (options : Option ArrowOptions) (nullable : Bool) (column : FlatColumn)
    (row : Option Leaf) : Option Leaf :=
  if nullable = true ∧ row = none then none else some (readBack options column.type row)

theorem masked_rows (options : Option ArrowOptions) (nullable : Bool) (column : FlatColumn) :
    masked (column.mask nullable) (column.cells.map (readBack options column.type)) =
      column.cells.map (column.readRow options nullable) := by
  cases nullable with
  | false =>
    rw [mask, if_neg Bool.false_ne_true, masked_nil, List.map_map]
    refine List.map_congr_left fun row _ => ?_
    rw [readRow, if_neg (by simp)]
    rfl
  | true =>
    rw [mask, if_pos rfl, masked_marks]
    refine List.map_congr_left fun row _ => ?_
    cases row <;> rfl

/-- The rows that are read are those that were there. -/
theorem readRow_iff (column : FlatColumn) :
    column.cells.map (column.readRow options nullable) = column.cells ↔
      (∀ v, some v ∈ column.cells → readBack options column.type (some v) = v) ∧
        (none ∈ column.cells → nullable = true) := by
  have hmap := List.map_inj_left (f := column.readRow options nullable) (g := id)
    (l := column.cells)
  rw [List.map_id] at hmap
  rw [hmap]
  have hsome (v : Leaf) : column.readRow options nullable (some v) = some v ↔
      readBack options column.type (some v) = v := by
    rw [readRow, if_neg (by simp), Option.some.injEq]
  have hnone : column.readRow options nullable none = none ↔ nullable = true := by
    rw [readRow]
    cases nullable <;> simp
  constructor
  · intro h
    exact ⟨fun v hv => (hsome v).mp (h _ hv), fun hnull => hnone.mp (h _ hnull)⟩
  · rintro ⟨hback, hnull⟩ row hrow
    cases row with
    | none => exact hnone.mpr (hnull hrow)
    | some v => exact (hsome v).mpr (hback v hrow)

/-- The column is written exactly if its cells pass. -/
theorem serializeBy_flat (m : Mode) (written : Bytes) :
    serializeBy m (stringType nullable column.type) column.array column.array.dataType =
        .ok written ↔
      (∀ v, some v ∈ column.cells → Passes column.type v) ∧ written = column.bytes nullable := by
  rw [serializeBy_eq]
  cases nullable with
  | false => exact writes_of_leafColumn column.leaf false written
  | true =>
    have hbody := writes_of_leafColumn column.leaf true
    have hmask := serializeNullsAsync_leaf column
    show (serializeAsyncOf true column.type column.array column.array.dataType >>= fun body =>
      .ok (Null.serializeNullsAsync column.type column.array ++ body)) = .ok written ↔ _
    rw [hmask, Outcome.bind_eq_ok]
    constructor
    · rintro ⟨body, hwrite, hbytes⟩
      obtain ⟨hpasses, rfl⟩ := (hbody body).mp hwrite
      exact ⟨hpasses, (Except.ok.inj hbytes).symm⟩
    · rintro ⟨hpasses, rfl⟩
      exact ⟨_, (hbody _).mpr ⟨hpasses, rfl⟩, rfl⟩

theorem covers_mask (nullable : Bool) (column : FlatColumn) :
    Covers (column.mask nullable) column.cells.length := by
  cases nullable with
  | false => exact .inl rfl
  | true => exact .inr (List.length_map _)

theorem reads_mask (column : FlatColumn) :
    Reads (Null.readMaskAsync column.array.len) (column.mask true) (column.mask true) := by
  have hmask : (column.mask true).length = column.array.len :=
    (List.length_map _).trans column.length_cells
  rw [← hmask]
  exact readMaskAsync_reads (by rw [hmask]; exact column.rows)

/-- What is read of the bytes of a column. -/
theorem reads_flat (options : Option ArrowOptions) (nullable : Bool) (json : Bytes → Bytes)
    (d : DataType)
    (hpasses : ∀ v, some v ∈ column.cells → Passes column.type v)
    (hshort : ∀ v, some v ∈ column.cells → Short column.type v) :
    ∃ a, Reads (deserializeArrowAsync json (stringType nullable (leafHint options column.type))
        (leafBuilder options column.type) d column.array.len []) (column.bytes nullable) a ∧
      leafRows a = column.cells.map (column.readRow options nullable) := by
  have hlength := column.length_cells
  have hsized := column.sized
  rw [← hlength] at hsized
  obtain ⟨a, hread, hrows⟩ := leaf_reads options json column.leaf d
    (fun v hv => column.within hv) hpasses hshort (column.covers_mask nullable) hsized
  rw [masked_rows] at hrows
  rw [hlength] at hread
  refine ⟨a, ?_, hrows⟩
  cases nullable with
  | false => exact hread
  | true => exact (column.reads_mask).bind hread

/-- A column with a string that is too long is not read. -/
theorem stuck_flat (options : Option ArrowOptions) (nullable : Bool) (json : Bytes → Bytes)
    (d : DataType) {v : Leaf} (hv : some v ∈ column.cells) (hlong : ¬ Short column.type v) :
    Stuck (deserializeArrowAsync json (stringType nullable (leafHint options column.type))
      (leafBuilder options column.type) d column.array.len []) (column.bytes nullable) := by
  have hlength := column.length_cells
  have haddressed : ∀ b, some (.bytes b) ∈ column.cells → b.length < 2 ^ 63 :=
    fun b hb => (column.addressed b hb).trans_lt (by decide)
  have hstuck := leaf_stuck options json (column.mask nullable) column.leaf d
    (fun v hv => column.within hv) haddressed hv hlong
  rw [hlength] at hstuck
  cases nullable with
  | false => exact hstuck
  | true => exact (column.reads_mask).bind_stuck hstuck

end FlatColumn

end Arrow

end ClickhouseArrow
