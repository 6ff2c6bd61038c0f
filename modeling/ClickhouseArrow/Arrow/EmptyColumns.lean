import ClickhouseArrow.Arrow.Dictionaries
import ClickhouseArrow.Arrow.EnumRoundTrip

/-!
# Columns that are written as nothing

A column without rows has no rows to write, but what is written of a list is all its values, and
what is written of an enum is checked against the labels of its dictionary.  The module says of
any column, with rows or without, whether its bytes are none (`writesNothing`), and proves it of
the encoder.
-/

namespace ClickhouseArrow

open Wire

namespace Arrow

/-! ## The condition -/

/-- The dictionary of an enum column has the labels of the type. -/
def labelled (labels : List Bytes) : ArrowArray → Bool
  | .dictionary _ _ _ (.bytes _ values _) => values == labels
  | _ => false

/-- The columns of a point have no rows. -/
def pointWritesNothing : ArrowArray → Bool
  | .struct _ columns _ _ => columns.all fun column => column.len == 0
  | _ => false

/-- A list has no rows, and there is nothing to write of its values, those that no row of it
takes included. -/
def listWritesNothing (values : ArrowArray → Bool) : ArrowArray → Bool
  | .list _ _ offsets items _ => offsets.length - 1 == 0 && values items
  | _ => false

mutual

/-- A column of the type announced, in a `Nullable` or not, is written as no bytes. -/
def writesNothing (isNull : Bool) : ChType → ArrowArray → Bool
  | .nullable inner, column => !isNull && column.len == 0 && writesNothing true inner column
  | .array inner, column => listWritesNothing (writesNothing false inner) column
  | .map key value, column =>
      match column with
      | .map _ _ offsets keys values _ =>
          -- A `Nullable` of a map is not written at all.
          !isNull && offsets.length - 1 == 0 && writesNothing false key keys &&
            writesNothing false value values
      | _ => false
  | .tuple items, column =>
      match column with
      | .struct _ columns _ _ => writeNothing items columns
      | _ => false
  | .enum8 pairs, column => column.len == 0 && labelled (Enums.declared pairs) column
  | .enum16 pairs, column => column.len == 0 && labelled (Enums.declared pairs) column
  | .fixedSizedString n, column | .fixedSizedBinary n, column => n == 0 || column.len == 0
  | .point, column => pointWritesNothing column
  | .ring, column => listWritesNothing pointWritesNothing column
  | .polygon, column => listWritesNothing (listWritesNothing pointWritesNothing) column
  | .multiPolygon, column =>
      listWritesNothing (listWritesNothing (listWritesNothing pointWritesNothing)) column
  | _, column => column.len == 0

def writeNothing : List ChType → List ArrowArray → Bool
  | t :: ts, column :: columns => writesNothing false t column && writeNothing ts columns
  | _, _ => true

end

/-! ## Shapes by the data type -/

namespace ArrowArray

variable {column : ArrowArray}

theorem Shaped.eq_primitive {t : PrimitiveType} (hs : column.Shaped)
    (hd : column.dataType = .primitive t) :
    ∃ values nulls, column = .primitive t values nulls ∧ Nulls.Fit values.length nulls := by
  cases hs with
  | primitive hfit =>
      cases hd
      exact ⟨_, _, rfl, hfit⟩
  | _ => cases hd

theorem Shaped.eq_bytes {t : BytesType} (hs : column.Shaped) (hd : column.dataType = .bytes t) :
    ∃ values nulls, column = .bytes t values nulls ∧ Nulls.Fit values.length nulls := by
  cases hs with
  | bytes hfit =>
      cases hd
      exact ⟨_, _, rfl, hfit⟩
  | _ => cases hd

theorem Shaped.eq_fixedSizeBinary {size : Int32} (hs : column.Shaped)
    (hd : column.dataType = .fixedSizeBinary size) :
    ∃ values nulls, column = .fixedSizeBinary size values nulls ∧
      Nulls.Fit values.length nulls := by
  cases hs with
  | fixedSizeBinary hfit =>
      cases hd
      exact ⟨_, _, rfl, hfit⟩
  | _ => cases hd

theorem Shaped.eq_list {large : Bool} {item : Field} (hs : column.Shaped)
    (hd : column.dataType = .list large item) :
    ∃ offsets values nulls, column = .list large item offsets values nulls ∧ offsets ≠ [] ∧
      values.Shaped ∧ values.dataType = item.dataType := by
  cases hs with
  | list hoffsets hitem hvalues _ =>
      cases hd
      exact ⟨_, _, _, rfl, hoffsets, hvalues, hitem.symm⟩
  | _ => cases hd

theorem Shaped.eq_struct {fields : List Field} (hs : column.Shaped)
    (hd : column.dataType = .struct fields) :
    ∃ columns n nulls, column = .struct fields columns n nulls ∧
      columns.map dataType = fields.map FieldOf.dataType ∧ ∀ a ∈ columns, a.Shaped := by
  cases hs with
  | struct hfields _ hcolumns _ =>
      cases hd
      exact ⟨_, _, _, rfl, hfields.symm, hcolumns⟩
  | _ => cases hd

theorem Shaped.eq_map {name : String} {keyField valueField : Field} {nullable sorted : Bool}
    (hs : column.Shaped)
    (hd : column.dataType = .map ⟨name, .struct [keyField, valueField], nullable⟩ sorted) :
    ∃ offsets keys values nulls,
      column = .map ⟨name, .struct [keyField, valueField], nullable⟩ sorted offsets keys values
        nulls ∧ offsets ≠ [] ∧ keys.Shaped ∧ keys.dataType = keyField.dataType ∧ values.Shaped ∧
      values.dataType = valueField.dataType := by
  cases hs with
  | map hoffsets hentries hkey hvalue hkeys hvalues _ =>
      cases hd
      cases hentries
      exact ⟨_, _, _, _, rfl, hoffsets, hkeys, hkey.symm, hvalues, hvalue.symm⟩
  | _ => cases hd

theorem Shaped.eq_dictionary (key : KeyType) {value : DataType} (hs : column.Shaped)
    (hd : column.dataType = .dictionary (.primitive key.primitive) value) :
    ∃ keys nulls values, column = .dictionary key keys nulls values ∧ values.Shaped ∧
      values.dataType = value ∧ Nulls.Fit keys.length nulls := by
  cases hs with
  | @dictionary key' keys nulls values hfit hvalues =>
      replace hd : DataType.dictionary (.primitive key'.primitive) values.dataType =
        .dictionary (.primitive key.primitive) value := hd
      obtain ⟨hkey, hvalue⟩ := DataType.dictionary.inj hd
      obtain rfl : key' = key := by
        cases key' <;> cases key <;> first | rfl | cases hkey
      exact ⟨keys, nulls, values, rfl, hvalues, hvalue, hfit⟩
  | _ => cases hd

/-- The null buffer of an array has a bit for every row. -/
theorem Shaped.fit (hs : column.Shaped) : column.nulls.Fit column.len := by
  cases hs with
  | null | union | runEndEncoded => exact fun _ h => by cases h
  | boolean h | primitive h | fixedSizeBinary h | bytes h | list _ _ _ h | listView _ _ _ h
  | fixedSizeList _ _ h | struct _ _ _ h | map _ _ _ _ _ _ h | dictionary h _ => exact h

end ArrowArray

/-! ## Leaves -/

theorem slots_eq_nil_iff {α : Type} {values : List α} {nulls : Nulls}
    (h : nulls.Fit values.length) : slots values nulls = [] ↔ (values.length == 0) = true := by
  rw [beq_iff_eq, ← slots_length h, List.length_eq_zero_iff]

theorem putLe_ne_nil {α : Type} [Word α] (hwidth : Word.width α ≠ 0) (x : α) : putLe x ≠ [] :=
  List.ne_nil_of_length_pos (by rw [putLe_length]; omega)

/-- Rows of a width are written as nothing where there are none. -/
theorem Primitive.writeRows_eq_ok_nil_iff {α β : Type} {default : β} {coerce : α → ArrowResult β}
    {write : β → Bytes} {values : List α} {nulls : Nulls} (hdefault : write default ≠ [])
    (hcoerce : ∀ value x, coerce value = .ok x → write x ≠ []) (hfit : nulls.Fit values.length) :
    Primitive.writeRows default coerce write (slots values nulls) = .ok [] ↔
      (values.length == 0) = true := by
  rw [← slots_eq_nil_iff hfit]
  apply Outcome.emit_eq_ok_nil_iff
  intro row bytes hrow
  cases row with
  | none =>
      cases hrow
      exact hdefault
  | some value =>
      obtain ⟨x, hx, hrow⟩ := Outcome.bind_eq_ok.mp hrow
      cases hrow
      exact hcoerce value x hx

theorem Primitive.writeWords_eq_ok_nil_iff {α β : Type} [Word β] {default : β}
    {coerce : α → ArrowResult β} {values : List α} {nulls : Nulls}
    (hwidth : Word.width β ≠ 0) (hfit : nulls.Fit values.length) :
    Primitive.writeRows default coerce putLe (slots values nulls) = .ok [] ↔
      (values.length == 0) = true :=
  Primitive.writeRows_eq_ok_nil_iff (putLe_ne_nil hwidth default)
    (fun _ x _ => putLe_ne_nil hwidth x) hfit

/-- Octets that were checked for their number. -/
theorem ne_nil_of_exactly {n : Nat} {complaint : String} {value x : Bytes} (hn : n ≠ 0)
    (h : Primitive.exactly n complaint value = .ok x) : x ≠ [] := by
  unfold Primitive.exactly at h
  split_ifs at h with hlength
  · cases h
    exact List.ne_nil_of_length_pos (by omega)
  · cases h

theorem Binary.writeVariable_eq_ok_nil_iff {values : List Bytes} {nulls : Nulls}
    (hfit : nulls.Fit values.length) :
    (Except.ok (Binary.writeVariable (slots values nulls)) : ArrowResult Bytes) = .ok [] ↔
      (values.length == 0) = true := by
  rw [← slots_eq_nil_iff hfit, Except.ok.injEq, Binary.writeVariable, List.flatMap_eq_nil_iff]
  constructor
  · intro h
    refine List.eq_nil_iff_forall_not_mem.mpr fun row hrow => ?_
    exact leb128_ne_nil 8 _ (List.append_eq_nil_iff.mp (h row hrow)).1
  · intro h row hrow
    rw [h] at hrow
    cases hrow

theorem Binary.writeFixed_zero (row : Option Bytes) : Binary.writeFixed 0 row = .ok [] := by
  cases row with
  | none => rfl
  | some value =>
      have hzeroed : zeroed 0 = .ok [] := rfl
      simp only [Binary.writeFixed]
      split_ifs with hlength
      · rw [hzeroed, Outcome.ok_bind, List.take_zero, List.drop_nil, List.append_nil]
      · rw [not_not, List.length_eq_zero_iff] at hlength
        rw [hlength]

theorem length_of_zeroed {n : Nat} {bytes : Bytes} (h : zeroed n = .ok bytes) :
    bytes.length = n := by
  unfold zeroed at h
  split_ifs at h
  · cases h
  · cases h
    simp

/-- A row of a fixed width is that wide. -/
theorem Binary.length_of_writeFixed {n : Nat} {row : Option Bytes} {bytes : Bytes}
    (h : Binary.writeFixed n row = .ok bytes) : bytes.length = n := by
  cases row with
  | none => exact length_of_zeroed h
  | some value =>
      simp only [Binary.writeFixed] at h
      split_ifs at h with hlength
      · obtain ⟨padded, hpadded, h⟩ := Outcome.bind_eq_ok.mp h
        cases h
        have hzeros := length_of_zeroed hpadded
        rw [List.length_append, List.length_take, List.length_drop]
        omega
      · cases h
        exact not_not.mp hlength

theorem Binary.writeFixedRows_eq_ok_nil_iff {n : Nat} {values : List Bytes} {nulls : Nulls}
    (hfit : nulls.Fit values.length) :
    Outcome.emit (Binary.writeFixed n) (slots values nulls) = .ok [] ↔
      (n == 0 || values.length == 0) = true := by
  rw [Bool.or_eq_true, ← slots_eq_nil_iff hfit, beq_iff_eq]
  by_cases hn : n = 0
  · subst hn
    have hnothing := Outcome.emit_eq_ok_flatMap (g := fun _ => []) fun row
      (_ : row ∈ slots values nulls) => Binary.writeFixed_zero row
    rw [hnothing, List.flatMap_eq_nil_iff.mpr fun _ _ => rfl]
    simp
  · rw [Outcome.emit_eq_ok_nil_iff fun row bytes hrow => ?_]
    · simp [hn]
    · exact List.ne_nil_of_length_pos (by rw [Binary.length_of_writeFixed hrow]; omega)

/-- An enum column without rows is checked against the labels of the type all the same. -/
theorem Enums.writeEnumValues_eq_ok_nil_iff {α : Type} [Word α] [DecidableEq α]
    {cast : Int → α} (toInt : α → Int) {pairs : List (String × α)} (hwidth : Word.width α ≠ 0)
    (key : KeyType) {keys : List Nat} {nulls : Nulls} (labelNulls : Nulls) {labels : List Bytes}
    (hfit : nulls.Fit keys.length) :
    Enums.writeEnumValues cast toInt pairs
        (.dictionary key keys nulls (.bytes .utf8 labels labelNulls)) = .ok [] ↔
      (keys.length == 0 && labels == Enums.declared pairs) = true := by
  have hwords (a : Option Nat) (bytes : Bytes) (h : Enums.valueAt cast pairs a = .ok bytes) :
      bytes ≠ [] := by
    cases a with
    | none =>
        cases h
        exact putLe_ne_nil hwidth _
    | some k =>
        simp only [Enums.valueAt] at h
        split at h
        · cases h
          exact putLe_ne_nil hwidth _
        · cases h
  rw [Bool.and_eq_true, ← slots_eq_nil_iff hfit, beq_iff_eq]
  show (if labels.length ≠ pairs.length then _ else
    Enums.checkLabels 0 labels pairs >>= fun _ =>
      Outcome.emit (Enums.valueAt cast pairs) (slots keys nulls)) = .ok [] ↔ _
  -- The labels are compared before the rows are looked at.
  by_cases hlength : labels.length = pairs.length
  · rw [if_neg (not_not.mpr hlength), ← Enums.checkLabels_eq_ok (i := 0) hlength]
    cases hcheck : Enums.checkLabels 0 labels pairs with
    | error e => simp
    | ok u =>
        rw [Outcome.ok_bind, Outcome.emit_eq_ok_nil_iff hwords]
        simp
  · rw [if_pos hlength]
    refine iff_of_false (fun h => by cases h) ?_
    rintro ⟨-, hlabels⟩
    rw [hlabels, Enums.declared, List.length_map] at hlength
    exact hlength rfl

/-! ## Columns of any type -/

section Columns

variable {options : Option ArrowOptions} {isNull n : Bool} {d : DataType} {column : ArrowArray}

/-- The leaves, but for the geo types. -/
theorem serializeAsyncOf_leaf_eq_ok_nil_iff {t : ChType} (hflat : t.isComposite = false)
    (hgeo : ∀ u, normalizeGeoType t ≠ .ok u) (h : arrowTypeOf options isNull t = .ok (d, n))
    (hs : column.Shaped) (hd : column.dataType = d) :
    serializeAsyncOf isNull t column d = .ok [] ↔ writesNothing isNull t column = true := by
  subst hd
  cases t with
  | nullable | lowCardinality | array | tuple | map => cases hflat
  | point | ring | polygon | multiPolygon => exact absurd rfl (hgeo _)
  | int8 | int16 | int32 | int64 | uint16 | uint32 | uint64 | float32 | float64
  | decimal32 | decimal64 | decimal128 | date | date32 | dateTime =>
      obtain ⟨hd, -⟩ := Prod.mk.inj (Except.ok.inj h)
      obtain ⟨values, nulls, rfl, hfit⟩ := hs.eq_primitive hd.symm
      exact Primitive.writeWords_eq_ok_nil_iff (by decide) hfit
  | uint8 =>
      obtain ⟨hd, -⟩ := Prod.mk.inj (Except.ok.inj h)
      obtain ⟨values, nulls, rfl, hfit⟩ := hs.eq_primitive hd.symm
      exact Primitive.writeWords_eq_ok_nil_iff (by decide) hfit
  | decimal256 =>
      obtain ⟨hd, -⟩ := Prod.mk.inj (Except.ok.inj h)
      obtain ⟨values, nulls, rfl, hfit⟩ := hs.eq_primitive hd.symm
      refine Primitive.writeRows_eq_ok_nil_iff (by decide) (fun value x hx => ?_) hfit
      cases hx
      apply List.ne_nil_of_length_pos
      rw [id, Primitive.swapEndian256, List.length_reverse, value.length_eq]
      decide
  | dateTime64 p tz =>
      obtain ⟨unit, hunit⟩ : ∃ unit, column.dataType = .primitive (.timestamp unit (some tz.name)) := by
        rw [arrowTypeOf] at h
        split_ifs at h
        all_goals first | exact ⟨_, (Prod.mk.inj (Except.ok.inj h)).1.symm⟩ | cases h
      obtain ⟨values, nulls, rfl, hfit⟩ := hs.eq_primitive hunit
      have hwords {coerce : Int64 → ArrowResult UInt64} :
          Primitive.writeRows 0 coerce putLe (slots values nulls) = .ok [] ↔
            (values.length == 0) = true :=
        Primitive.writeWords_eq_ok_nil_iff (by decide) hfit
      show Primitive.serializeAsync (.dateTime64 p tz) _ _ = .ok [] ↔ _
      rw [arrowTypeOf] at h
      simp only [Primitive.serializeAsync]
      split_ifs at h ⊢
      · cases unit <;> exact hwords
      · cases unit <;> exact hwords
      · cases unit <;> exact hwords
      · cases unit <;> exact hwords
      · cases h
  | int128 | uint128 | ipv4 =>
      obtain ⟨hd, -⟩ := Prod.mk.inj (Except.ok.inj h)
      obtain ⟨values, nulls, rfl, hfit⟩ := hs.eq_fixedSizeBinary hd.symm
      exact Primitive.writeWords_eq_ok_nil_iff (by decide) hfit
  | int256 | uint256 =>
      obtain ⟨hd, -⟩ := Prod.mk.inj (Except.ok.inj h)
      obtain ⟨values, nulls, rfl, hfit⟩ := hs.eq_fixedSizeBinary hd.symm
      refine Primitive.writeRows_eq_ok_nil_iff (by decide) (fun value x hx => ?_) hfit
      obtain ⟨octets, hoctets, rfl⟩ := Outcome.map_eq_ok.mp hx
      rw [id, Primitive.swapEndian256, ne_eq, List.reverse_eq_nil_iff]
      exact ne_nil_of_exactly (by decide) hoctets
  | ipv6 =>
      obtain ⟨hd, -⟩ := Prod.mk.inj (Except.ok.inj h)
      obtain ⟨values, nulls, rfl, hfit⟩ := hs.eq_fixedSizeBinary hd.symm
      exact Primitive.writeRows_eq_ok_nil_iff (by decide)
        (fun value x hx => ne_nil_of_exactly (by decide) hx) hfit
  | uuid =>
      obtain ⟨hd, -⟩ := Prod.mk.inj (Except.ok.inj h)
      obtain ⟨values, nulls, rfl, hfit⟩ := hs.eq_fixedSizeBinary hd.symm
      -- The two halves are exchanged.
      have hwrite (x : Bytes) (hx : x ≠ []) : x.drop 8 ++ x.take 8 ≠ [] := by
        intro hnil
        obtain ⟨hdrop, htake⟩ := List.append_eq_nil_iff.mp hnil
        rw [← List.take_append_drop 8 x, hdrop, htake] at hx
        exact hx rfl
      show Primitive.writeRows (List.replicate 16 0) (Primitive.exactly 16 "UUID must be 16 bytes")
        (fun bytes => bytes.drop 8 ++ bytes.take 8) (slots values nulls) = .ok [] ↔ _
      exact Primitive.writeRows_eq_ok_nil_iff (hwrite (List.replicate 16 0) (by decide))
        (fun value x hx => hwrite x (ne_nil_of_exactly (by decide) hx)) hfit
  | string | binary | object =>
      obtain ⟨hd, -⟩ := Prod.mk.inj (Except.ok.inj h)
      obtain ⟨values, nulls, rfl, hfit⟩ := hs.eq_bytes hd.symm
      exact Binary.writeVariable_eq_ok_nil_iff hfit
  | fixedSizedString | fixedSizedBinary =>
      obtain ⟨hd, -⟩ := Prod.mk.inj (Except.ok.inj h)
      obtain ⟨values, nulls, rfl, hfit⟩ := hs.eq_fixedSizeBinary hd.symm
      exact Binary.writeFixedRows_eq_ok_nil_iff hfit
  | enum8 =>
      obtain ⟨hd, -⟩ := Prod.mk.inj (Except.ok.inj h)
      obtain ⟨keys, nulls, values, rfl, hvalues, hlabels, hfit⟩ :=
        hs.eq_dictionary .int8 hd.symm
      obtain ⟨labels, labelNulls, rfl, -⟩ := hvalues.eq_bytes hlabels
      exact Enums.writeEnumValues_eq_ok_nil_iff Int8.toInt (by decide) .int8 labelNulls hfit
  | enum16 =>
      obtain ⟨hd, -⟩ := Prod.mk.inj (Except.ok.inj h)
      obtain ⟨keys, nulls, values, rfl, hvalues, hlabels, hfit⟩ :=
        hs.eq_dictionary .int16 hd.symm
      obtain ⟨labels, labelNulls, rfl, -⟩ := hvalues.eq_bytes hlabels
      exact Enums.writeEnumValues_eq_ok_nil_iff Int16.toInt (by decide) .int16 labelNulls hfit

/-- The null mask of an array or a map is left out, and that of any other column has a byte for
every row. -/
theorem nullMask_eq_nil_iff {t : ChType} (hfit : column.nulls.Fit column.len) :
    Null.serializeNullsAsync t column = [] ↔
      (∃ inner, t = .array inner) ∨ (∃ key value, t = .map key value) ∨ column.len = 0 := by
  cases t with
  | array inner => simp [Null.serializeNullsAsync]
  | map key value => simp [Null.serializeNullsAsync]
  | _ =>
      cases hnulls : column.nulls with
      | none => simp [Null.serializeNullsAsync, hnulls]
      | some valid => simp [Null.serializeNullsAsync, hnulls, ← hfit valid hnulls]

/-- A list is written as its offsets and all its values. -/
theorem Lists.serializeAsync_eq_ok_nil_iff {inner : ChType}
    {serialize : ArrowArray → DataType → ArrowResult Bytes} {item : DataType × Bool}
    {offsets : List Nat} {values : ArrowArray} {nulls : Nulls} {writes : ArrowArray → Bool}
    (hoffsets : offsets ≠ []) (hvalues : serialize values item.1 = .ok [] ↔ writes values = true) :
    Lists.serializeAsync inner serialize (.list false ⟨listItemFieldName, item.1, item.2⟩ offsets
        values nulls) (listOf item) = .ok [] ↔
      listWritesNothing writes (.list false ⟨listItemFieldName, item.1, item.2⟩ offsets values
        nulls) = true := by
  cases offsets with
  | nil => exact absurd rfl hoffsets
  | cons start ends =>
      show (serialize values item.1 >>= fun body => .ok (ends.flatMap putUsize ++ body)) = .ok [] ↔
        (ends.length + 1 - 1 == 0 && writes values) = true
      rw [Bool.and_eq_true, ← hvalues, Nat.add_sub_cancel, beq_iff_eq, List.length_eq_zero_iff]
      constructor
      · intro h
        obtain ⟨body, hbody, h⟩ := Outcome.bind_eq_ok.mp h
        obtain ⟨hends, rfl⟩ := List.append_eq_nil_iff.mp (Except.ok.inj h)
        refine ⟨List.eq_nil_iff_forall_not_mem.mpr fun offset hmem => ?_, hbody⟩
        exact putLe_ne_nil (by decide) _ (List.flatMap_eq_nil_iff.mp hends offset hmem)
      · rintro ⟨rfl, hbody⟩
        rw [hbody]
        rfl

/-- The columns of a tuple. -/
theorem serializeColumnsAsync_eq_ok_nil_iff {ts : List ChType}
    (ih : ∀ t ∈ ts, ∀ d n column, arrowTypeOf options false t = .ok (d, n) → column.Shaped →
      column.dataType = d →
      (serializeAsyncOf false t column d = .ok [] ↔ writesNothing false t column = true))
    {items : List (DataType × Bool)} (h : arrowTypesOf options ts = .ok items) (i : Nat)
    {columns : List ArrowArray}
    (htypes : columns.map ArrowArray.dataType = (tupleFields i items).map FieldOf.dataType)
    (hcolumns : ∀ a ∈ columns, a.Shaped) :
    serializeColumnsAsync ts (tupleFields i items) columns = .ok [] ↔
      writeNothing ts columns = true := by
  induction ts generalizing items i columns with
  | nil => exact iff_of_true rfl rfl
  | cons t ts ihts =>
      obtain ⟨item, rest, hitem, hrest, rfl⟩ := arrowTypesOf_cons h
      cases columns with
      | nil => cases htypes
      | cons column columns =>
          obtain ⟨hhead, htail⟩ := List.cons.inj htypes
          obtain ⟨hshaped, hshapes⟩ := List.forall_mem_cons.mp hcolumns
          rw [writeNothing, Bool.and_eq_true,
            ← ih t List.mem_cons_self item.1 item.2 column hitem hshaped hhead,
            ← ihts (fun u hu => ih u (List.mem_cons_of_mem t hu)) hrest (i + 1) htail hshapes]
          show (serializeAsyncOf false t column item.1 >>= fun bytes =>
            serializeColumnsAsync ts (tupleFields (i + 1) rest) columns >>= fun others =>
              .ok (bytes ++ others)) = .ok [] ↔ _
          constructor
          · intro h
            obtain ⟨bytes, hbytes, h⟩ := Outcome.bind_eq_ok.mp h
            obtain ⟨others, hothers, h⟩ := Outcome.bind_eq_ok.mp h
            obtain ⟨rfl, rfl⟩ := List.append_eq_nil_iff.mp (Except.ok.inj h)
            exact ⟨hbytes, hothers⟩
          · rintro ⟨hbytes, hothers⟩
            rw [hbytes, Outcome.ok_bind, hothers]
            rfl

theorem totalLengths_eq_nil_iff (total : Nat) {offsets : List Nat} :
    Maps.totalLengths total offsets = [] ↔ offsets.length - 1 = 0 := by
  match offsets with
  | [] => simp [Maps.totalLengths]
  | [_] => simp [Maps.totalLengths]
  | _ :: _ :: _ => simp [Maps.totalLengths]

/-- A map is written as the ends of its rows, its keys and its values. -/
theorem Maps.serializeAsync_eq_ok_nil_iff {key value : ArrowArray → DataType → ArrowResult Bytes}
    {dk : DataType} {dv : DataType × Bool} {offsets : List Nat} {keys values : ArrowArray}
    (nulls : Nulls) :
    Maps.serializeAsync key value (.map ⟨mapFieldName, .struct [⟨structKeyFieldName, dk, false⟩,
        ⟨structValueFieldName, dv.1, dv.2⟩], false⟩ false offsets keys values nulls)
        (mapOf dk dv) = .ok [] ↔
      offsets.length - 1 = 0 ∧ key keys dk = .ok [] ∧ value values dv.1 = .ok [] := by
  rw [← totalLengths_eq_nil_iff 0]
  show (key keys dk >>= fun keyBytes => value values dv.1 >>= fun valueBytes =>
    .ok ((Maps.totalLengths 0 offsets).flatMap putUsize ++ keyBytes ++ valueBytes)) = .ok [] ↔ _
  constructor
  · intro h
    obtain ⟨keyBytes, hkey, h⟩ := Outcome.bind_eq_ok.mp h
    obtain ⟨valueBytes, hvalue, h⟩ := Outcome.bind_eq_ok.mp h
    obtain ⟨hleft, rfl⟩ := List.append_eq_nil_iff.mp (Except.ok.inj h)
    obtain ⟨hends, rfl⟩ := List.append_eq_nil_iff.mp hleft
    refine ⟨List.eq_nil_iff_forall_not_mem.mpr fun offset hmem => ?_, hkey, hvalue⟩
    exact putLe_ne_nil (by decide) _ (List.flatMap_eq_nil_iff.mp hends offset hmem)
  · rintro ⟨hends, hkey, hvalue⟩
    rw [hends, hkey, Outcome.ok_bind, hvalue]
    rfl

/-- A dictionary with rows has a flag word. -/
theorem LowCardinality.serializeAsync_eq_ok_nil_iff {inner : ChType}
    {serialize : ArrowArray → DataType → ArrowResult Bytes} {keys : List Nat} {nulls : Nulls}
    {values : ArrowArray} (hfit : nulls.Fit keys.length) (v : DataType) :
    LowCardinality.serializeAsync inner isNull serialize (.dictionary .int32 keys nulls values)
        (.dictionary (.primitive .int32) v) = .ok [] ↔ (keys.length == 0) = true := by
  rw [beq_iff_eq]
  constructor
  · intro h
    by_contra hlen
    have hrows : keys ≠ [] := fun hnil => hlen (by rw [hnil]; rfl)
    replace h : (if keys.length = 0 then .ok [] else LowCardinality.writeValues .int32 inner serialize
      (.dictionary .int32 keys nulls values)) = .ok [] := h
    rw [if_neg hlen, LowCardinality.writeValues_dictionary _ _ _ hrows hfit] at h
    obtain ⟨default, -, h⟩ := Outcome.bind_eq_ok.mp h
    obtain ⟨body, -, h⟩ := Outcome.bind_eq_ok.mp h
    exact LowCardinality.blockBytes_ne_nil _ _ _ _ (Except.ok.inj h)
  · intro h
    exact LowCardinality.serializeAsync_empty inner isNull serialize _ h

/-- A point is written as its coordinates, the one after the other. -/
theorem serializePointAsync_eq_ok_nil_iff (hs : column.Shaped) (hd : column.dataType = pointOf) :
    serializePointAsync column = .ok [] ↔ pointWritesNothing column = true := by
  obtain ⟨columns, k, nulls, rfl, htypes, hcolumns⟩ := hs.eq_struct hd
  have hcoordinates := @serializeColumnsAsync_eq_ok_nil_iff none [.float64, .float64]
    (fun t ht d n column h hs hd => ?_) _ rfl 0 _ htypes hcolumns
  · rw [serializePointAsync_eq]
    refine hcoordinates.trans ?_
    have hlength : columns.length = 2 := by
      simpa [tupleFields] using congrArg List.length htypes
    obtain ⟨x, y, rfl⟩ := List.length_eq_two.mp hlength
    simp [writeNothing, writesNothing, pointWritesNothing]
  · obtain rfl : t = .float64 := by simpa using ht
    exact serializeAsyncOf_leaf_eq_ok_nil_iff rfl (by simp [normalizeGeoType, Outcome.fail]) h hs hd

theorem serializeRingAsync_eq_ok_nil_iff (hs : column.Shaped)
    (hd : column.dataType = listOf (pointOf, false)) :
    serializeRingAsync column (listOf (pointOf, false)) = .ok [] ↔
      listWritesNothing pointWritesNothing column = true := by
  obtain ⟨offsets, values, nulls, rfl, hoffsets, hvalues, hvalueType⟩ := hs.eq_list hd
  exact @Lists.serializeAsync_eq_ok_nil_iff _ _ (pointOf, false) _ _ _ _ hoffsets
    (serializePointAsync_eq_ok_nil_iff hvalues hvalueType)

theorem serializePolygonAsync_eq_ok_nil_iff (hs : column.Shaped)
    (hd : column.dataType = listOf (listOf (pointOf, false), false)) :
    serializePolygonAsync column (listOf (listOf (pointOf, false), false)) = .ok [] ↔
      listWritesNothing (listWritesNothing pointWritesNothing) column = true := by
  obtain ⟨offsets, values, nulls, rfl, hoffsets, hvalues, hvalueType⟩ := hs.eq_list hd
  exact @Lists.serializeAsync_eq_ok_nil_iff _ _ (listOf (pointOf, false), false) _ _ _ _ hoffsets
    (serializeRingAsync_eq_ok_nil_iff hvalues hvalueType)

theorem serializeMultiPolygonAsync_eq_ok_nil_iff (hs : column.Shaped)
    (hd : column.dataType = listOf (listOf (listOf (pointOf, false), false), false)) :
    serializeMultiPolygonAsync column (listOf (listOf (listOf (pointOf, false), false), false)) =
        .ok [] ↔
      listWritesNothing (listWritesNothing (listWritesNothing pointWritesNothing)) column =
        true := by
  obtain ⟨offsets, values, nulls, rfl, hoffsets, hvalues, hvalueType⟩ := hs.eq_list hd
  exact @Lists.serializeAsync_eq_ok_nil_iff _ _ (listOf (listOf (pointOf, false), false), false) _ _
    _ _ hoffsets
    (serializePolygonAsync_eq_ok_nil_iff hvalues hvalueType)

/-- **Columns that are written as nothing** are those that the condition names. -/
theorem serializeAsyncOf_eq_ok_nil_iff {t : ChType} (h : arrowTypeOf options isNull t = .ok (d, n))
    (hs : column.Shaped) (hd : column.dataType = d) :
    serializeAsyncOf isNull t column d = .ok [] ↔ writesNothing isNull t column = true := by
  induction t using ChType.inductionOn generalizing isNull d n column with
  | hleaf t hflat =>
      -- A geo type is not announced in a `Nullable`.
      have hbare {d' : DataType} (hgeo : geoTypeOf isNull d' = .ok (d, n)) :
          isNull = false ∧ d = d' := by
        cases isNull with
        | true => cases hgeo
        | false =>
            cases hgeo
            exact ⟨rfl, rfl⟩
      cases t with
      | point =>
          obtain ⟨rfl, rfl⟩ := hbare h
          exact serializePointAsync_eq_ok_nil_iff hs hd
      | ring =>
          obtain ⟨rfl, rfl⟩ := hbare h
          exact serializeRingAsync_eq_ok_nil_iff hs hd
      | polygon =>
          obtain ⟨rfl, rfl⟩ := hbare h
          exact serializePolygonAsync_eq_ok_nil_iff hs hd
      | multiPolygon =>
          obtain ⟨rfl, rfl⟩ := hbare h
          exact serializeMultiPolygonAsync_eq_ok_nil_iff hs hd
      | _ =>
          exact serializeAsyncOf_leaf_eq_ok_nil_iff hflat
            (fun u hu => by cases hu) h hs hd
  | hnullable inner ih =>
      obtain ⟨rfl, hinner⟩ := arrowTypeOf_nullable h
      have hinnerIff := ih hinner hs hd
      rw [writesNothing, Bool.not_false, Bool.true_and, Bool.and_eq_true, ← hinnerIff, beq_iff_eq]
      show (serializeAsyncOf true inner column d >>= fun body =>
        .ok (Null.serializeNullsAsync inner column ++ body)) = .ok [] ↔ _
      constructor
      · intro h
        obtain ⟨body, hbody, h⟩ := Outcome.bind_eq_ok.mp h
        obtain ⟨hmask, rfl⟩ := List.append_eq_nil_iff.mp (Except.ok.inj h)
        refine ⟨?_, hbody⟩
        rcases (nullMask_eq_nil_iff hs.fit).mp hmask with ⟨w, rfl⟩ | ⟨k, v, rfl⟩ | hlen
        · obtain ⟨item, -, rfl, -⟩ := arrowTypeOf_array hinner
          obtain ⟨offsets, values, nulls, rfl, -⟩ := hs.eq_list hd
          have hwrites := hinnerIff.mp hbody
          rw [writesNothing, listWritesNothing, Bool.and_eq_true, beq_iff_eq] at hwrites
          exact hwrites.1
        · cases hbody
        · exact hlen
      · rintro ⟨hlen, hbody⟩
        rw [hbody, (nullMask_eq_nil_iff hs.fit).mpr (.inr (.inr hlen))]
        rfl
  | hlowCardinality inner _ _ =>
      obtain ⟨value, -, rfl, -⟩ := arrowTypeOf_lowCardinality h
      obtain ⟨keys, nulls, values, rfl, -, -, hfit⟩ := hs.eq_dictionary .int32 hd
      rw [serializeAsyncOf_lowCardinality]
      exact LowCardinality.serializeAsync_eq_ok_nil_iff hfit value.1
  | harray inner ih =>
      obtain ⟨item, hitem, rfl, -⟩ := arrowTypeOf_array h
      obtain ⟨offsets, values, nulls, rfl, hoffsets, hvalues, hvalueType⟩ := hs.eq_list hd
      exact Lists.serializeAsync_eq_ok_nil_iff hoffsets (ih hitem hvalues hvalueType)
  | htuple items ih =>
      obtain ⟨fields, hfields, rfl, -⟩ := arrowTypeOf_tuple h
      obtain ⟨columns, k, nulls, rfl, htypes, hcolumns⟩ := hs.eq_struct hd
      show (if (tupleFields 0 fields).length ≠ items.length then _ else _) = _ ↔ _
      rw [if_neg (not_not.mpr (length_of_arrowTypesOf hfields 0).symm)]
      exact serializeColumnsAsync_eq_ok_nil_iff
        (fun t ht d n column hd hs hcolumn => ih t ht hd hs hcolumn) hfields 0 htypes hcolumns
  | hmap key value ihkey ihvalue =>
      obtain ⟨k, v, hk, hv, rfl, -⟩ := arrowTypeOf_map h
      obtain ⟨offsets, keys, values, nulls, rfl, hoffsets, hkeys, hkeyType, hvalues, hvalueType⟩ :=
        hs.eq_map hd
      have hkeysIff := ihkey hk hkeys hkeyType
      have hvaluesIff := ihvalue hv hvalues hvalueType
      cases isNull with
      | true => exact iff_of_false (fun h => by cases h) (fun h => by cases h)
      | false =>
          refine (Maps.serializeAsync_eq_ok_nil_iff nulls).trans ?_
          rw [hkeysIff, hvaluesIff]
          show _ ↔ (!false && offsets.length - 1 == 0 && _ && _) = true
          simp only [Bool.and_eq_true, beq_iff_eq, Bool.not_false, true_and, and_assoc]

end Columns

end Arrow

end ClickhouseArrow
