import ClickhouseArrow.Arrow.DataTypes

/-!
# Arrow arrays

The part of `arrow-array` that the codec rests on: the arrays, their types, lengths and
nulls, and the checks that the constructors of nested arrays make.  An array is what is left
of it after slicing: a window of a flat array is the list of its values, a list or a map
keeps its offsets into values that are not cut.
-/

namespace ClickhouseArrow

open Wire

namespace Arrow

/-! ## Nulls -/

/-- `Option<NullBuffer>`, with `true` for a row that is valid. -/
abbrev Nulls := Option (List Bool)

namespace Nulls

/-- `null_count`. -/
def count (nulls : Nulls) : Nat := (nulls.getD []).count false

/-- The validity of `len` rows. -/
def validity (len : Nat) (nulls : Nulls) : List Bool := nulls.getD (List.replicate len true)

/-- The buffer has a bit for every row. -/
def Fit (len : Nat) (nulls : Nulls) : Prop := ∀ valid, nulls = some valid → valid.length = len

end Nulls

/-- The rows as `value(i)` and `is_null(i)` give them. -/
def slots {α : Type} (values : List α) (nulls : Nulls) : List (Option α) :=
  match nulls with
  | none => values.map some
  | some valid => List.zipWith (fun value isValid => if isValid then some value else none) values valid

@[simp] theorem slots_none {α : Type} (values : List α) : slots values none = values.map some := rfl

theorem slots_map {α β : Type} (f : α → β) (values : List α) (nulls : Nulls) :
    slots (values.map f) nulls = (slots values nulls).map (Option.map f) := by
  cases nulls with
  | none => simp
  | some valid =>
    rw [slots, slots, List.map_zipWith, List.zipWith_map_left]
    congr 1
    funext value isValid
    cases isValid <;> rfl

theorem slots_length {α : Type} {values : List α} {nulls : Nulls} (h : nulls.Fit values.length) :
    (slots values nulls).length = values.length := by
  cases nulls with
  | none => simp
  | some valid => simp [slots, h valid rfl]

/-- The nulls that a buffer counts are among the rows. -/
theorem Nulls.count_pos_iff {α : Type} {values : List α} {nulls : Nulls} (h : nulls.Fit values.length) :
    0 < nulls.count ↔ none ∈ slots values nulls := by
  cases hnulls : nulls with
  | none => simp [Nulls.count]
  | some valid =>
    have hlength : valid.length = values.length := h valid hnulls
    rw [Nulls.count, Option.getD_some, List.count_pos_iff, slots]
    constructor
    · intro hmem
      obtain ⟨i, hi, heq⟩ := List.mem_iff_getElem.mp hmem
      refine List.mem_iff_getElem.mpr ⟨i, by simp; omega, ?_⟩
      rw [List.getElem_zipWith, heq]
      rfl
    · intro hmem
      obtain ⟨i, hi, heq⟩ := List.mem_iff_getElem.mp hmem
      rw [List.getElem_zipWith] at heq
      split_ifs at heq with hvalid
      rw [Bool.not_eq_true] at hvalid
      exact hvalid ▸ List.getElem_mem _

/-- The null buffer of a builder: there is none before the first null is appended. -/
def nullsOf {α : Type} (rows : List (Option α)) : Nulls :=
  if rows.all Option.isSome then none else some (rows.map Option.isSome)

/-- The values of a builder, with a placeholder for a null. -/
def valuesOf {α : Type} (placeholder : α) (rows : List (Option α)) : List α :=
  rows.map fun row => row.getD placeholder

/-! ## Arrays -/

/-- The arrays, one constructor for a class of `arrow-array`. -/
inductive ArrowArray
  | null (len : Nat)
  | boolean (values : List Bool) (nulls : Nulls)
  | primitive (t : PrimitiveType) (values : List t.Native) (nulls : Nulls)
  | fixedSizeBinary (size : Int32) (values : List Bytes) (nulls : Nulls)
  | bytes (t : BytesType) (values : List Bytes) (nulls : Nulls)
  | list (large : Bool) (item : Field) (offsets : List Nat) (values : ArrowArray) (nulls : Nulls)
  | listView (large : Bool) (item : Field) (offsets sizes : List Nat) (values : ArrowArray)
      (nulls : Nulls)
  | fixedSizeList (item : Field) (size : Int32) (len : Nat) (values : ArrowArray) (nulls : Nulls)
  | struct (fields : List Field) (columns : List ArrowArray) (len : Nat) (nulls : Nulls)
  /-- The entries are a struct of two columns without nulls of its own. -/
  | map (entries : Field) (sorted : Bool) (offsets : List Nat) (keys values : ArrowArray)
      (nulls : Nulls)
  /-- The key of a row that is null stands for nothing. -/
  | dictionary (key : KeyType) (keys : List Nat) (nulls : Nulls) (values : ArrowArray)
  | union (fields : List Field) (len : Nat)
  | runEndEncoded (runEnds values : Field) (len : Nat)

namespace ArrowArray

/-- `data_type`. -/
def dataType : ArrowArray → DataType
  | .null _ => .null
  | .boolean _ _ => .boolean
  | .primitive t _ _ => .primitive t
  | .fixedSizeBinary size _ _ => .fixedSizeBinary size
  | .bytes t _ _ => .bytes t
  | .list large item _ _ _ => .list large item
  | .listView large item _ _ _ _ => .listView large item
  | .fixedSizeList item size _ _ _ => .fixedSizeList item size
  | .struct fields _ _ _ => .struct fields
  | .map entries sorted _ _ _ _ => .map entries sorted
  | .dictionary key _ _ values => .dictionary (.primitive key.primitive) values.dataType
  | .union fields _ => .union fields
  | .runEndEncoded runEnds values _ => .runEndEncoded runEnds values

/-- `len`. -/
def len : ArrowArray → Nat
  | .null n => n
  | .boolean values _ => values.length
  | .primitive _ values _ => values.length
  | .fixedSizeBinary _ values _ => values.length
  | .bytes _ values _ => values.length
  | .list _ _ offsets _ _ => offsets.length - 1
  | .listView _ _ offsets _ _ _ => offsets.length
  | .fixedSizeList _ _ n _ _ => n
  | .struct _ _ n _ => n
  | .map _ _ offsets _ _ _ => offsets.length - 1
  | .dictionary _ keys _ _ => keys.length
  | .union _ n => n
  | .runEndEncoded _ _ n => n

/-- `nulls`.  A null array, a union and a run-end encoded array have no buffer. -/
def nulls : ArrowArray → Nulls
  | .null _ => none
  | .boolean _ nulls => nulls
  | .primitive _ _ nulls => nulls
  | .fixedSizeBinary _ _ nulls => nulls
  | .bytes _ _ nulls => nulls
  | .list _ _ _ _ nulls => nulls
  | .listView _ _ _ _ _ nulls => nulls
  | .fixedSizeList _ _ _ _ nulls => nulls
  | .struct _ _ _ nulls => nulls
  | .map _ _ _ _ _ nulls => nulls
  | .dictionary _ _ nulls _ => nulls
  | .union _ _ => none
  | .runEndEncoded _ _ _ => none

/-- `null_count`. -/
def nullCount (a : ArrowArray) : Nat := a.nulls.count

/-- `logical_nulls`, with `true` for a valid row: the row of a dictionary is null also where
its key is that of a null. -/
def validity : ArrowArray → List Bool
  | .null n => List.replicate n false
  | .dictionary _ keys nulls values =>
      (slots keys nulls).map fun key => key.elim false fun k => values.validity.getD k true
  | a => a.nulls.validity a.len

/-- `is_nullable`.  A dictionary is asked for its buffer and its values, not for the values
that occur. -/
def isNullable : ArrowArray → Bool
  | .dictionary _ keys nulls values => !keys.isEmpty && (nulls.isSome || values.isNullable)
  | a => a.validity.contains false

/-- The shape that the constructors of the arrays see to, at every depth: a null buffer has a bit
for every row, the parts of a nested array have the data types of its fields, the columns of a
struct have its length, and there is an offset before the first row. -/
inductive Shaped : ArrowArray → Prop
  | null (n : Nat) : Shaped (.null n)
  | boolean {values nulls} : nulls.Fit values.length → Shaped (.boolean values nulls)
  | primitive {t values nulls} : nulls.Fit values.length → Shaped (.primitive t values nulls)
  | fixedSizeBinary {size values nulls} :
      nulls.Fit values.length → Shaped (.fixedSizeBinary size values nulls)
  | bytes {t values nulls} : nulls.Fit values.length → Shaped (.bytes t values nulls)
  | list {large item offsets values nulls} :
      offsets ≠ [] → item.dataType = values.dataType → Shaped values →
        nulls.Fit (offsets.length - 1) → Shaped (.list large item offsets values nulls)
  | listView {large item offsets sizes values nulls} :
      sizes.length = offsets.length → item.dataType = values.dataType → Shaped values →
        nulls.Fit offsets.length → Shaped (.listView large item offsets sizes values nulls)
  | fixedSizeList {item size n values nulls} :
      item.dataType = values.dataType → Shaped values → nulls.Fit n →
        Shaped (.fixedSizeList item size n values nulls)
  | struct {fields columns n nulls} :
      fields.map FieldOf.dataType = columns.map dataType → (∀ a ∈ columns, a.len = n) →
        (∀ a ∈ columns, Shaped a) → nulls.Fit n → Shaped (.struct fields columns n nulls)
  | map {entries sorted offsets keys values nulls keyField valueField} :
      offsets ≠ [] → FieldOf.dataType entries = .struct [keyField, valueField] →
        keyField.dataType = keys.dataType → valueField.dataType = values.dataType →
        Shaped keys → Shaped values → nulls.Fit (offsets.length - 1) →
        Shaped (.map entries sorted offsets keys values nulls)
  | dictionary {key keys nulls values} :
      nulls.Fit keys.length → Shaped values → Shaped (.dictionary key keys nulls values)
  | union (fields n) : Shaped (.union fields n)
  | runEndEncoded (runEnds values n) : Shaped (.runEndEncoded runEnds values n)

end ArrowArray

/-! ## Constructors -/

/-- `unwrap` on a result. -/
def unwrap {α : Type} : ArrowResult α → ArrowResult α
  | .error (.error _) => .panic .unwrapNone
  | o => o

theorem unwrap_eq_ok {α : Type} {o : ArrowResult α} {a : α} : unwrap o = .ok a ↔ o = .ok a := by
  cases o with
  | ok b => rfl
  | error e => cases e <;> simp [unwrap, Outcome.panic]

/-- `OffsetBuffer::new`: the offsets are asserted to start at zero or later and never to
decrease. -/
def newOffsets (offsets : List Int) : ArrowResult (List Nat) :=
  if offsets ≠ [] ∧ 0 ≤ offsets.headD 0 ∧ offsets.IsChain (· ≤ ·) then
    .ok (offsets.map Int.toNat)
  else .panic .assertionFailed

/-- The null buffer of a nested array has a bit for every row. -/
def checkNulls (len : Nat) (nulls : Nulls) : ArrowResult Unit :=
  match nulls with
  | some valid =>
      if valid.length = len then .ok ()
      else .fail (.arrow [.text "Incorrect length of null buffer, expected ", .number len,
        .text " got ", .number valid.length])
  | none => .ok ()

/-- Rows that are null although neither the field nor the parent says so. -/
def hasUnmaskedNulls (nulls : Nulls) (a : ArrowArray) : Bool :=
  (List.zip a.validity (nulls.validity a.len)).any fun row => !row.1 && row.2

/-- The check of one column of a struct. -/
def checkColumn (len : Nat) (nulls : Nulls) (f : Field) (a : ArrowArray) : ArrowResult Unit :=
  if f.dataType ≠ a.dataType then
    .fail (.arrow [.text "Incorrect datatype for StructArray field ", .text f.name,
      .text ", expected ", .dataType f.dataType, .text " got ", .dataType a.dataType])
  else if a.len ≠ len then
    .fail (.arrow [.text "Incorrect array length for StructArray field ", .text f.name,
      .text ", expected ", .number len, .text " got ", .number a.len])
  else if !f.nullable && hasUnmaskedNulls nulls a then
    .fail (.arrow [.text "Found unmasked nulls for non-nullable StructArray field ", .text f.name])
  else .ok ()

def checkColumns (len : Nat) (nulls : Nulls) : List Field → List ArrowArray → ArrowResult Unit
  | f :: fs, a :: as => do
      checkColumn len nulls f a
      checkColumns len nulls fs as
  | _, _ => .ok ()

namespace StructArray

/-- `StructArray::try_new_with_length`. -/
def tryNewWithLength (fields : List Field) (columns : List ArrowArray) (nulls : Nulls)
    (len : Nat) : ArrowResult ArrowArray :=
  if fields.length ≠ columns.length then
    .fail (.arrow [.text "Incorrect number of arrays for StructArray fields, expected ",
      .number fields.length, .text " got ", .number columns.length])
  else do
    checkNulls len nulls
    checkColumns len nulls fields columns
    .ok (.struct fields columns len nulls)

/-- `StructArray::new`: the length is that of the first column, of which there has to be
one. -/
def new (fields : List Field) (columns : List ArrowArray) (nulls : Nulls) :
    ArrowResult ArrowArray :=
  match columns with
  | [] => .panic .unwrapNone
  | a :: _ => unwrap (tryNewWithLength fields columns nulls a.len)

end StructArray

namespace ListArray

/-- `GenericListArray::try_new`. -/
def tryNew (large : Bool) (item : Field) (offsets : List Nat) (values : ArrowArray)
    (nulls : Nulls) : ArrowResult ArrowArray :=
  if values.len < offsets.getLastD 0 then
    .fail (.arrow [.text "Max offset of ", .number (offsets.getLastD 0),
      .text " exceeds length of values ", .number values.len])
  else do
    checkNulls (offsets.length - 1) nulls
    if !item.nullable && values.isNullable then
      .fail (.arrow [.text "Non-nullable field of ListArray ", .text item.name,
        .text " cannot contain nulls"])
    else if item.dataType ≠ values.dataType then
      .fail (.arrow [.text "ListArray expected data type ", .dataType item.dataType,
        .text " got ", .dataType values.dataType, .text " for ", .text item.name])
    else .ok (.list large item offsets values nulls)

/-- `GenericListArray::new`. -/
def new (large : Bool) (item : Field) (offsets : List Nat) (values : ArrowArray)
    (nulls : Nulls) : ArrowResult ArrowArray :=
  unwrap (tryNew large item offsets values nulls)

end ListArray

namespace FixedSizeListArray

/-- `FixedSizeListArray::try_new`. -/
def tryNew (item : Field) (size : Int32) (values : ArrowArray) (nulls : Nulls) :
    ArrowResult ArrowArray :=
  if size.toInt < 0 then
    .fail (.arrow [.text "Size cannot be negative, got ", .number size.toInt])
  else do
    let len := if size.toInt = 0 then (nulls.getD []).length else values.len / size.toInt.toNat
    checkNulls len nulls
    if item.dataType ≠ values.dataType then
      .fail (.arrow [.text "FixedSizeListArray expected data type ", .dataType item.dataType,
        .text " got ", .dataType values.dataType, .text " for ", .text item.name])
    else if !item.nullable && values.validity.contains false then
      .fail (.arrow [.text "Found unmasked nulls for non-nullable FixedSizeListArray field ",
        .text item.name])
    else .ok (.fixedSizeList item size len values nulls)

/-- `FixedSizeListArray::new`. -/
def new (item : Field) (size : Int32) (values : ArrowArray) (nulls : Nulls) :
    ArrowResult ArrowArray :=
  unwrap (tryNew item size values nulls)

end FixedSizeListArray

namespace MapArray

/-- `MapArray::try_new`. -/
def tryNew (entries : Field) (offsets : List Nat) (entriesArray : ArrowArray) (nulls : Nulls)
    (sorted : Bool) : ArrowResult ArrowArray :=
  if entriesArray.len < offsets.getLastD 0 then
    .fail (.arrow [.text "Max offset of ", .number (offsets.getLastD 0),
      .text " exceeds length of entries ", .number entriesArray.len])
  else do
    checkNulls (offsets.length - 1) nulls
    if entries.nullable || entriesArray.nullCount ≠ 0 then
      .fail (.arrow [.text "MapArray entries cannot contain nulls"])
    else if entries.dataType ≠ entriesArray.dataType then
      .fail (.arrow [.text "MapArray expected data type ", .dataType entries.dataType,
        .text " got ", .dataType entriesArray.dataType])
    else
      match entriesArray with
      | .struct _ [keys, values] _ _ => .ok (.map entries sorted offsets keys values nulls)
      | _ => .fail (.arrow [.text "MapArray entries must contain two children"])

/-- `MapArray::new`. -/
def new (entries : Field) (offsets : List Nat) (entriesArray : ArrowArray) (nulls : Nulls)
    (sorted : Bool) : ArrowResult ArrowArray :=
  unwrap (tryNew entries offsets entriesArray nulls sorted)

end MapArray

namespace DictionaryArray

/-- `DictionaryArray::new`: a key that is not null is that of a value. -/
def new (key : KeyType) (keys : List (Option Int)) (values : ArrowArray) :
    ArrowResult ArrowArray :=
  if keys.all fun k => k.all fun k => decide ((0 : Int) ≤ k ∧ k < (values.len : Int)) then
    .ok (.dictionary key (keys.map fun k => (k.getD 0).toNat) (nullsOf keys) values)
  else .panic .unwrapNone

end DictionaryArray

/-! ## Record batches -/

/-- `RecordBatch`. -/
structure RecordBatch where
  schema : List Field
  columns : List ArrowArray
  rowCount : Nat

namespace RecordBatch

/-- A column of a field that is not nullable has no nulls of its own. -/
def checkNullable : List Field → List ArrowArray → ArrowResult Unit
  | f :: fs, a :: as =>
      if !f.nullable && decide (0 < a.nullCount) then
        .fail (.arrow [.text "Column '", .text f.name,
          .text "' is declared as non-nullable but contains null values"])
      else checkNullable fs as
  | _, _ => .ok ()

/-- The type of a column is that of its field. -/
def checkTypes : Nat → List Field → List ArrowArray → ArrowResult Unit
  | i, f :: fs, a :: as =>
      if a.dataType ≠ f.dataType then
        .fail (.arrow [.text "column types must match schema types, expected ",
          .dataType f.dataType, .text " but found ", .dataType a.dataType,
          .text " at column index ", .number i])
      else checkTypes (i + 1) fs as
  | _, _, _ => .ok ()

/-- `RecordBatch::try_new`.  The number of rows is that of the first column. -/
def tryNew (schema : List Field) (columns : List ArrowArray) : ArrowResult RecordBatch :=
  if schema.length ≠ columns.length then
    .fail (.arrow [.text "number of columns(", .number columns.length,
      .text ") must match number of fields(", .number schema.length, .text ") in schema"])
  else
    match columns with
    | [] => .fail (.arrow [.text "must either specify a row count or at least one column"])
    | first :: rest => do
        checkNullable schema (first :: rest)
        if (first :: rest).any fun a => a.len ≠ first.len then
          .fail (.arrow [.text "all columns in a record batch must have the same length"])
        else do
          checkTypes 0 schema (first :: rest)
          .ok ⟨schema, first :: rest, first.len⟩

/-- A batch that is made has the fields and the columns, and there are some. -/
theorem tryNew_eq_ok {schema : List Field} {columns : List ArrowArray} {batch : RecordBatch}
    (h : tryNew schema columns = .ok batch) :
    columns ≠ [] ∧ batch.schema = schema ∧ batch.columns = columns := by
  unfold tryNew at h
  split_ifs at h with hlength
  · cases h
  · cases columns with
    | nil => cases h
    | cons first rest =>
      obtain ⟨_, -, h⟩ := Outcome.bind_eq_ok.mp h
      split_ifs at h with hlens
      · cases h
      · obtain ⟨_, -, h⟩ := Outcome.bind_eq_ok.mp h
        cases h
        exact ⟨List.cons_ne_nil _ _, rfl, rfl⟩

/-- One column of the type of its field, with nulls only where the field is nullable. -/
theorem tryNew_single {f : Field} {a : ArrowArray} (hd : a.dataType = f.dataType)
    (hnulls : f.nullable = true ∨ a.nullCount = 0) :
    tryNew [f] [a] = .ok ⟨[f], [a], a.len⟩ := by
  have hnullable : checkNullable [f] [a] = .ok () := by
    rw [checkNullable, if_neg]
    · rfl
    · rcases hnulls with h | h <;> simp [h]
  have htypes : checkTypes 0 [f] [a] = .ok () := by
    rw [checkTypes, if_neg (not_not.mpr hd)]
    rfl
  simp only [tryNew, hnullable, htypes]
  simp

/-- Nulls are refused where the field is not nullable. -/
theorem tryNew_single_ne_ok {f : Field} {a : ArrowArray} (hf : f.nullable = false)
    (ha : 0 < a.nullCount) (batch : RecordBatch) : tryNew [f] [a] ≠ .ok batch := by
  intro h
  replace h : (checkNullable [f] [a] >>= fun _ => _) = Except.ok batch := h
  obtain ⟨_, hnullable, -⟩ := Outcome.bind_eq_ok.mp h
  rw [checkNullable, if_pos (by simp [hf, ha])] at hnullable
  cases hnullable

end RecordBatch

end Arrow

end ClickhouseArrow
