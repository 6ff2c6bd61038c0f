import ClickhouseArrow.Arrow.FlatColumns

/-!
# Dictionary arrays that come back

A dictionary array without parts is written as a `LowCardinality` column, nullable where a row is
null, and the bytes are read with the data type, the builder and the type hint that are announced
for that type.  The module says exactly which arrays come back with the rows that they had.
-/

namespace ClickhouseArrow

open Wire

namespace Arrow

open Arrow.LowCardinality ClickhouseArrow.LowCardinality

/-! ## Dictionary arrays -/

/-- A dictionary array.  Its keys are those of values, and with one value more these would still
fit in a buffer. -/
structure DictionaryColumn where
  key : KeyType
  keys : List Nat
  nulls : Nulls
  values : FlatColumn
  fit : nulls.Fit keys.length
  addressed : keys.length ≤ isizeMax
  inside : ∀ k, some k ∈ slots keys nulls → k < values.array.len
  roomy : values.array.len + 1 ≤ isizeMax
  sized : (values.array.len + 1) * (lengthOf values.type).getD 0 ≤ isizeMax

namespace DictionaryColumn

def array (column : DictionaryColumn) : ArrowArray :=
  .dictionary column.key column.keys column.nulls column.values.array

/-- The rows: the value of every key. -/
def cells (column : DictionaryColumn) : List (Option Leaf) :=
  resolved column.values.cells (slots column.keys column.nulls)

/-- A row is null. -/
def nullable (column : DictionaryColumn) : Bool := decide (none ∈ column.cells)

/-- The type that the array is written as. -/
def type (column : DictionaryColumn) : ChType :=
  .lowCardinality (stringType column.nullable column.values.type)

/-- How far the indexes are moved: a default stands before the values where a row is null and no
value is. -/
def shift (column : DictionaryColumn) : Nat :=
  modifier (stringType column.nullable column.values.type) column.values.array

/-- The indexes of the rows. -/
def indexes (column : DictionaryColumn) : List Nat :=
  (slots column.keys column.nulls).map (writtenIndex column.shift)

end DictionaryColumn

namespace DictionaryColumn

/-- The values that are written. -/
def written (column : DictionaryColumn) : List (Option Leaf) :=
  if column.shift = 1 then none :: column.values.cells else column.values.cells

/-- The row of a key. -/
def rowOf (column : DictionaryColumn) (key : Option Nat) : Option Leaf :=
  key.bind fun k => column.values.cells[k]?.join

/-- Where the index of a key is looked up: it becomes a key of 32 bits. -/
def position (column : DictionaryColumn) (key : Option Nat) : Nat :=
  writtenIndex column.shift key % 2 ^ 32

/-- There is a row, and the indexes fit in a buffer; every value can be written and is not too
long; the default is as long as a value; no index is a negative key; and a null is looked up at
the place of the null, a value elsewhere and at a value that is read as it. -/
structure Kept (options : Option ArrowOptions) (column : DictionaryColumn) : Prop where
  rows : column.keys ≠ []
  sized : column.keys.length * width (keyTypeFlag column.written.length) ≤ isizeMax
  passes : ∀ v, some v ∈ column.values.cells → Passes column.values.type v
  short : ∀ v, some v ∈ column.values.cells → Short column.values.type v
  default : column.shift = 1 → ∀ p tz, column.values.type = .dateTime64 p tz → p = 8
  small : ∀ key ∈ slots column.keys column.nulls, column.position key < 2 ^ 31
  nulls : ∀ key ∈ slots column.keys column.nulls, column.rowOf key = none →
    column.position key = 0
  values : ∀ key ∈ slots column.keys column.nulls, ∀ v, column.rowOf key = some v →
    (column.nullable = true → column.position key ≠ 0) ∧
      readBack options column.values.type (column.written[column.position key]?.join) = v

end DictionaryColumn

/-! ## The types -/

section Setup

variable (options : Option ArrowOptions)

end Setup

/-! ## What is written -/

theorem FlatColumn.nullCount_pos_iff (column : FlatColumn) :
    0 < column.array.nullCount ↔ none ∈ column.cells := by
  have hmap {α : Type} (f : α → Leaf) (rows : List (Option α)) :
      none ∈ rows.map (Option.map f) ↔ none ∈ rows := by simp
  obtain ⟨t, a, h, hfit, -, -, -⟩ := column
  show 0 < a.nulls.count ↔ none ∈ leafRows a
  cases h <;> exact (Nulls.count_pos_iff hfit).trans (hmap _ _).symm

theorem isNullable_stringType_leaf {t : ChType} (h : t.isNullable = false) (nullable : Bool) :
    (stringType nullable t).isNullable = nullable := by
  cases nullable with
  | false => exact h
  | true => rfl

namespace DictionaryColumn

variable {options : Option ArrowOptions} {column : DictionaryColumn}

theorem shift_eq (column : DictionaryColumn) :
    column.shift = if column.nullable = true ∧ none ∉ column.values.cells then 1 else 0 := by
  have hnulls := column.values.nullCount_pos_iff
  have hnull := isNullable_stringType_leaf (isNullable_leaf column.values.leaf) column.nullable
  rw [shift, modifier, hnull]
  by_cases hmem : none ∈ column.values.cells
  · rw [decide_eq_true (hnulls.mpr hmem), if_neg (not_and_not_right.mpr fun _ => hmem)]
    simp
  · rw [decide_eq_false (mt hnulls.mp hmem)]
    cases column.nullable <;> simp [hmem]

theorem length_written (column : DictionaryColumn) :
    column.written.length = column.values.array.len + column.shift := by
  have hlength := column.values.length_cells
  have hshift := column.shift_eq
  rw [written]
  split_ifs at hshift ⊢ with hone hnulls
  · rw [List.length_cons, hlength, hone]
  all_goals omega

theorem shift_le (column : DictionaryColumn) : column.shift ≤ 1 := by
  rw [shift_eq]
  split_ifs <;> omega

theorem length_indexes (column : DictionaryColumn) :
    column.indexes.length = column.keys.length := by
  rw [indexes, List.length_map, slots_length column.fit]

/-- A null key makes a null row. -/
theorem nullable_of_null_key (h : none ∈ slots column.keys column.nulls) :
    column.nullable = true :=
  decide_eq_true (List.mem_map.mpr ⟨none, h, rfl⟩)

theorem lt_of_mem_indexes {i : Nat} (h : i ∈ column.indexes) : i < column.written.length := by
  rw [length_written]
  obtain ⟨key, hkey, rfl⟩ := List.mem_map.mp h
  cases key with
  | some k => exact Nat.add_lt_add_right (column.inside k hkey) _
  | none =>
    show 0 < _
    rw [shift_eq]
    split_ifs with hdefault
    · omega
    · -- the null of the values is at hand
      have hnull : none ∈ column.values.cells := by
        by_contra hmem
        exact hdefault ⟨nullable_of_null_key hkey, hmem⟩
      have hpos := List.length_pos_of_mem hnull
      rw [column.values.length_cells] at hpos
      omega

/-- The bytes of an array. -/
def bytes (column : DictionaryColumn) : Bytes :=
  blockBytes (keyTypeFlag column.written.length) column.written.length
    (cellBytes column.values.type column.written) column.indexes

/-- The index of a key is that of its value among those that are written. -/
theorem getElem?_written (column : DictionaryColumn) (k : Nat) :
    column.written[k + column.shift]? = column.values.cells[k]? := by
  have hshift := column.shift_le
  rw [written]
  split_ifs with hone
  · rw [hone, List.getElem?_cons_succ]
  · obtain h : column.shift = 0 := by omega
    rw [h, Nat.add_zero]

/-- The row of a key is one of the values. -/
theorem rowOf_mem {k : Nat} (h : some k ∈ slots column.keys column.nulls) :
    column.rowOf (some k) ∈ column.values.cells := by
  have hlt := column.inside k h
  rw [← column.values.length_cells] at hlt
  show column.values.cells[k]?.join ∈ _
  rw [List.getElem?_eq_getElem hlt]
  exact List.getElem_mem hlt

/-- The row that is read for a key. -/
def readKey (options : Option ArrowOptions) (column : DictionaryColumn) (key : Option Nat) :
    Option Leaf :=
  if column.nullable = true ∧ column.position key = 0 then none
  else some (readBack options column.values.type (column.written[column.position key]?.join))

end DictionaryColumn

/-! ## Which arrays come back -/

/-- Of a dictionary that 32-bit keys can count every row is looked up at its own value.  So the
values that are used have to survive, and where a row and a value are null the first value has to
be the only null that is used. -/
theorem DictionaryColumn.kept_iff {options : Option ArrowOptions} {column : DictionaryColumn}
    (hcount : column.written.length ≤ 2 ^ 31) :
    column.Kept options ↔
      column.keys ≠ [] ∧
        column.keys.length * width (keyTypeFlag column.written.length) ≤ isizeMax ∧
        (∀ v, some v ∈ column.values.cells →
          Passes column.values.type v ∧ Short column.values.type v) ∧
        (column.shift = 1 → ∀ p tz, column.values.type = .dateTime64 p tz → p = 8) ∧
        ∀ k, some k ∈ slots column.keys column.nulls →
          (column.values.cells[k]?.join = none → k = 0) ∧
            ∀ v, column.values.cells[k]?.join = some v →
              (column.nullable = true → none ∈ column.values.cells → k ≠ 0) ∧
                Survives options column.values.type v := by
  have hposition (key : Option Nat) (hkey : key ∈ slots column.keys column.nulls) :
      column.position key = writtenIndex column.shift key := by
    have hlt := column.lt_of_mem_indexes (List.mem_map_of_mem hkey)
    exact Nat.mod_eq_of_lt (by omega)
  have hshift := column.shift_eq
  -- A null among the values is one of theirs, and then no default stands before them.
  have hnull {k : Nat} (hk : some k ∈ slots column.keys column.nulls)
      (hrow : column.values.cells[k]?.join = none) : none ∈ column.values.cells :=
    hrow ▸ rowOf_mem hk
  have hlookup (k : Nat) (hk : some k ∈ slots column.keys column.nulls) :
      column.position (some k) = k + column.shift ∧
        column.written[column.position (some k)]? = column.values.cells[k]? := by
    rw [hposition _ hk]
    exact ⟨rfl, column.getElem?_written k⟩
  constructor
  · intro h
    refine ⟨h.rows, h.sized, fun v hv => ⟨h.passes v hv, h.short v hv⟩, h.default,
      fun k hk => ⟨fun hrow => ?_, fun v hrow => ⟨fun hnullable hmem => ?_, ?_⟩⟩⟩
    · have hzero := h.nulls (some k) hk hrow
      rw [(hlookup k hk).1] at hzero
      omega
    · have hfirst := (h.values (some k) hk v hrow).1 hnullable
      rw [if_neg (not_and_not_right.mpr fun _ => hmem)] at hshift
      rwa [(hlookup k hk).1, hshift, Nat.add_zero] at hfirst
    · have hback := (h.values (some k) hk v hrow).2
      rw [(hlookup k hk).2, hrow] at hback
      have hmem : some v ∈ column.values.cells := hrow ▸ rowOf_mem hk
      exact (survives_iff options (column.values.within hmem)).mpr
        ⟨h.passes v hmem, h.short v hmem, hback⟩
  · rintro ⟨hrows, hsized, hreadable, hdefault, hfound⟩
    refine ⟨hrows, hsized, fun v hv => (hreadable v hv).1, fun v hv => (hreadable v hv).2, hdefault,
      fun key hkey => ?_, fun key hkey hrow => ?_, fun key hkey v hrow => ?_⟩
    · rw [hposition key hkey]
      exact (column.lt_of_mem_indexes (List.mem_map_of_mem hkey)).trans_le hcount
    · cases key with
      | none => exact hposition none hkey
      | some k =>
        rw [if_neg (not_and_not_right.mpr fun _ => hnull hkey hrow)] at hshift
        rw [(hlookup k hkey).1, hshift, Nat.add_zero]
        exact (hfound k hkey).1 hrow
    · cases key with
      | none => cases hrow
      | some k =>
        obtain ⟨hfirst, hsurvives⟩ := (hfound k hkey).2 v hrow
        have hmem : some v ∈ column.values.cells := hrow ▸ rowOf_mem hkey
        refine ⟨fun hnullable => ?_, ?_⟩
        · rw [(hlookup k hkey).1]
          by_cases hvalues : none ∈ column.values.cells
          · have hne := hfirst hnullable hvalues
            omega
          · rw [if_pos ⟨hnullable, hvalues⟩] at hshift
            omega
        · rw [(hlookup k hkey).2]
          replace hrow : column.values.cells[k]?.join = some v := hrow
          rw [hrow]
          exact ((survives_iff options (column.values.within hmem)).mp hsurvives).2.2

/-! ## A null behind a value -/

end Arrow

end ClickhouseArrow
