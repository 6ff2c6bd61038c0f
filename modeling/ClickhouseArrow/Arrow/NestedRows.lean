import ClickhouseArrow.Arrow.FlatColumns

/-!
# The rows of a nested array

A list or a map keeps the ends of its rows in one buffer of offsets, and a struct keeps its rows
column by column.  The module says what the rows of an array are, which arrays a nested type is
written from, and that the rows of such an array show all that its parts hold.
-/

namespace ClickhouseArrow

open Wire

namespace Arrow

/-! ## Offsets -/

/-- What lies between each offset and the next one. -/
def slices {α : Type} : List Nat → List α → List (List α)
  | start :: stop :: offsets, items =>
      (items.drop start).take (stop - start) :: slices (stop :: offsets) items
  | _, _ => []

/-- The offsets begin at zero, never decrease, and end behind the last of so many values, which
32-bit offsets can count. -/
structure Tiles (offsets : List Nat) (count : Nat) : Prop where
  first : offsets.head? = some 0
  ordered : offsets.IsChain (· ≤ ·)
  last : offsets.getLast? = some count
  small : count < 2 ^ 31

section Slices

variable {α β : Type} {offsets : List Nat} {items : List α}

theorem slices_length (offsets : List Nat) (items : List α) :
    (slices offsets items).length = offsets.length - 1 := by
  induction offsets with
  | nil => rfl
  | cons start offsets ih =>
    cases offsets with
    | nil => rfl
    | cons stop offsets =>
      rw [slices, List.length_cons, ih]
      rfl

/-- The rows from an offset on are the values from there on. -/
theorem flatten_slices {start : Nat} {rest : List Nat} (hordered : (start :: rest).IsChain (· ≤ ·))
    (hlast : (start :: rest).getLast? = some items.length) :
    (slices (start :: rest) items).flatten = items.drop start := by
  induction rest generalizing start with
  | nil =>
    obtain rfl : start = items.length := by simpa using hlast
    exact (List.drop_length).symm
  | cons stop rest ih =>
    obtain ⟨hle, hchain⟩ := List.isChain_cons_cons.mp hordered
    rw [List.getLast?_cons_cons] at hlast
    rw [slices, List.flatten_cons, ih hchain hlast]
    have hsplit : items.drop stop = (items.drop start).drop (stop - start) := by
      rw [List.drop_drop]
      congr 1
      omega
    rw [hsplit, List.take_append_drop]

/-- The rows show all of the values. -/
theorem Tiles.flatten (h : Tiles offsets items.length) :
    (slices offsets items).flatten = items := by
  obtain ⟨hfirst, hordered, hlast, -⟩ := h
  cases offsets with
  | nil => cases hfirst
  | cons start rest =>
    obtain rfl : start = 0 := by simpa using hfirst
    exact flatten_slices hordered hlast

theorem Tiles.slices_inj {count : Nat} {items' : List α} (h : Tiles offsets count)
    (hitems : items.length = count) (hitems' : items'.length = count) :
    slices offsets items = slices offsets items' ↔ items = items' := by
  subst hitems
  have h' : Tiles offsets items'.length := by rwa [hitems']
  constructor
  · intro hsame
    have hflat := congrArg List.flatten hsame
    rwa [h.flatten, h'.flatten] at hflat
  · exact fun hsame => by rw [hsame]

/-- No offset is behind the values. -/
theorem Tiles.le {count : Nat} (h : Tiles offsets count) {o : Nat} (ho : o ∈ offsets) :
    o ≤ count := by
  have hpair : offsets.Pairwise (· ≤ ·) := List.isChain_iff_pairwise.mp h.ordered
  obtain ⟨before, rfl⟩ : ∃ before, offsets = before ++ [count] :=
    List.getLast?_eq_some_iff.mp h.last
  rcases List.mem_append.mp ho with hmem | hmem
  · exact (List.pairwise_append.mp hpair).2.2 o hmem count List.mem_cons_self
  · rw [List.mem_singleton.mp hmem]

end Slices

/-- The rows of a list or a map: they lie one behind the other over so many values. -/
structure Laid (offsets : List Nat) (nulls : Nulls) (count : Nat) : Prop extends
    Tiles offsets count where
  fit : nulls.Fit (offsets.length - 1)
  sized : 8 + (offsets.length - 1) * 8 ≤ isizeMax

/-! ## Rows -/

/-- What a row holds that is not null. -/
inductive Cell
  | leaf (value : Leaf)
  | list (items : List (Option Cell))
  | record (fields : List (Option Cell))
  | entries (pairs : List (Option Cell × Option Cell))

namespace ArrowArray

mutual

/-- The rows of an array. -/
def rows : ArrowArray → List (Option Cell)
  | .list _ _ offsets values nulls => slots ((slices offsets values.rows).map .list) nulls
  | .struct _ columns len nulls =>
      slots ((List.range len).map fun i =>
        .record ((rowsEach columns).map fun column => column[i]?.join)) nulls
  | .map _ _ offsets keys values nulls =>
      slots ((slices offsets (keys.rows.zip values.rows)).map .entries) nulls
  | a => (leafRows a).map (Option.map .leaf)

/-- The rows of each of the columns. -/
def rowsEach : List ArrowArray → List (List (Option Cell))
  | [] => []
  | a :: columns => a.rows :: rowsEach columns

end

theorem rowsEach_eq (columns : List ArrowArray) : rowsEach columns = columns.map rows := by
  induction columns with
  | nil => rw [rowsEach, List.map_nil]
  | cons a columns ih => rw [rowsEach, ih, List.map_cons]

end ArrowArray

example : (ArrowArray.list false ⟨"item", .primitive .int32, false⟩ [0, 2, 2, 3]
    (.primitive .int32 [(7 : Int32), (8 : Int32), (9 : Int32)] none) none).rows =
      [some (.list [some (.leaf (.number 7)), some (.leaf (.number 8))]), some (.list []),
        some (.list [some (.leaf (.number 9))])] := rfl

/-- The data types of the arrays without parts. -/
def isLeafType : DataType → Bool
  | .boolean | .primitive _ | .fixedSizeBinary _ | .bytes _ => true
  | _ => false

theorem rows_of_leaf {a : ArrowArray} (h : isLeafType a.dataType = true) :
    a.rows = (leafRows a).map (Option.map .leaf) := by
  cases a with
  | list large item offsets values nulls => cases h
  | struct fields columns len nulls => cases h
  | map entries sorted offsets keys values nulls => cases h
  | _ => rfl

/-- Rows that no null buffer hides are the rows of a buffer that hides none. -/
theorem map_some_eq_slots_iff {α : Type} {xs : List α} {nulls : Nulls}
    (h : nulls.Fit xs.length) (ys : List α) :
    ys.map some = slots xs nulls ↔ none ∉ slots xs nulls ∧ ys = xs := by
  have hplain (hnone : none ∉ slots xs nulls) : slots xs nulls = xs.map some := by
    cases nulls with
    | none => exact slots_none xs
    | some valid =>
      have hlen : valid.length = xs.length := h valid rfl
      refine List.ext_getElem (by rw [slots_length h, List.length_map]) fun i hi hi' => ?_
      have hmem := List.getElem_mem hi
      simp only [slots, List.getElem_zipWith, List.getElem_map] at hmem ⊢
      split_ifs at hmem ⊢ with hvalid
      · rfl
      · exact absurd hmem hnone
  constructor
  · intro hsame
    have hnone : none ∉ slots xs nulls := by
      rw [← hsame]
      simp
    refine ⟨hnone, ?_⟩
    rw [hplain hnone] at hsame
    exact List.map_injective_iff.mpr (Option.some_injective α) hsame
  · rintro ⟨hnone, rfl⟩
    exact (hplain hnone).symm

/-- The rows of a list or a map without nulls are those of another one that has as many values. -/
theorem Laid.rows_eq_iff {α β : Type} {wrap : List α → β} (hwrap : Function.Injective wrap)
    {offsets : List Nat} {nulls : Nulls} {count : Nat} (h : Laid offsets nulls count)
    {items items' : List α} (hitems : items.length = count) (hitems' : items'.length = count) :
    ((slices offsets items').map wrap).map some = slots ((slices offsets items).map wrap) nulls ↔
      none ∉ slots ((slices offsets items).map wrap) nulls ∧ items' = items := by
  have hslices : ((slices offsets items).map wrap).length = offsets.length - 1 := by
    rw [List.length_map, slices_length]
  rw [map_some_eq_slots_iff (by rw [hslices]; exact h.fit)]
  refine and_congr_right fun _ => ?_
  rw [(List.map_injective_iff.mpr hwrap).eq_iff, h.slices_inj hitems' hitems]

/-- Pairs of rows show both columns. -/
theorem zip_inj {α β : Type} {xs xs' : List α} {ys ys' : List β} (hxs : xs.length = ys.length)
    (hxs' : xs'.length = ys'.length) : xs.zip ys = xs'.zip ys' ↔ xs = xs' ∧ ys = ys' := by
  constructor
  · intro h
    have hunzip := congrArg List.unzip h
    rw [List.unzip_zip hxs, List.unzip_zip hxs', Prod.mk.injEq] at hunzip
    exact hunzip
  · rintro ⟨rfl, rfl⟩
    rfl

/-- Records show each of the columns. -/
theorem records_inj {n : Nat} {columns columns' : List (List (Option Cell))}
    (hcount : columns'.length = columns.length) (hlen : ∀ c ∈ columns, c.length = n)
    (hlen' : ∀ c ∈ columns', c.length = n) :
    ((List.range n).map fun i => Cell.record (columns'.map fun column => column[i]?.join)) =
        ((List.range n).map fun i => Cell.record (columns.map fun column => column[i]?.join)) ↔
      columns' = columns := by
  constructor
  · intro h
    refine List.ext_getElem hcount fun j hj hj' => ?_
    have hrow := hlen _ (List.getElem_mem hj')
    have hrow' := hlen' _ (List.getElem_mem hj)
    refine List.ext_getElem (hrow'.trans hrow.symm) fun i hi hi' => ?_
    have hi'' : i < n := by omega
    -- the record of the row, and in it the component
    have hrecord := Cell.record.inj (List.map_inj_left.mp h i (List.mem_range.mpr hi''))
    have hfield := congrArg (fun fields : List (Option Cell) => fields[j]?) hrecord
    simp only [List.getElem?_map, List.getElem?_eq_getElem hj, List.getElem?_eq_getElem hj',
      Option.map_some, List.getElem?_eq_getElem hi, List.getElem?_eq_getElem hi',
      Option.join_some, Option.some.injEq] at hfield
    exact hfield
  · rintro rfl
    rfl

/-! ## Columns -/

mutual

/-- The arrays that a nested type is written from: lists, maps and structs down to columns without
parts. -/
def Nested : ChType → ArrowArray → Prop
  | .array inner, a =>
      ∃ large item offsets values nulls, a = .list large item offsets values nulls ∧
        item.dataType = values.dataType ∧ Laid offsets nulls values.len ∧ Nested inner values
  | .map key value, a =>
      ∃ name nullable keyField valueField sorted offsets keys values nulls,
        a = .map ⟨name, .struct [keyField, valueField], nullable⟩ sorted offsets keys values nulls ∧
          keyField.dataType = keys.dataType ∧ valueField.dataType = values.dataType ∧
          values.len = keys.len ∧ Laid offsets nulls keys.len ∧ Nested key keys ∧
          Nested value values
  | .tuple items, a =>
      ∃ fields columns len nulls, a = .struct fields columns len nulls ∧ nulls.Fit len ∧
        NestedEach len items fields columns
  | .nullable inner, a => ∃ column : FlatColumn, column.type = inner ∧ column.array = a
  | t, a => ∃ column : FlatColumn, column.type = t ∧ column.array = a

/-- The columns of a struct, each of which has a field and a type. -/
def NestedEach (len : Nat) : List ChType → List Field → List ArrowArray → Prop
  | t :: ts, fields, columns =>
      ∃ f fs a as, fields = f :: fs ∧ columns = a :: as ∧ f.dataType = a.dataType ∧ a.len = len ∧
        Nested t a ∧ NestedEach len ts fs as
  | [], fields, columns => fields = [] ∧ columns = []

end

theorem isLeafType_leaf {t : ChType} {a : ArrowArray} (h : LeafColumn t a) :
    isLeafType a.dataType = true := by
  cases h <;> rfl

theorem FlatColumn.rows_eq (column : FlatColumn) :
    column.array.rows = column.cells.map (Option.map .leaf) :=
  rows_of_leaf (isLeafType_leaf column.leaf)

theorem FlatColumn.length_rows (column : FlatColumn) :
    column.array.rows.length = column.array.len := by
  rw [column.rows_eq, List.length_map, column.length_cells]

/-- There are as many rows as the array says. -/
theorem Nested.length_rows {t : ChType} {a : ArrowArray} (h : Nested t a) :
    a.rows.length = a.len := by
  have hslots {α : Type} {xs : List α} {nulls : Nulls} {offsets : List Nat} {count : Nat}
      (hlaid : Laid offsets nulls count) (hxs : xs.length = offsets.length - 1) :
      (slots xs nulls).length = offsets.length - 1 := by
    rw [slots_length (by rw [hxs]; exact hlaid.fit), hxs]
  have hflat (h : ∃ column : FlatColumn, column.type = t.stripNull ∧ column.array = a) :
      a.rows.length = a.len := by
    obtain ⟨column, -, rfl⟩ := h
    exact column.length_rows
  cases t with
  | array inner =>
    obtain ⟨large, item, offsets, values, nulls, rfl, -, hlaid, -⟩ := h
    rw [ArrowArray.rows]
    exact hslots hlaid (by rw [List.length_map, slices_length])
  | map key value =>
    obtain ⟨name, nullable, kf, vf, sorted, offsets, keys, values, nulls, rfl, -, -, -, hlaid,
      -⟩ := h
    rw [ArrowArray.rows]
    exact hslots hlaid (by rw [List.length_map, slices_length])
  | tuple items =>
    obtain ⟨fields, columns, len, nulls, rfl, hfit, -⟩ := h
    rw [ArrowArray.rows, slots_length (by rwa [List.length_map, List.length_range]),
      List.length_map, List.length_range]
    rfl
  | _ => exact hflat h

end Arrow

end ClickhouseArrow
