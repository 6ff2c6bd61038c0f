import ClickhouseArrow.Arrow.BatchWriter
import ClickhouseArrow.Native.BlockRoundTrip

/-!
# Columns under the name of their type

A block names the type of a column, and the reader goes by the name: `Binary` is read as `String`
and a fixed-size binary as a fixed-size string.  The column is written the same under both, nothing
stands before its data, and without rows an empty array of the announced data type is made for it.
-/

namespace ClickhouseArrow

open Wire

namespace Arrow

/-! ## Aliases -/

section Aliases

variable {t : ChType} {a : ArrowArray}

theorem leafColumn_unaliased (h : LeafColumn t a) :
    LeafColumn t.unaliased a ∧ lengthOf t.unaliased = lengthOf t := by
  cases h with
  | binary htext => exact ⟨.string htext, rfl⟩
  | fixedSizedBinary hlength => exact ⟨.fixedSizedString hlength, rfl⟩
  | string htext => exact ⟨.string htext, rfl⟩
  | fixedSizedString hlength => exact ⟨.fixedSizedString hlength, rfl⟩
  | decimal32 hs => exact ⟨.decimal32 hs, rfl⟩
  | decimal64 hs => exact ⟨.decimal64 hs, rfl⟩
  | decimal128 hs => exact ⟨.decimal128 hs, rfl⟩
  | decimal256 hs => exact ⟨.decimal256 hs, rfl⟩
  | dateTime64 hp => exact ⟨.dateTime64 hp, rfl⟩
  | ipv4 hlength => exact ⟨.ipv4 hlength, rfl⟩
  | ipv6 hlength => exact ⟨.ipv6 hlength, rfl⟩
  | uuid hlength => exact ⟨.uuid hlength, rfl⟩
  | int128 hlength => exact ⟨.int128 hlength, rfl⟩
  | uint128 hlength => exact ⟨.uint128 hlength, rfl⟩
  | int256 hlength => exact ⟨.int256 hlength, rfl⟩
  | uint256 hlength => exact ⟨.uint256 hlength, rfl⟩
  | _ => exact ⟨by constructor, rfl⟩

/-- The column under the alias of its type. -/
def FlatColumn.unaliased (column : FlatColumn) : FlatColumn :=
  { column with
    type := column.type.unaliased
    leaf := (leafColumn_unaliased column.leaf).1
    sized := by
      rw [(leafColumn_unaliased column.leaf).2]
      exact column.sized }

theorem nestedEach_unaliased {ts : List ChType}
    (ih : ∀ t ∈ ts, ∀ a, Nested t a → Nested t.unaliased a) {len : Nat} {fields : List Field}
    {columns : List ArrowArray} (h : NestedEach len ts fields columns) :
    NestedEach len (ts.map ChType.unaliased) fields columns := by
  induction ts generalizing fields columns with
  | nil => exact h
  | cons t ts ihts =>
    obtain ⟨f, fs, a, as, rfl, rfl, hf, hlen, hhead, htail⟩ := h
    exact ⟨f, fs, a, as, rfl, rfl, hf, hlen, ih t List.mem_cons_self a hhead,
      ihts (fun u hu => ih u (List.mem_cons_of_mem t hu)) htail⟩

/-- A nested column is one of the alias of its type. -/
theorem Nested.unaliased (h : Nested t a) : Nested t.unaliased a := by
  induction h using Nested.inductionOn with
  | flat nullable column =>
    have halias : (stringType nullable column.type).unaliased =
        stringType nullable column.unaliased.type := by
      cases nullable <;> rfl
    rw [halias]
    exact column.unaliased.nested nullable
  | list large item offsets nulls hitem hlaid hvalues ih =>
    exact ⟨large, item, offsets, _, nulls, rfl, hitem, hlaid, ih⟩
  | struct hfit hcolumns ih =>
    rw [ChType.unaliased, ChType.unaliaseds_eq_map]
    exact ⟨_, _, _, _, rfl, hfit, nestedEach_unaliased ih hcolumns⟩
  | map name nullable sorted offsets nulls hkey hvalue hcount hlaid hkeys hvalues ihkey ihvalue =>
    exact ⟨name, nullable, _, _, sorted, offsets, _, _, nulls, rfl, hkey, hvalue, hcount, hlaid,
      ihkey, ihvalue⟩

/-! ## What is written under an alias -/

theorem serializeAsyncOf_leaf_unaliased (h : LeafColumn t a) (isNull : Bool) (d : DataType) :
    serializeAsyncOf isNull t.unaliased a d = serializeAsyncOf isNull t a d := by
  cases h <;> rfl

theorem serializeAsyncOf_flat_unaliased (nullable : Bool) (column : FlatColumn) (d : DataType) :
    serializeAsyncOf false (stringType nullable column.type).unaliased column.array d =
      serializeAsyncOf false (stringType nullable column.type) column.array d := by
  cases nullable with
  | false => exact serializeAsyncOf_leaf_unaliased column.leaf false d
  | true =>
    -- the mask is that of the rows, whatever the type is called
    have hmask : Null.serializeNullsAsync column.type.unaliased column.array =
        Null.serializeNullsAsync column.type column.array :=
      (serializeNullsAsync_leaf column.unaliased).trans (serializeNullsAsync_leaf column).symm
    show (serializeAsyncOf true column.type.unaliased column.array d >>= fun body =>
      .ok (Null.serializeNullsAsync column.type.unaliased column.array ++ body)) = _
    rw [hmask, serializeAsyncOf_leaf_unaliased column.leaf true d]
    rfl

theorem serializeColumnsAsync_unaliased {ts : List ChType}
    (ih : ∀ t ∈ ts, ∀ a, Nested t a → ∀ d,
      serializeAsyncOf false t.unaliased a d = serializeAsyncOf false t a d)
    {len : Nat} {fields : List Field} {columns : List ArrowArray}
    (h : NestedEach len ts fields columns) :
    serializeColumnsAsync (ts.map ChType.unaliased) fields columns =
      serializeColumnsAsync ts fields columns := by
  induction ts generalizing fields columns with
  | nil => rfl
  | cons t ts ihts =>
    obtain ⟨f, fs, a, as, rfl, rfl, hf, -, hhead, htail⟩ := h
    have hfirst := ih t List.mem_cons_self a hhead a.dataType
    have hothers := ihts (fun u hu => ih u (List.mem_cons_of_mem t hu)) htail
    rw [List.map_cons, serializeColumnsAsync_cons hf, serializeColumnsAsync_cons hf, hfirst,
      hothers]

/-- **A nested column is written the same under the alias of its type.** -/
theorem serializeAsyncOf_unaliased (h : Nested t a) (d : DataType) :
    serializeAsyncOf false t.unaliased a d = serializeAsyncOf false t a d := by
  induction h using Nested.inductionOn generalizing d with
  | flat nullable column => exact serializeAsyncOf_flat_unaliased nullable column d
  | list large item offsets nulls hitem hlaid hvalues ih =>
    rw [ChType.unaliased, serializeAsyncOf, serializeAsyncOf, Lists.serializeAsync,
      Lists.serializeAsync]
    unfold Lists.writeListArray
    simp only [ih]
  | struct hfit hcolumns ih =>
    rw [ChType.unaliased, ChType.unaliaseds_eq_map, serializeAsyncOf, serializeAsyncOf,
      Tuples.serializeAsync, Tuples.serializeAsync, List.length_map,
      serializeColumnsAsync_unaliased ih hcolumns]
  | map name nullable sorted offsets nulls hkey hvalue hcount hlaid hkeys hvalues ihkey ihvalue =>
    rw [ChType.unaliased, serializeAsyncOf, serializeAsyncOf, if_neg Bool.false_ne_true,
      if_neg Bool.false_ne_true]
    unfold Maps.serializeAsync
    simp only [ihkey, ihvalue]

end Aliases

/-! ## What stands before the data -/

section Prefixes

variable {options : Option ArrowOptions} {inMap n : Bool} {d : DataType}

theorem serializePrefix_leaf (options : Option ArrowOptions) {t : ChType} {a : ArrowArray}
    (h : LeafColumn t a) (nullable : Bool) :
    (stringType nullable t).serializePrefix = [] ∧
      (stringType nullable (leafHint options t)).serializePrefix = [] := by
  cases h with
  | string _ =>
    show (stringType nullable .string).serializePrefix = [] ∧
      (stringType nullable (textHint options)).serializePrefix = []
    unfold textHint
    cases nullable <;> cases wantsStrings options <;> exact ⟨rfl, rfl⟩
  | _ => cases nullable <;> exact ⟨rfl, rfl⟩

theorem serializePrefix_flat (options : Option ArrowOptions) (inMap nullable : Bool)
    (column : FlatColumn)
    (h : arrowTypeOf options false (stringType nullable column.type) = .ok (d, n)) :
    (hintOf inMap (stringType nullable column.type) d).serializePrefix = [] := by
  obtain ⟨hself, hhint⟩ := serializePrefix_leaf options column.leaf nullable
  cases inMap with
  | true => exact hself
  | false =>
    obtain ⟨d', hd, htype, -⟩ := leaf_setup options column.leaf nullable
    obtain ⟨rfl, -⟩ := Prod.mk.inj (Except.ok.inj (h.symm.trans hd))
    show (typeHint (stringType nullable column.type) d).serializePrefix = []
    rw [htype, hhint]

theorem prefixes_hints {ts : List ChType}
    (ih : ∀ t ∈ ts, ∀ (a : ArrowArray) (d : DataType) (n : Bool), Nested t a →
      arrowTypeOf options false t = .ok (d, n) → (hintOf inMap t d).serializePrefix = [])
    {len : Nat} {fields : List Field} {columns : List ArrowArray}
    (h : NestedEach len ts fields columns) {items : List (DataType × Bool)}
    (hitems : arrowTypesOf options ts = .ok items) (i : Nat) :
    ChType.serializePrefix.prefixes (hintsOf inMap ts (tupleFields i items)) = [] := by
  induction ts generalizing fields columns items i with
  | nil =>
    cases hitems
    rfl
  | cons t ts ihts =>
    obtain ⟨f, fs, a, as, rfl, rfl, -, -, hhead, htail⟩ := h
    obtain ⟨item, rest, hitem, hrest, rfl⟩ := arrowTypesOf_cons hitems
    have hfirst := ih t List.mem_cons_self a item.1 item.2 hhead hitem
    have hothers := ihts (fun u hu => ih u (List.mem_cons_of_mem t hu)) htail hrest (i + 1)
    show (hintOf inMap t item.1).serializePrefix ++ _ = []
    rw [hfirst, List.nil_append]
    exact hothers

/-- Nothing stands before the data of a nested column. -/
theorem serializePrefix_hint {t : ChType} {a : ArrowArray} (h : Nested t a)
    (hd : arrowTypeOf options false t = .ok (d, n)) :
    (hintOf inMap t d).serializePrefix = [] := by
  induction h using Nested.inductionOn generalizing d n inMap with
  | flat nullable column => exact serializePrefix_flat options inMap nullable column hd
  | list large item offsets nulls hitem hlaid hvalues ih =>
    obtain ⟨item', hitem', rfl, -⟩ := arrowTypeOf_array hd
    rw [hintOf_array, ChType.serializePrefix]
    exact ih hitem'
  | struct hfit hcolumns ih =>
    obtain ⟨ps, hps, rfl, -⟩ := arrowTypeOf_tuple hd
    rw [hintOf_tuple inMap (length_of_arrowTypesOf hps 0), ChType.serializePrefix]
    exact prefixes_hints (fun t ht a d n ha hd => ih t ht a ha hd) hcolumns hps 0
  | map name nullable sorted offsets nulls hkey hvalue hcount hlaid hkeys hvalues ihkey ihvalue =>
    obtain ⟨k, v, hk, hv, rfl, -⟩ := arrowTypeOf_map hd
    rw [hintOf_map, ChType.serializePrefix, ihkey hk, ihvalue hv]
    rfl

/-- Nor is there anything before the data that are written. -/
theorem Nested.serializePrefix_eq {t : ChType} {a : ArrowArray} (h : Nested t a) :
    t.serializePrefix = [] := by
  obtain ⟨⟨d, n⟩, hd⟩ := exists_announced none h
  exact @serializePrefix_hint none true n d t a h hd

end Prefixes

/-! ## Columns without rows -/

section Empty

variable {options : Option ArrowOptions} {n : Bool} {d : DataType}

theorem newEmptyArray_leaf (h : isLeafType d = true) :
    ∃ e, newEmptyArray d = .ok e ∧ Answers d 0 True e := by
  cases d with
  | boolean | primitive | fixedSizeBinary | bytes =>
    exact ⟨_, by rw [newEmptyArray], ⟨rfl, rfl, fun _ => rfl⟩, rfl⟩
  | _ => cases h

theorem newEmptyEach_of_announced {ts : List ChType}
    (ih : ∀ t ∈ ts, ∀ (a : ArrowArray), Nested t a → ∀ (d : DataType) (n : Bool),
      arrowTypeOf options false t = .ok (d, n) →
      ∃ e, newEmptyArray d = .ok e ∧ Answers d 0 True e)
    {len : Nat} {fields : List Field} {columns : List ArrowArray}
    (h : NestedEach len ts fields columns) {items : List (DataType × Bool)}
    (hitems : arrowTypesOf options ts = .ok items) (i : Nat) :
    ∃ es, newEmptyEach (tupleFields i items) = .ok es := by
  induction ts generalizing fields columns items i with
  | nil =>
    cases hitems
    exact ⟨[], rfl⟩
  | cons t ts ihts =>
    obtain ⟨f, fs, a, as, rfl, rfl, -, -, hhead, htail⟩ := h
    obtain ⟨item, rest, hitem, hrest, rfl⟩ := arrowTypesOf_cons hitems
    obtain ⟨e, he, -⟩ := ih t List.mem_cons_self a hhead _ _ hitem
    obtain ⟨es, hes⟩ := ihts (fun u hu => ih u (List.mem_cons_of_mem t hu)) htail hrest (i + 1)
    refine ⟨e :: es, ?_⟩
    rw [tupleFields, newEmptyEach, newEmptyOf, he, Outcome.ok_bind, hes, Outcome.ok_bind]

/-- An empty array can be made of what is announced for a nested column. -/
theorem newEmptyArray_of_announced {t : ChType} {a : ArrowArray} (h : Nested t a)
    (hd : arrowTypeOf options false t = .ok (d, n)) :
    ∃ e, newEmptyArray d = .ok e ∧ Answers d 0 True e := by
  induction h using Nested.inductionOn generalizing d n with
  | flat nullable column =>
    have hleaf : isLeafType d = true := by
      cases nullable with
      | false => exact (isLeafType_of_announced column.leaf hd).1
      | true => exact (isLeafType_of_announced column.leaf (arrowTypeOf_nullable hd).2).1
    exact newEmptyArray_leaf hleaf
  | list large item offsets nulls hitem hlaid hvalues ih =>
    obtain ⟨item', hitem', rfl, -⟩ := arrowTypeOf_array hd
    obtain ⟨values, hvalues, -⟩ := ih hitem'
    refine ⟨.list false ⟨listItemFieldName, item'.1, item'.2⟩ [0] values none, ?_, ?_⟩
    · rw [listOf, newEmptyArray, newEmptyOf, hvalues, Outcome.ok_bind]
    · exact ⟨⟨rfl, rfl, fun _ => rfl⟩, by simp [ArrowArray.rows, slices]⟩
  | struct hfit hcolumns ih =>
    obtain ⟨ps, hps, rfl, -⟩ := arrowTypeOf_tuple hd
    obtain ⟨es, hes⟩ := newEmptyEach_of_announced (fun t ht a ha d n hd => ih t ht a ha hd)
      hcolumns hps 0
    refine ⟨.struct (tupleFields 0 ps) es 0 none, ?_, ?_⟩
    · rw [newEmptyArray, hes, Outcome.ok_bind]
    · exact ⟨⟨rfl, rfl, fun _ => rfl⟩, by simp [ArrowArray.rows]⟩
  | map name nullable sorted offsets nulls hkey hvalue hcount hlaid hkeys hvalues ihkey ihvalue =>
    obtain ⟨k, v, hk, hv, rfl, -⟩ := arrowTypeOf_map hd
    obtain ⟨ks, hks, -⟩ := ihkey hk
    obtain ⟨vs, hvs, -⟩ := ihvalue hv
    refine ⟨.map _ false [0] ks vs none, ?_, ⟨rfl, rfl, fun _ => rfl⟩, ?_⟩
    · rw [mapOf, newEmptyArray, newEmptyOf, newEmptyArray, newEmptyEach, newEmptyOf, hks,
        Outcome.ok_bind, newEmptyEach, newEmptyOf, hvs, Outcome.ok_bind]
      rfl
    · simp [ArrowArray.rows, slices]

end Empty

end Arrow

end ClickhouseArrow
