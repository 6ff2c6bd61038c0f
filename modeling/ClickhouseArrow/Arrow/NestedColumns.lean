import ClickhouseArrow.Arrow.NestedTypes

/-!
# Nested columns that come back

A column of lists, maps and structs, at any depth, is written part by part, and the bytes are read
into the arrays that the constructors of `arrow-array` accept.  The module says exactly which
columns come back with the rows that they had.
-/

namespace ClickhouseArrow

open Wire

namespace Arrow

/-! ## The condition -/

mutual

/-- The column comes back: its cells do, no row is null whose type is not nullable, no key of a map
is null, and a tuple without rows is one of the two columns that are read for it. -/
def Carried (options : Option ArrowOptions) : ChType → ArrowArray → Prop
  | .array inner, .list large item offsets values nulls =>
      none ∉ (ArrowArray.list large item offsets values nulls).rows ∧
        Carried options inner values
  | .map key value, .map entries sorted offsets keys values nulls =>
      none ∉ (ArrowArray.map entries sorted offsets keys values nulls).rows ∧ none ∉ keys.rows ∧
        Carried options key keys ∧ Carried options value values
  | .tuple items, .struct fields columns len nulls =>
      none ∉ (ArrowArray.struct fields columns len nulls).rows ∧ items ≠ [] ∧
        (len = 0 → readsNothing options false (.tuple items) = true) ∧
        CarriedEach options items columns
  | .nullable inner, a => ∀ v, some v ∈ leafRows a → Survives options inner v
  | t, a => (∀ v, some v ∈ leafRows a → Survives options t v) ∧ none ∉ leafRows a

def CarriedEach (options : Option ArrowOptions) : List ChType → List ArrowArray → Prop
  | t :: ts, a :: as => Carried options t a ∧ CarriedEach options ts as
  | _, _ => True

end

/-! ## Columns without parts -/

section Flat

variable {options : Option ArrowOptions} {inMap n : Bool} {d : DataType} {b : TypedBuilder}

/-- The type that a column without parts is decoded as, in a map or not, has the builder of its
leaf, which reads the same under the type of the leaf. -/
theorem decodes_in_map {t : ChType} {a : ArrowArray} (h : LeafColumn t a)
    (hfits : fitsBuilder options true t = true) (nullable : Bool) (d : DataType) :
    TypedBuilder.tryNewOf 1 (stringType nullable t) d =
        TypedBuilder.tryNewOf 1 (stringType nullable (leafHint options t)) d ∧
      ∀ json n, deserializeArrowAsync json (stringType nullable t) (leafBuilder options t) d n [] =
        deserializeArrowAsync json (stringType nullable (leafHint options t))
          (leafBuilder options t) d n [] := by
  cases h with
  | string _ =>
    have hwants : wantsStrings options = true := hfits
    have hhint : leafHint options .string = .string := by
      show textHint options = .string
      rw [textHint, hwants]
      rfl
    rw [hhint]
    exact ⟨rfl, fun _ _ => rfl⟩
  | _ => cases nullable <;> exact ⟨rfl, fun _ _ => rfl⟩

/-- The hint and the builder of a column without parts. -/
theorem setup_flat {nullable : Bool} {column : FlatColumn}
    (h : arrowTypeOf options false (stringType nullable column.type) = .ok (d, n))
    (hfits : fitsBuilder options inMap (stringType nullable column.type) = true)
    (hb : TypedBuilder.tryNewOf 1 (hintOf inMap (stringType nullable column.type) d) d = .ok b)
    (json : Bytes → Bytes) (rows : Nat) :
    deserializeArrowAsync json (hintOf inMap (stringType nullable column.type) d) b d rows [] =
      deserializeArrowAsync json (stringType nullable (leafHint options column.type))
        (leafBuilder options column.type) d rows [] := by
  obtain ⟨d', hd, hhint, hbuilder⟩ := leaf_setup options column.leaf nullable
  obtain ⟨rfl, -⟩ := Prod.mk.inj (Except.ok.inj (h.symm.trans hd))
  cases inMap with
  | false =>
    replace hb : TypedBuilder.tryNewOf 1 (typeHint (stringType nullable column.type) d) d = .ok b :=
      hb
    rw [hhint] at hb
    obtain rfl := Except.ok.inj (hbuilder.symm.trans hb)
    show deserializeArrowAsync json (typeHint (stringType nullable column.type) d) _ d rows [] = _
    rw [hhint]
  | true =>
    have hleaf : fitsBuilder options true column.type = true := by
      cases nullable <;> exact hfits
    obtain ⟨hsame, hreads⟩ := decodes_in_map column.leaf hleaf nullable d
    replace hb : TypedBuilder.tryNewOf 1 (stringType nullable column.type) d = .ok b := hb
    rw [hsame] at hb
    obtain rfl := Except.ok.inj (hbuilder.symm.trans hb)
    exact hreads json rows

/-- The rows of a column without parts are those that were read for it. -/
theorem rows_eq_iff_flat {column : FlatColumn} {a : ArrowArray}
    (ha : isLeafType a.dataType = true) :
    a.rows = column.array.rows ↔ leafRows a = column.cells := by
  rw [rows_of_leaf ha, column.rows_eq]
  have hinj : Function.Injective (Option.map Cell.leaf) :=
    Option.map_injective fun _ _ h => Cell.leaf.inj h
  exact (List.map_injective_iff.mpr hinj).eq_iff

/-- The transit of a column without parts. -/
theorem transit_flat {nullable : Bool} {column : FlatColumn}
    (h : arrowTypeOf options false (stringType nullable column.type) = .ok (d, n))
    (hfits : fitsBuilder options inMap (stringType nullable column.type) = true)
    (hb : TypedBuilder.tryNewOf 1 (hintOf inMap (stringType nullable column.type) d) d = .ok b)
    (hserves : Serves (hintOf inMap (stringType nullable column.type) d) b d)
    (json : Bytes → Bytes) :
    Transit ((∀ v, some v ∈ column.cells → Survives options column.type v) ∧
        (none ∈ column.cells → nullable = true))
      (Answers d column.array.len
        ((hintOf inMap (stringType nullable column.type) d).isNullable = false))
      (fun a => a.rows = column.array.rows)
      (serializeAsyncOf false (stringType nullable column.type) column.array column.array.dataType)
      (deserializeArrowAsync json (hintOf inMap (stringType nullable column.type) d) b d
        column.array.len []) := by
  have hleaf : isLeafType d = true := by
    cases nullable with
    | false => exact (isLeafType_of_announced column.leaf h).1
    | true => exact (isLeafType_of_announced column.leaf (arrowTypeOf_nullable h).2).1
  have hread := setup_flat h hfits hb json column.array.len
  have hwrites := @FlatColumn.serializeBy_flat nullable column .async
  -- Three ways to end: a cell is refused by the writer, a string stops the reader, or all come
  -- back.
  by_cases hpasses : ∀ v, some v ∈ column.cells → Passes column.type v
  · have hwrite := (hwrites _).mpr ⟨hpasses, rfl⟩
    by_cases hshort : ∀ v, some v ∈ column.cells → Short column.type v
    · obtain ⟨a, ha, hrows⟩ := column.reads_flat options nullable json d hpasses hshort
      rw [← hread] at ha
      have hdecoded := decoded_of_reads json hserves ha
      have hatype : isLeafType a.dataType = true := by rw [hdecoded.dataType_eq, hleaf]
      refine .back hwrite ha ⟨hdecoded, ?_⟩ ?_
      · rw [rows_of_leaf hatype, List.length_map, hrows, List.length_map, column.length_cells]
      · rw [rows_eq_iff_flat hatype, hrows, column.readRow_iff]
        refine and_congr_left fun _ => forall_congr' fun v => forall_congr' fun hv => ?_
        rw [survives_iff options (column.within hv)]
        exact ⟨fun hback => ⟨hpasses v hv, hshort v hv, hback⟩, fun hall => hall.2.2⟩
    · push Not at hshort
      obtain ⟨v, hv, hlong⟩ := hshort
      have hstuck := column.stuck_flat options nullable json d hv hlong
      rw [← hread] at hstuck
      refine .stuck hwrite hstuck fun hall => hlong ?_
      exact ((survives_iff options (column.within hv)).mp (hall.1 v hv)).2.1
  · refine .refused (fun bytes hbytes => hpasses ((hwrites bytes).mp hbytes).1) fun hall => ?_
    exact hpasses fun v hv => ((survives_iff options (column.within hv)).mp (hall.1 v hv)).1

end Flat

/-! ## Columns of a tuple -/

section Parts

variable {options : Option ArrowOptions} {inMap : Bool}

/-- The transit of a column in a tuple, under the field that is announced for it. -/
def TransitIn (options : Option ArrowOptions) (inMap : Bool) (json : Bytes → Bytes) (t : ChType) :
    Prop :=
  ∀ (a : ArrowArray) (d : DataType) (n : Bool) (b : TypedBuilder), Nested t a →
    arrowTypeOf options false t = .ok (d, n) → fitsBuilder options inMap t = true →
    TypedBuilder.tryNewOf 1 (hintOf inMap t d) d = .ok b →
    Transit (Carried options t a) (Answers d a.len (n = false)) (fun a' => a'.rows = a.rows)
      (serializeAsyncOf false t a a.dataType)
      (deserializeArrowAsync json (hintOf inMap t d) b d a.len [])

theorem serializeColumnsAsync_cons {t : ChType} {ts : List ChType} {f : Field} {fs : List Field}
    {a : ArrowArray} {as : List ArrowArray} (h : f.dataType = a.dataType) :
    serializeColumnsAsync (t :: ts) (f :: fs) (a :: as) =
      (serializeAsyncOf false t a a.dataType >>= fun bytes =>
        serializeColumnsAsync ts fs as >>= fun rest => .ok (bytes ++ rest)) := by
  rw [← h]
  rfl

/-- The columns of a tuple follow each other. -/
theorem transit_each (json : Bytes → Bytes) {ts : List ChType}
    (ih : ∀ t ∈ ts, TransitIn options inMap json t) {len : Nat} {fields : List Field}
    {columns : List ArrowArray} (hnested : NestedEach len ts fields columns)
    {items : List (DataType × Bool)} (h : arrowTypesOf options ts = .ok items)
    (hfits : fitsBuilders options inMap ts = true) (i : Nat) {bs : List TypedBuilder}
    (hbs : TypedBuilder.tryNews (hintsOf inMap ts (tupleFields i items)) (tupleFields i items) =
      .ok bs) :
    Transit (CarriedEach options ts columns) (AnswersEach len (tupleFields i items))
      (fun as => ArrowArray.rowsEach as = ArrowArray.rowsEach columns)
      (serializeColumnsAsync ts fields columns)
      (deserializeColumnsAsync json (hintsOf inMap ts (tupleFields i items)) bs
        (tupleFields i items) len) := by
  induction ts generalizing fields columns items i bs with
  | nil =>
    obtain ⟨rfl, rfl⟩ := hnested
    cases h
    exact .back rfl (Reads.pure []) ⟨.nil, by simp⟩ ⟨fun _ => trivial, fun _ => rfl⟩
  | cons t ts ihts =>
    obtain ⟨f, fs, a, as, rfl, rfl, hf, hlen, hhead, htail⟩ := hnested
    obtain ⟨item, rest, hitem, hrest, rfl⟩ := arrowTypesOf_cons h
    rw [fitsBuilders, Bool.and_eq_true] at hfits
    obtain ⟨b, hb, hbs⟩ := Outcome.bind_eq_ok.mp hbs
    obtain ⟨bs', hbs', hbs⟩ := Outcome.bind_eq_ok.mp hbs
    cases hbs
    have hown := (ownsNulls_of_announced hhead hitem).1
    have hfirst := ih t List.mem_cons_self a item.1 item.2 b hhead hitem hfits.1 hb
    have hothers := ihts (fun u hu => ih u (List.mem_cons_of_mem t hu)) htail hrest hfits.2 (i + 1)
      hbs'
    rw [hlen] at hfirst
    rw [serializeColumnsAsync_cons hf]
    -- The first column is read to its end, so the others are read from their own bytes.
    refine hfirst.seq hothers (fun hc => hc) fun a' as' ha has hs hss => ?_
    refine Transit.done (o := .ok _) rfl ⟨.cons (ha.suits _ hown) has.suits, ?_⟩ ?_
    · exact List.forall_mem_cons.mpr ⟨ha.length_rows, has.length_rows⟩
    · rw [ArrowArray.rowsEach, ArrowArray.rowsEach, List.cons.injEq, hs, hss]
      exact Iff.rfl

theorem length_of_nestedEach {len : Nat} {ts : List ChType} {fields : List Field}
    {columns : List ArrowArray} (h : NestedEach len ts fields columns) :
    fields.length = ts.length ∧ columns.length = ts.length ∧
      ∀ rows ∈ ArrowArray.rowsEach columns, rows.length = len := by
  induction ts generalizing fields columns with
  | nil =>
    obtain ⟨rfl, rfl⟩ := h
    exact ⟨rfl, rfl, by simp [ArrowArray.rowsEach]⟩
  | cons t ts ih =>
    obtain ⟨f, fs, a, as, rfl, rfl, -, hlen, hhead, htail⟩ := h
    obtain ⟨hfields, hcolumns, hrows⟩ := ih htail
    refine ⟨by rw [List.length_cons, hfields, List.length_cons],
      by rw [List.length_cons, hcolumns, List.length_cons], ?_⟩
    rw [ArrowArray.rowsEach, List.forall_mem_cons]
    exact ⟨by rw [hhead.length_rows, hlen], hrows⟩

/-! ## Tuples without rows -/

theorem carried_flat_iff (options : Option ArrowOptions) (nullable : Bool) (column : FlatColumn) :
    Carried options (stringType nullable column.type) column.array ↔
      (∀ v, some v ∈ column.cells → Survives options column.type v) ∧
        (none ∈ column.cells → nullable = true) := by
  cases nullable with
  | true => exact ⟨fun h => ⟨h, fun _ => rfl⟩, fun h => h.1⟩
  | false =>
    have hplain : Carried options column.type column.array ↔
        (∀ v, some v ∈ column.cells → Survives options column.type v) ∧
          none ∉ column.cells := by
      obtain ⟨t, a, hleaf, -, -, -, -⟩ := column
      show Carried options t a ↔ (∀ v, some v ∈ leafRows a → Survives options t v) ∧
        none ∉ leafRows a
      cases hleaf <;> exact Iff.rfl
    show Carried options column.type column.array ↔ _
    rw [hplain]
    simp

/-- A column without parts and without rows is written as nothing. -/
theorem empty_flat (options : Option ArrowOptions) {t : ChType} {a : ArrowArray} (h : Nested t a)
    (ht : isPlain t.stripNull = true) (hlen : a.len = 0) :
    serializeAsyncOf false t a a.dataType = .ok [] ∧ Carried options t a := by
  obtain ⟨nullable, column, rfl, rfl⟩ := h.flat ht
  have hcells : column.cells = [] := by rw [← List.length_eq_zero_iff, column.length_cells, hlen]
  constructor
  · refine (@FlatColumn.serializeBy_flat nullable column .async []).mpr ⟨?_, ?_⟩
    · simp [hcells]
    · rw [FlatColumn.bytes, FlatColumn.mask, hcells]
      cases nullable <;> rfl
  · rw [carried_flat_iff, hcells]
    simp

theorem isPlain_of_placeholder (options : Option ArrowOptions) {t : ChType}
    (h : isInt32 t = true ∨ isText options t = true) : isPlain t.stripNull = true := by
  unfold isInt32 isText at h
  generalize t.stripNull = u at h
  cases u <;> first | rfl | simp at h

/-- The transit of a tuple without rows: nothing is written, and the two columns of the placeholder
are read if they are those of the tuple. -/
theorem transit_empty_tuple {items : List ChType} {fields : List Field} {columns : List ArrowArray}
    {nulls : Nulls} {ps : List (DataType × Bool)} {bs : List TypedBuilder}
    {decode : List TypedBuilder → List Field → Nat → Reader ArrowError (List ArrowArray)}
    (hnested : NestedEach 0 items fields columns) (hfit : nulls.Fit 0)
    (hps : arrowTypesOf options items = .ok ps) :
    Transit (Carried options (.tuple items) (.struct fields columns 0 nulls))
      (fun a => a.rows.length = 0)
      (fun a => a.rows = (ArrowArray.struct fields columns 0 nulls).rows)
      (serializeAsyncOf false (.tuple items) (.struct fields columns 0 nulls) (.struct fields))
      (Tuples.deserializeAsync decode (.tuple bs) (.struct (tupleFields 0 ps)) 0 []) := by
  have hrows : (ArrowArray.struct fields columns 0 nulls).rows = [] := by
    rw [ArrowArray.rows, ← List.length_eq_zero_iff, slots_length (by simpa using hfit)]
    rfl
  have hread : Tuples.deserializeAsync decode (.tuple bs) (.struct (tupleFields 0 ps)) 0 [] =
      Reader.ofOutcome
        (StructArray.tryNewWithLength (tupleFields 0 ps) Tuples.emptyColumns none 0) := by
    rw [Tuples.deserializeAsync, if_pos rfl]
  rw [hread]
  -- Two columns are made up without reading, whatever the tuple is.
  by_cases hreads : readsNothing options false (.tuple items) = true
  · obtain ⟨first, second, rfl, hfirst, hsecond⟩ := placeholder_of_readsNothing hreads
    obtain ⟨f, fs, a, as, rfl, rfl, hf, hlen, hhead, htail⟩ := hnested
    obtain ⟨g, gs, b, bs', rfl, rfl, hg, hlen', hhead', rfl, rfl⟩ := htail
    obtain ⟨item, rest, hitem, hrest, rfl⟩ := arrowTypesOf_cons hps
    obtain ⟨item', rest', hitem', hrest', rfl⟩ := arrowTypesOf_cons hrest
    cases hrest'
    obtain ⟨hwrite, hcarried⟩ :=
      empty_flat options hhead (isPlain_of_placeholder options (.inl hfirst)) hlen
    obtain ⟨hwrite', hcarried'⟩ :=
      empty_flat options hhead' (isPlain_of_placeholder options (.inr hsecond)) hlen'
    have hnew : StructArray.tryNewWithLength (tupleFields 0 [item, item']) Tuples.emptyColumns none
        0 = .ok (.struct (tupleFields 0 [item, item']) Tuples.emptyColumns 0 none) := by
      refine tryNewWithLength_of_empty ?_ ?_
      · have hint32 := (announced_placeholder hitem).1.mpr hfirst
        have hutf8 := (announced_placeholder hitem').2.mpr hsecond
        simp [Tuples.emptyColumns, tupleFields, hint32, hutf8, ArrowArray.dataType]
      · simp [Tuples.emptyColumns, ArrowArray.len]
    have hnothing : serializeAsyncOf false (.tuple [first, second]) (.struct [f, g] [a, b] 0 nulls)
        (.struct [f, g]) = .ok [] := by
      rw [serializeAsyncOf, Tuples.serializeAsync, if_neg (by simp), serializeColumnsAsync_cons hf,
        hwrite, Outcome.ok_bind, serializeColumnsAsync_cons hg, hwrite']
      rfl
    refine .back hnothing (Reads.ofOutcome hnew) rfl ?_
    rw [hrows, ArrowArray.rows]
    refine iff_of_true rfl ⟨?_, by simp, fun _ => hreads, hcarried, hcarried', trivial⟩
    rw [hrows]
    exact List.not_mem_nil
  · refine Transit.of_never (fun hc => hreads (hc.2.2.1 rfl)) fun bytes x hx => ?_
    exact hreads (readsNothing_of_placeholder hps (ofOutcome_eq_ok hx).1)

/-! ## Columns of any nested type -/

/-- What is read is an array of the data type that is announced. -/
theorem answers_of_transit {json : Bytes → Bytes} {hint : ChType} {a : ArrowArray} {d : DataType}
    {n : Bool} {b : TypedBuilder} {c : Prop} {s : ArrowArray → Prop} {w : ArrowResult Bytes}
    (hserves : Serves hint b d) (hnull : n = false → hint.isNullable = false)
    (h : Transit c (fun a' => a'.rows.length = a.len) s w
      (deserializeArrowAsync json hint b d a.len [])) :
    Transit c (Answers d a.len (n = false)) s w (deserializeArrowAsync json hint b d a.len []) := by
  have hall := h.keep fun bytes a' hread => decoded_of_reads json hserves hread
  refine hall.weaken fun a' ha => ⟨⟨ha.1.dataType_eq, ha.1.len_eq, fun hn => ?_⟩, ha.2⟩
  exact ha.1.nullCount_eq (hnull hn)

/-- A part without parts of its own. -/
theorem answers_flat {nullable : Bool} {column : FlatColumn} {d : DataType} {n : Bool}
    {b : TypedBuilder}
    (h : arrowTypeOf options false (stringType nullable column.type) = .ok (d, n))
    (hfits : fitsBuilder options inMap (stringType nullable column.type) = true)
    (hb : TypedBuilder.tryNewOf 1 (hintOf inMap (stringType nullable column.type) d) d = .ok b)
    (json : Bytes → Bytes) :
    Transit (Carried options (stringType nullable column.type) column.array)
      (Answers d column.array.len (n = false)) (fun a => a.rows = column.array.rows)
      (serializeAsyncOf false (stringType nullable column.type) column.array column.array.dataType)
      (deserializeArrowAsync json (hintOf inMap (stringType nullable column.type) d) b d
        column.array.len []) := by
  obtain ⟨b', hb', hserves⟩ := hasBuilder_hintOf h hfits
  obtain rfl := Except.ok.inj (hb.symm.trans (hb' 0))
  have hn := (ownsNulls_of_announced (column.nested nullable) h).2
  have htransit := (transit_flat h hfits hb hserves json).congr
    (carried_flat_iff options nullable column).symm
  refine htransit.weaken fun a' ha => ⟨⟨ha.dataType_eq, ha.len_eq, fun hfree => ?_⟩, ha.length_rows⟩
  rw [hn] at hfree
  exact ha.nullCount_eq (head_hintOf h hfree inMap).1

/-- **The transit of a nested column** under what is announced for its type, in a map or not. -/
theorem transit_nested (options : Option ArrowOptions) (inMap : Bool) (json : Bytes → Bytes)
    (t : ChType) : TransitIn options inMap json t := by
  intro a d n b hnested h hfits hb
  induction hnested using Nested.inductionOn generalizing inMap d n b with
  | flat nullable column => exact answers_flat h hfits hb json
  | @list inner large item offsets values nulls hitemType hlaid hvalues ih =>
    obtain ⟨b', hb', hserves⟩ := hasBuilder_hintOf h hfits
    obtain rfl := Except.ok.inj (hb.symm.trans (hb' 0))
    have hnull : n = false → (hintOf inMap (.array inner) d).isNullable = false :=
      fun _ => (head_hintOf h rfl inMap).1
    obtain ⟨item', hitem, rfl, -⟩ := arrowTypeOf_array h
    rw [fitsBuilder, Bool.and_eq_true] at hfits
    have hagrees := (itemAgrees_iff hitem).mp hfits.2
    obtain ⟨bi, hbi, -⟩ := hasBuilder_hintOf hitem hfits.1
    refine answers_of_transit hserves hnull ?_
    -- The builder of a list holds the one that its items are announced with.
    have hbuilder : b = .list .list bi := by
      rw [hintOf_array] at hb
      obtain ⟨bi', hbi', rfl⟩ := Outcome.map_eq_ok.mp hb
      rw [Except.ok.inj (hbi'.symm.trans (hbi 1))]
    have hinner := ih inMap item'.1 item'.2 bi hitem hfits.1 (hbi 0)
    rw [hintOf_array, hbuilder]
    have hlist : listOf item' = listOf (item'.1,
        (hintOf inMap inner item'.1).stripLowCardinality.isNullable) := by rw [hagrees]
    rw [← hagrees] at hinner
    have htransit := transit_list large hitemType hlaid hvalues.length_rows
      (ownsNulls_of_announced hvalues hitem).1 hinner
    rw [← hlist] at htransit
    exact htransit
  | @struct items fields columns len nulls hfit hcolumns ih =>
    obtain ⟨b', hb', hserves⟩ := hasBuilder_hintOf h hfits
    obtain rfl := Except.ok.inj (hb.symm.trans (hb' 0))
    have hnull : n = false → (hintOf inMap (.tuple items) d).isNullable = false :=
      fun _ => (head_hintOf h rfl inMap).1
    obtain ⟨ps, hps, rfl, -⟩ := arrowTypeOf_tuple h
    refine answers_of_transit hserves hnull ?_
    have hlength := length_of_arrowTypesOf hps 0
    obtain ⟨hfields, hcount, hrows⟩ := length_of_nestedEach hcolumns
    rw [hintOf_tuple inMap hlength] at hb ⊢
    rw [TypedBuilder.tryNewOf, if_neg (not_not.mpr (length_hintsOf inMap hlength))] at hb
    obtain ⟨bs, hbs, rfl⟩ := Outcome.map_eq_ok.mp hb
    -- Without rows the decoder takes another arm.
    by_cases hzero : len = 0
    · subst hzero
      exact transit_empty_tuple hcolumns hfit hps
    · have hparts : ∀ t ∈ items, TransitIn options inMap json t :=
        fun t ht a d n b ha => ih t ht a ha inMap d n b
      have heach := transit_each json hparts hcolumns hps hfits 0 hbs
      have htransit := transit_tuple hzero hfields hlength.symm hcount hfit hrows heach
      refine htransit.congr (and_congr_right fun _ => ?_)
      refine and_congr (by simp) ?_
      exact (and_iff_right fun hlen => absurd hlen hzero).symm
  | @map key value name nullable kf vf sorted offsets keys values nulls hkf hvf hcount hlaid hkeys
      hvalues ihkey ihvalue =>
    obtain ⟨b', hb', hserves⟩ := hasBuilder_hintOf h hfits
    obtain rfl := Except.ok.inj (hb.symm.trans (hb' 0))
    have hnull : n = false → (hintOf inMap (.map key value) d).isNullable = false :=
      fun _ => (head_hintOf h rfl inMap).1
    obtain ⟨k, v, hk, hv, rfl, -⟩ := arrowTypeOf_map h
    rw [fitsBuilder, Bool.and_eq_true] at hfits
    refine answers_of_transit hserves hnull ?_
    -- In a map the types of the parts are read as they stand, without the options.
    have hkeyBuilder : HasBuilder (hintOf true key k.1) k.1 := hasBuilder_hintOf hk hfits.1
    have hvalueBuilder : HasBuilder (hintOf true value v.1) v.1 := hasBuilder_hintOf hv hfits.2
    obtain ⟨bk, hbk, -⟩ := hkeyBuilder
    obtain ⟨bv, hbv, -⟩ := hvalueBuilder
    have hbuilder : b = .map bk bv := by
      rw [hintOf_map] at hb
      obtain ⟨fs, hfs, hb⟩ := Outcome.bind_eq_ok.mp hb
      cases hfs
      obtain ⟨bk', hbk', hb⟩ := Outcome.bind_eq_ok.mp hb
      obtain ⟨bv', hbv', hb⟩ := Outcome.bind_eq_ok.mp hb
      cases hb
      rw [Except.ok.inj (hbk'.symm.trans (hbk 0)), Except.ok.inj (hbv'.symm.trans (hbv 0))]
    have hkeyTransit := ihkey true k.1 k.2 bk hk hfits.1 (hbk 0)
    have hvalueTransit := ihvalue true v.1 v.2 bv hv hfits.2 (hbv 0)
    rw [hintOf_map, hbuilder]
    refine transit_map hkf hvf hcount hlaid hkeys.length_rows hvalues.length_rows
      (ownsNulls_of_announced hkeys hk).1 (ownsNulls_of_announced hvalues hv).1 ?_ hvalueTransit
    exact hkeyTransit.weaken fun a ha => ⟨⟨ha.dataType_eq, ha.len_eq, False.elim⟩, ha.length_rows⟩

end Parts

/-! ## Which columns come back -/

/-- A column of a nested type. -/
structure NestedColumn where
  type : ChType
  array : ArrowArray
  nested : Nested type array

/-- The array is written as a column of its type, and what is read of the bytes has its rows. -/
def KeepsRows (options : Option ArrowOptions) (column : NestedColumn) : Prop :=
  ∀ (json : Bytes → Bytes) (m m' : Mode) (rest : Bytes),
    ∃ (d : DataType) (n : Bool) (builder : TypedBuilder) (bytes : Bytes) (array : ArrowArray),
      chToArrowType column.type options = .ok (d, n) ∧
        TypedBuilder.tryNew (typeHint column.type d) d = .ok builder ∧
        serializeBy m' column.type column.array column.array.dataType = .ok bytes ∧
        deserializeBy json m (typeHint column.type d) builder d column.array.len []
          (bytes ++ rest) = .ok (array, rest) ∧
        array.rows = column.array.rows

end Arrow

end ClickhouseArrow
