import ClickhouseArrow.Wire.Transit
import ClickhouseArrow.Arrow.NestedRows
import ClickhouseArrow.Arrow.ZeroRows

/-!
# The parts of a nested array

A list, a map and a struct are read part by part, and what has been read is handed to the
constructors of `arrow-array`, which check it.  The module says what becomes of the array, given
what becomes of its parts, for any readers and writers of the parts.
-/

namespace ClickhouseArrow

open Wire

namespace Arrow

/-! ## Nulls of an array that was read -/

/-- The data types of the arrays whose nulls are those of their own buffer. -/
def ownsNulls : DataType → Bool
  | .list _ _ | .struct _ | .map _ _ => true
  | d => isLeafType d

theorem ownsNulls_leaf {d : DataType} (h : isLeafType d = true) : ownsNulls d = true := by
  cases d <;> first | rfl | exact h

section Nulls

variable {a : ArrowArray}

theorem validity_of_ownsNulls (h : ownsNulls a.dataType = true) :
    a.validity = a.nulls.validity a.len ∧ a.isNullable = a.validity.contains false := by
  cases a <;> first | exact ⟨rfl, rfl⟩ | cases h

theorem not_mem_validity (h : ownsNulls a.dataType = true) (hnulls : a.nullCount = 0) :
    false ∉ a.validity := by
  rw [(validity_of_ownsNulls h).1]
  unfold ArrowArray.nullCount Nulls.count at hnulls
  cases hvalid : a.nulls with
  | none => simp [Nulls.validity]
  | some valid =>
    rw [hvalid] at hnulls
    exact List.count_eq_zero.mp hnulls

theorem isNullable_of_nullCount (h : ownsNulls a.dataType = true) (hnulls : a.nullCount = 0) :
    a.isNullable = false := by
  rw [(validity_of_ownsNulls h).2]
  simpa using not_mem_validity h hnulls

theorem hasUnmaskedNulls_of_nullCount (h : ownsNulls a.dataType = true)
    (hnulls : a.nullCount = 0) : hasUnmaskedNulls none a = false := by
  have hvalid := not_mem_validity h hnulls
  rw [hasUnmaskedNulls, List.any_eq_false]
  rintro ⟨valid, shown⟩ hmem
  have hleft : valid ∈ a.validity := (List.of_mem_zip hmem).1
  cases valid with
  | true => simp
  | false => exact absurd hleft hvalid

/-- A bit of the buffer hides a value exactly where a slot is null. -/
theorem any_hidden_iff {α : Type} (values : List α) (valid : List Bool) :
    (List.zip valid (List.replicate values.length true)).any (fun row => !row.1 && row.2) = true ↔
      none ∈ List.zipWith (fun v isValid => if isValid then some v else none) values valid := by
  induction values generalizing valid with
  | nil => simp
  | cons v values ih =>
    cases valid with
    | nil => simp
    | cons isValid valid =>
      rw [List.length_cons, List.replicate_succ, List.zip_cons_cons, List.any_cons,
        List.zipWith_cons_cons, List.mem_cons, Bool.or_eq_true, ih]
      cases isValid <;> simp

/-- The nulls that no parent hides are the rows that are null. -/
theorem hasUnmaskedNulls_iff (h : ownsNulls a.dataType = true) :
    hasUnmaskedNulls none a = true ↔ none ∈ a.rows := by
  have hslots {α : Type} (xs : List α) (nulls : Nulls) {len : Nat} (hlen : xs.length = len) :
      (List.zip (nulls.validity len) (List.replicate len true)).any
          (fun row => !row.1 && row.2) = true ↔ none ∈ slots xs nulls := by
    subst hlen
    cases nulls with
    | none => simp [Nulls.validity]
    | some valid => exact any_hidden_iff xs valid
  have hleaf {α : Type} (xs : List α) (nulls : Nulls) (leaf : α → Leaf) :
      (List.zip (nulls.validity xs.length) (List.replicate xs.length true)).any
          (fun row => !row.1 && row.2) = true ↔
        none ∈ ((slots xs nulls).map (Option.map leaf)).map (Option.map Cell.leaf) := by
    rw [hslots xs nulls rfl]
    simp
  cases a with
  | boolean values nulls => exact hleaf values nulls _
  | primitive t values nulls => exact hleaf values nulls _
  | fixedSizeBinary size values nulls => exact hleaf values nulls _
  | bytes t values nulls => exact hleaf values nulls _
  | list large item offsets values nulls =>
    rw [ArrowArray.rows]
    exact hslots _ nulls ((List.length_map _).trans (slices_length _ _))
  | struct fields columns len nulls =>
    rw [ArrowArray.rows]
    exact hslots _ nulls ((List.length_map _).trans List.length_range)
  | map entries sorted offsets keys values nulls =>
    rw [ArrowArray.rows]
    exact hslots _ nulls ((List.length_map _).trans (slices_length _ _))
  | _ => cases h

end Nulls

/-! ## What is read -/

/-- What is read for rows: so many of them, in an array of the data type. -/
structure Answers (d : DataType) (rows : Nat) (nullFree : Prop) (a : ArrowArray) : Prop extends
    Decoded d rows nullFree a where
  length_rows : a.rows.length = rows

/-- The array suits a field of a struct with so many rows. -/
structure Suits (len : Nat) (f : Field) (a : ArrowArray) : Prop where
  dataType_eq : a.dataType = f.dataType
  len_eq : a.len = len
  unmasked : f.nullable = false → hasUnmaskedNulls none a = false

/-- What is read for the columns of a tuple. -/
structure AnswersEach (len : Nat) (fields : List Field) (columns : List ArrowArray) : Prop where
  suits : List.Forall₂ (Suits len) fields columns
  length_rows : ∀ a ∈ columns, a.rows.length = len

theorem Answers.suits {d : DataType} {n : Bool} {len : Nat} {a : ArrowArray} (name : String)
    (hd : ownsNulls d = true) (h : Answers d len (n = false) a) : Suits len ⟨name, d, n⟩ a where
  dataType_eq := h.dataType_eq
  len_eq := h.len_eq
  unmasked hn := by
    have hown : ownsNulls a.dataType = true := by rw [h.dataType_eq, hd]
    exact hasUnmaskedNulls_of_nullCount hown (h.nullCount_eq hn)

theorem checkColumns_of_suits {len : Nat} {fields : List Field} {columns : List ArrowArray}
    (h : List.Forall₂ (Suits len) fields columns) :
    checkColumns len none fields columns = .ok () := by
  induction h with
  | nil => rfl
  | @cons f a fields columns hhead htail ih =>
    have hcolumn : checkColumn len none f a = .ok () := by
      have hnulls : (!f.nullable && hasUnmaskedNulls none a) = false := by
        cases hnullable : f.nullable with
        | true => rfl
        | false => rw [hhead.unmasked hnullable, Bool.and_false]
      rw [checkColumn, if_neg (not_not.mpr hhead.dataType_eq.symm),
        if_neg (not_not.mpr hhead.len_eq), hnulls, if_neg Bool.false_ne_true]
    rw [checkColumns, hcolumn]
    exact ih

theorem structArray_of_suits {len : Nat} {fields : List Field} {a : ArrowArray}
    {columns : List ArrowArray} (h : List.Forall₂ (Suits len) fields (a :: columns)) :
    StructArray.new fields (a :: columns) none = .ok (.struct fields (a :: columns) len none) := by
  have hlen : a.len = len := by
    cases h with
    | cons hhead _ => exact hhead.len_eq
  apply unwrap_eq_ok.mpr
  rw [hlen, StructArray.tryNewWithLength, if_neg (not_not.mpr h.length_eq),
    checkColumns_of_suits h]
  rfl

/-- A struct is not made of a column with nulls whose field is not nullable. -/
theorem unmasked_of_structArray {fields : List Field} {f : Field} {a e : ArrowArray}
    {columns : List ArrowArray} (h : StructArray.new (f :: fields) (a :: columns) none = .ok e)
    (hf : f.nullable = false) : hasUnmaskedNulls none a = false := by
  replace h := unwrap_eq_ok.mp h
  unfold StructArray.tryNewWithLength at h
  split_ifs at h
  · cases h
  obtain ⟨_, -, h⟩ := Outcome.bind_eq_ok.mp h
  obtain ⟨_, hcolumns, -⟩ := Outcome.bind_eq_ok.mp h
  obtain ⟨_, hcolumn, -⟩ := Outcome.bind_eq_ok.mp hcolumns
  unfold checkColumn at hcolumn
  split_ifs at hcolumn with _ _ hnulls
  · cases hcolumn
  · cases hcolumn
  · cases hcolumn
  · rw [hf] at hnulls
    simpa using hnulls

/-! ## Lists -/

/-- The offsets of a list or a map are written without the first, and read with a zero before
them. -/
theorem Laid.reads {offsets : List Nat} {nulls : Nulls} {count : Nat}
    (h : Laid offsets nulls count) :
    ∃ ends : List UInt64, ends.length = offsets.length - 1 ∧
      Reads (Lists.bulkOffsets .async (offsets.length - 1)) (offsets.tail.flatMap putUsize)
        (0 :: ends) ∧
      newOffsets ((0 :: ends).map Lists.castI32) = .ok offsets ∧
      ((0 :: ends).getLastD 0).toNat = count := by
  obtain ⟨before, hbefore⟩ : ∃ rest, offsets = 0 :: rest := by
    have hfirst := h.first
    cases offsets with
    | nil => cases hfirst
    | cons start rest =>
      obtain rfl : start = 0 := by simpa using hfirst
      exact ⟨rest, rfl⟩
  subst hbefore
  -- every offset has room in an `i32`
  have hroom : ∀ o ∈ 0 :: before, Lists.castI32 (UInt64.ofNat o) = o := by
    intro o ho
    have hle := h.le ho
    have hsmall := h.small
    rw [Lists.castI32, UInt64.toNat_ofNat', Nat.mod_eq_of_lt (by omega)]
    exact Int32.toInt_ofNat_of_lt (by omega)
  have hcast : (0 :: before.map UInt64.ofNat).map Lists.castI32 =
      (0 :: before).map fun o : Nat => (o : Int) := by
    rw [show (0 : UInt64) = UInt64.ofNat 0 from rfl, ← List.map_cons, List.map_map]
    exact List.map_congr_left fun o ho => hroom o ho
  refine ⟨before.map UInt64.ofNat, by simp, ?_, ?_, ?_⟩
  · have hsized := h.sized
    have hread := bulkOffsets_reads .async (before.map UInt64.ofNat)
      (by simpa using hsized)
    rw [List.length_map] at hread
    have hbytes : before.flatMap putUsize = (before.map UInt64.ofNat).flatMap putLe := by
      rw [List.flatMap_map]
      rfl
    rw [List.tail_cons, hbytes]
    exact hread
  · rw [hcast, newOffsets, if_pos]
    · rw [List.map_map]
      exact congrArg Except.ok (List.map_id' (0 :: before))
    · refine ⟨by simp, by simp, ?_⟩
      rw [List.isChain_map]
      exact h.ordered.imp fun a b hab => Int.ofNat_le.mpr hab
  · have hlast : (0 :: before).getLastD 0 = count := by
      rw [List.getLastD_eq_getLast?, h.last]
      rfl
    have hsmall := h.small
    rw [show (0 : UInt64) = UInt64.ofNat 0 from rfl, ← List.map_cons,
      List.getLastD_eq_getLast?, List.getLast?_map, h.last]
    show (UInt64.ofNat count).toNat = count
    rw [UInt64.toNat_ofNat', Nat.mod_eq_of_lt (by omega)]

/-- The transit of lists, from that of their items. -/
theorem transit_list {carried : Prop} {inner : ChType} {decode : Decode} {b : TypedBuilder}
    {serialize : ArrowArray → DataType → ArrowResult Bytes} (large : Bool) {item : Field}
    {it : DataType} {offsets : List Nat} {values : ArrowArray} {nulls : Nulls}
    (hitem : item.dataType = values.dataType) (hlaid : Laid offsets nulls values.len)
    (hrows : values.rows.length = values.len) (hit : ownsNulls it = true)
    (h : Transit carried (Answers it values.len (inner.stripLowCardinality.isNullable = false))
      (fun a => a.rows = values.rows) (serialize values values.dataType)
      (decode b it values.len [])) :
    Transit (none ∉ (ArrowArray.list large item offsets values nulls).rows ∧ carried)
      (fun a => a.rows.length = offsets.length - 1)
      (fun a => a.rows = (ArrowArray.list large item offsets values nulls).rows)
      (Lists.serializeAsync inner serialize (.list large item offsets values nulls)
        (.list large item))
      (Lists.deserializeAsync inner decode (.list .list b)
        (listOf (it, inner.stripLowCardinality.isNullable)) (offsets.length - 1) []) := by
  obtain ⟨ends, hcount, hends, hbuffer, hlast⟩ := hlaid.reads
  have hwrite : Lists.serializeAsync inner serialize (.list large item offsets values nulls)
      (.list large item) = (serialize values values.dataType >>= fun body =>
        .ok (offsets.tail.flatMap putUsize ++ body)) := by
    rw [← hitem]
    cases offsets with
    | nil => cases hlaid.first
    | cons start rest => rfl
  rw [hwrite]
  refine Transit.after hends (Transit.nil_after (Reads.ofOutcome hbuffer) ?_)
  rw [hlast]
  refine h.finish (fun hc => hc.2) fun a ha hshows => ?_
  -- the list of what was read is accepted
  have hown : ownsNulls a.dataType = true := by rw [ha.dataType_eq, hit]
  have hnew : ListArray.new false ⟨listItemFieldName, a.dataType,
      inner.stripLowCardinality.isNullable⟩ offsets a none =
      .ok (.list false ⟨listItemFieldName, a.dataType, inner.stripLowCardinality.isNullable⟩
        offsets a none) := by
    have hlastD : offsets.getLastD 0 = values.len := by
      rw [List.getLastD_eq_getLast?, hlaid.last]
      rfl
    have hnullable : (!inner.stripLowCardinality.isNullable && a.isNullable) = false := by
      cases hcase : inner.stripLowCardinality.isNullable with
      | true => rfl
      | false => rw [isNullable_of_nullCount hown (ha.nullCount_eq hcase), Bool.and_false]
    apply unwrap_eq_ok.mpr
    rw [ListArray.tryNew, if_neg (by rw [hlastD, ha.len_eq]; omega)]
    show (if (!inner.stripLowCardinality.isNullable && a.isNullable) = true then _ else
      if a.dataType ≠ a.dataType then _ else _) = _
    rw [hnullable, if_neg Bool.false_ne_true, if_neg (not_not.mpr rfl)]
  refine Transit.nil_after (Reads.ofOutcome hnew) ?_
  rw [if_neg (by simp [ArrowArray.len])]
  refine Transit.done (o := .ok _) rfl ?_ ?_
  · rw [ArrowArray.rows, slots_none, List.length_map, List.length_map, slices_length]
  · have hinj : Function.Injective Cell.list := fun _ _ h => Cell.list.inj h
    rw [ArrowArray.rows, ArrowArray.rows, slots_none,
      hlaid.rows_eq_iff hinj hrows ha.length_rows, hshows]

/-! ## Maps -/

/-- The lengths of rows that lie one behind the other add up to their ends. -/
theorem totalLengths_of_chain {start : Nat} {rest : List Nat}
    (h : (start :: rest).IsChain (· ≤ ·)) : Maps.totalLengths start (start :: rest) = rest := by
  induction rest generalizing start with
  | nil => rfl
  | cons stop rest ih =>
    obtain ⟨hle, hchain⟩ := List.isChain_cons_cons.mp h
    rw [Maps.totalLengths, Nat.add_sub_cancel' hle, ih hchain]

theorem Laid.totalLengths {offsets : List Nat} {nulls : Nulls} {count : Nat}
    (h : Laid offsets nulls count) : Maps.totalLengths 0 offsets = offsets.tail := by
  have hfirst := h.first
  cases offsets with
  | nil => cases hfirst
  | cons start rest =>
    obtain rfl : start = 0 := by simpa using hfirst
    exact totalLengths_of_chain h.ordered

/-- The transit of maps, from that of their keys and of their values. -/
theorem transit_map {ck cv : Prop} {decodeKey decodeValue : Decode} {bk bv : TypedBuilder}
    {key value : ArrowArray → DataType → ArrowResult Bytes} {name : String} {nullable : Bool}
    {keyField valueField : Field} {sorted : Bool} {dk : DataType} {dv : DataType × Bool}
    {offsets : List Nat} {keys values : ArrowArray} {nulls : Nulls}
    (hkeyType : keyField.dataType = keys.dataType)
    (hvalueType : valueField.dataType = values.dataType) (hcount : values.len = keys.len)
    (hlaid : Laid offsets nulls keys.len) (hkeyRows : keys.rows.length = keys.len)
    (hvalueRows : values.rows.length = values.len) (hdk : ownsNulls dk = true)
    (hdv : ownsNulls dv.1 = true)
    (hkey : Transit ck (Answers dk keys.len False) (fun a => a.rows = keys.rows)
      (key keys keys.dataType) (decodeKey bk dk keys.len []))
    (hvalue : Transit cv (Answers dv.1 values.len (dv.2 = false)) (fun a => a.rows = values.rows)
      (value values values.dataType) (decodeValue bv dv.1 values.len [])) :
    Transit (none ∉ (ArrowArray.map ⟨name, .struct [keyField, valueField], nullable⟩ sorted offsets
        keys values nulls).rows ∧ none ∉ keys.rows ∧ ck ∧ cv)
      (fun a => a.rows.length = offsets.length - 1)
      (fun a => a.rows = (ArrowArray.map ⟨name, .struct [keyField, valueField], nullable⟩ sorted
        offsets keys values nulls).rows)
      (Maps.serializeAsync key value (.map ⟨name, .struct [keyField, valueField], nullable⟩ sorted
        offsets keys values nulls) (.map ⟨name, .struct [keyField, valueField], nullable⟩ sorted))
      (Maps.deserializeAsync decodeKey decodeValue (.map bk bv) (mapOf dk dv)
        (offsets.length - 1) []) := by
  obtain ⟨ends, hends', hends, hbuffer, hlast⟩ := hlaid.reads
  have hwrite : Maps.serializeAsync key value
      (.map ⟨name, .struct [keyField, valueField], nullable⟩ sorted offsets keys values nulls)
      (.map ⟨name, .struct [keyField, valueField], nullable⟩ sorted) =
        ((key keys keys.dataType >>= fun kb => value values values.dataType >>= fun vb =>
          .ok (kb ++ vb)) >>= fun body => .ok (offsets.tail.flatMap putUsize ++ body)) := by
    rw [← hkeyType, ← hvalueType, ← hlaid.totalLengths, Maps.serializeAsync]
    simp only [bind_assoc, Outcome.ok_bind, List.append_assoc]
  -- The offsets come first, then the keys, then the values.
  rw [hwrite]
  refine Transit.nil_after (Reads.pure ((⟨structKeyFieldName, dk, false⟩,
    ⟨structValueFieldName, dv.1, dv.2⟩) : Field × Field)) ?_
  refine Transit.after hends (Transit.nil_after (Reads.ofOutcome hbuffer) ?_)
  rw [hlast]
  rw [hcount] at hvalue hvalueRows
  refine hkey.seq hvalue (fun hc => ⟨hc.2.2.1, hc.2.2.2⟩) fun a b ha hb hk hv => ?_
  have haOwn : ownsNulls a.dataType = true := by rw [ha.dataType_eq, hdk]
  have hbOwn : ownsNulls b.dataType = true := by rw [hb.dataType_eq, hdv]
  by_cases hnull : none ∈ a.rows
  · -- the field of the keys is not nullable
    refine Transit.of_never (fun hc => ?_) fun bs x hx => ?_
    · rw [hk.mpr hc.2.2.1] at hnull
      exact hc.2.1 hnull
    · obtain ⟨e, rest, he, -⟩ := Reader.bind_eq_ok.mp hx
      have hunmasked := unmasked_of_structArray (ofOutcome_eq_ok he).1 rfl
      rw [(hasUnmaskedNulls_iff haOwn).mpr hnull] at hunmasked
      cases hunmasked
  · have hsuits : List.Forall₂ (Suits keys.len)
        [⟨structKeyFieldName, dk, false⟩, ⟨structValueFieldName, dv.1, dv.2⟩] [a, b] := by
      refine .cons ⟨ha.dataType_eq, ha.len_eq, fun _ => ?_⟩
        (.cons ⟨hb.dataType_eq, hb.len_eq, fun hdvNull => ?_⟩ .nil)
      · exact Bool.eq_false_iff.mpr fun h => hnull ((hasUnmaskedNulls_iff haOwn).mp h)
      · exact hasUnmaskedNulls_of_nullCount hbOwn (hb.nullCount_eq hdvNull)
    have hnew : MapArray.new ⟨mapFieldName, .struct [⟨structKeyFieldName, dk, false⟩,
        ⟨structValueFieldName, dv.1, dv.2⟩], false⟩ offsets
        (.struct [⟨structKeyFieldName, dk, false⟩, ⟨structValueFieldName, dv.1, dv.2⟩] [a, b]
          keys.len none) none false = .ok (.map ⟨mapFieldName, .struct [⟨structKeyFieldName, dk, false⟩,
          ⟨structValueFieldName, dv.1, dv.2⟩], false⟩ false offsets a b none) := by
      have hlastD : offsets.getLastD 0 = keys.len := by
        rw [List.getLastD_eq_getLast?, hlaid.last]
        rfl
      apply unwrap_eq_ok.mpr
      rw [MapArray.tryNew, if_neg (by rw [hlastD]; simp [ArrowArray.len])]
      simp [checkNulls, ArrowArray.nullCount, ArrowArray.nulls, Nulls.count, ArrowArray.dataType]
    refine Transit.nil_after (Reads.ofOutcome (structArray_of_suits hsuits)) (Transit.done hnew ?_ ?_)
    · rw [ArrowArray.rows, slots_none, List.length_map, List.length_map, slices_length]
    -- The offsets cut both ends in the same way, so the rows agree where the entries do.
    · have hinj : Function.Injective Cell.entries := fun _ _ h => Cell.entries.inj h
      have hpairs : (keys.rows.zip values.rows).length = keys.len := by
        rw [List.length_zip, hkeyRows, hvalueRows, Nat.min_self]
      have hpairs' : (a.rows.zip b.rows).length = keys.len := by
        rw [List.length_zip, ha.length_rows, hb.length_rows, Nat.min_self]
      rw [ArrowArray.rows, ArrowArray.rows, slots_none, hlaid.rows_eq_iff hinj hpairs hpairs',
        zip_inj (by rw [ha.length_rows, hb.length_rows]) (by rw [hkeyRows, hvalueRows]), hk, hv]
      refine and_congr_right fun _ => ⟨fun hboth => ⟨?_, hboth⟩, fun hall => hall.2⟩
      rw [← hk.mpr hboth.1]
      exact hnull

/-! ## Tuples -/

/-- The transit of a tuple with rows. -/
theorem transit_tuple {carried : Prop} {arity len : Nat} {fields fields' : List Field}
    {columns : List ArrowArray} {nulls : Nulls} {bs : List TypedBuilder}
    {serialize : List Field → List ArrowArray → ArrowResult Bytes}
    {decode : List TypedBuilder → List Field → Nat → Reader ArrowError (List ArrowArray)}
    (hlen : len ≠ 0) (harity : fields.length = arity) (hfields : fields'.length = arity)
    (hcolumns : columns.length = arity) (hfit : nulls.Fit len)
    (hrows : ∀ rows ∈ ArrowArray.rowsEach columns, rows.length = len)
    (h : Transit carried (AnswersEach len fields')
      (fun as => ArrowArray.rowsEach as = ArrowArray.rowsEach columns) (serialize fields columns)
      (decode bs fields' len)) :
    Transit (none ∉ (ArrowArray.struct fields columns len nulls).rows ∧ arity ≠ 0 ∧ carried)
      (fun a => a.rows.length = len)
      (fun a => a.rows = (ArrowArray.struct fields columns len nulls).rows)
      (Tuples.serializeAsync arity serialize (.struct fields columns len nulls))
      (Tuples.deserializeAsync decode (.tuple bs) (.struct fields') len []) := by
  have hwrite : Tuples.serializeAsync arity serialize (.struct fields columns len nulls) =
      serialize fields columns := if_neg (not_not.mpr harity)
  have hread : Tuples.deserializeAsync decode (.tuple bs) (.struct fields') len [] =
      (decode bs fields' len >>= fun arrays =>
        Reader.ofOutcome (StructArray.new fields' arrays none)) := if_neg hlen
  rw [hwrite, hread]
  refine h.finish (fun hc => hc.2.2) fun as has hshows => ?_
  cases as with
  | nil =>
    -- a struct of no columns has no length
    obtain rfl : fields' = [] := by simpa using has.suits.length_eq
    exact .of_never (fun hc => hc.2.1 hfields.symm) fun bs x hx => by cases hx
  | cons a as =>
    have harity' : arity ≠ 0 := by
      rw [← hfields, has.suits.length_eq]
      simp
    refine Transit.done (structArray_of_suits has.suits) ?_ ?_
    · rw [ArrowArray.rows, slots_none, List.length_map, List.length_map, List.length_range]
    · have hcount : (ArrowArray.rowsEach (a :: as)).length =
          (ArrowArray.rowsEach columns).length := by
        rw [ArrowArray.rowsEach_eq, ArrowArray.rowsEach_eq, List.length_map, List.length_map,
          hcolumns, ← has.suits.length_eq, hfields]
      have hrows' : ∀ rows ∈ ArrowArray.rowsEach (a :: as), rows.length = len := by
        rw [ArrowArray.rowsEach_eq, List.forall_mem_map]
        exact has.length_rows
      have hfit' : nulls.Fit ((List.range len).map fun i => Cell.record
          ((ArrowArray.rowsEach columns).map fun column => column[i]?.join)).length := by
        rwa [List.length_map, List.length_range]
      rw [ArrowArray.rows, ArrowArray.rows, slots_none, map_some_eq_slots_iff hfit',
        records_inj hcount hrows hrows', hshows]
      exact and_congr_right fun _ => (and_iff_right harity').symm

end Arrow

end ClickhouseArrow
