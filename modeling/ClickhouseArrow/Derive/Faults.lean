import ClickhouseArrow.Derive.Names

/-!
# The first fault

A struct that is not decoded returns the first fault that is met: a nested field of unknown
size, else the first column in their order that its field refuses, else the first row, of the
first nested field in the order of the declaration, that has a fault of its own.  So the
columns of a result and the own columns of the struct alone give the same result exactly when
both make the struct, or both have the same first fault.
-/

namespace ClickhouseArrow

open Wire

namespace Derive

/-! ## Columns that are refused -/

/-- Why a plain field refuses a column, behind those that it has taken. -/
inductive RefusesPlain {A : Type} (name : String) (deserializeWith : Bool)
    (fromSql : ChType → Value → ColumnResult A) (taken : List (Arm × RawColumn))
    (column : RawColumn) : Fault ColumnError → Prop
  | duplicate : taken ≠ [] →
      RefusesPlain name deserializeWith fromSql taken column (.error (.duplicateField name))
  | rejected {e : Fault ColumnError} : taken = [] →
      visit name deserializeWith fromSql column = .error e →
      RefusesPlain name deserializeWith fromSql taken column e

/-- Why a nested field refuses a column, behind those that it has taken. -/
inductive RefusesNested (taken : List (Arm × RawColumn)) (column : RawColumn) :
    Fault ColumnError → Prop
  | noArray : column.value.unarray = none →
      RefusesNested taken column (.error (.unexpectedTypeWithColumn column.name column.type))
  | otherLength {n : Nat} {values : List Value} : (∃ c ∈ taken, HasLength n c.2) →
      column.value = .array values → n ≠ values.length →
      RefusesNested taken column (.error (.other (.deserializeError
        [.text "invalid length for nested columns, mismatches previous column ",
          .text column.name, .text ": ", .number n, .text " != ", .number values.length])))
  | noArrayType {values : List Value} : column.value = .array values →
      (∀ c ∈ taken, HasLength values.length c.2) → column.type.unarray = none →
      RefusesNested taken column (.error (.unexpectedTypeWithColumn column.name column.type))

/-- The field at a place refuses a column, behind those that the fields have taken. -/
def Fields.Refuses : {α : Type} → Fields α → (Nat → List (Arm × RawColumn)) → Nat → RawColumn →
    Fault ColumnError → Prop
  | _, .nil, _, _, _, _ => False
  | _, .plain name _ deserializeWith fromSql _ _, taken, 0, column, e =>
      RefusesPlain name deserializeWith fromSql (taken 0) column e
  | _, .nested _ _ _ _, taken, 0, column, e => RefusesNested (taken 0) column e
  | _, .flatten _ _ _, _, 0, _, _ => False
  | _, .skipped _ _ _ _, _, 0, _, _ => False
  | _, .plain _ _ _ _ _ rest, taken, place + 1, column, e =>
      rest.Refuses (fun p => taken (p + 1)) place column e
  | _, .nested _ _ _ rest, taken, place + 1, column, e =>
      rest.Refuses (fun p => taken (p + 1)) place column e
  | _, .flatten _ _ rest, taken, place + 1, column, e =>
      rest.Refuses (fun p => taken (p + 1)) place column e
  | _, .skipped _ _ _ rest, taken, place + 1, column, e =>
      rest.Refuses (fun p => taken (p + 1)) place column e

/-- No column is refused: a plain field has taken one at most, which it can read, and a nested
field arrays of one length. -/
def Fields.Accepts : {α : Type} → Fields α → (Nat → List (Arm × RawColumn)) → Prop
  | _, .nil, _ => True
  | _, .plain name _ deserializeWith fromSql _ rest, taken =>
      (taken 0 = [] ∨ ∃ c x, taken 0 = [c] ∧ visit name deserializeWith fromSql c.2 = .ok x) ∧
        rest.Accepts fun place => taken (place + 1)
  | _, .nested name _ _ rest, taken =>
      (∃ pushed n, List.Forall₂ (Pushes name) (taken 0) pushed ∧ ∀ e ∈ pushed, e.2.2.length = n) ∧
        rest.Accepts fun place => taken (place + 1)
  | _, .flatten _ _ rest, taken => rest.Accepts fun place => taken (place + 1)
  | _, .skipped _ _ _ rest, taken => rest.Accepts fun place => taken (place + 1)

/-- The first column that is refused. -/
def Fields.RefusesFirst {α : Type} (fields : Fields α) (map : List RawColumn)
    (e : Fault ColumnError) : Prop :=
  ∃ before column after place arm, map = before ++ column :: after ∧
    fields.Accepts (fields.taken 0 before) ∧
    fields.arm before.length column.name = some (place, arm) ∧
    fields.Refuses (fields.taken 0 before) place column e

/-! ## The faults of a struct -/

mutual

/-- The first fault that the columns of a struct of plain and nested fields have. -/
def RowType.Faults : {α : Type} → RowType α → List RawColumn → Fault ColumnError → Prop
  | _, .derived _ _ fields, map, e =>
      fields.knownSizes = .error e ∨
      fields.knownSizes = .ok () ∧ (fields.RefusesFirst map e ∨
        fields.Accepts (fields.taken 0 map) ∧ fields.FaultyRow (fields.taken 0 map) e)
  | _, .converted _ _ _ _, _, _ => False
  | _, .custom _ _ _, _, _ => False

/-- The first row with a fault, of the first nested field that has one. -/
def Fields.FaultyRow : {α : Type} → Fields α → (Nat → List (Arm × RawColumn)) →
    Fault ColumnError → Prop
  | _, .nil, _, _ => False
  | _, .plain _ _ _ _ _ rest, taken, e => rest.FaultyRow (fun place => taken (place + 1)) e
  | _, .nested name inner _ rest, taken, e =>
      ∃ pushed n, List.Forall₂ (Pushes name) (taken 0) pushed ∧
        (∀ c ∈ pushed, c.2.2.length = n) ∧
        ((∃ k < n, (∀ j < k, ∀ e', ¬ inner.Faults (rowAt pushed j) e') ∧
            inner.Faults (rowAt pushed k) e) ∨
          (∀ k < n, ∀ e', ¬ inner.Faults (rowAt pushed k) e') ∧
            rest.FaultyRow (fun place => taken (place + 1)) e)
  | _, .flatten _ _ _, _, _ => False
  | _, .skipped _ _ _ _, _, _ => False

end

/-! ## What the arms refuse -/

theorem takePlain_eq_error {A : Type} {name : String} {deserializeWith : Bool}
    {fromSql : ChType → Value → ColumnResult A} {taken : List (Arm × RawColumn)}
    {slot : Option A} (h : foldPlain name deserializeWith fromSql none taken = .ok slot)
    {column : RawColumn} {e : Fault ColumnError} :
    takePlain name deserializeWith fromSql slot column = .error e ↔
      RefusesPlain name deserializeWith fromSql taken column e := by
  rcases foldPlain_eq_ok.mp h with ⟨rfl, rfl⟩ | ⟨c, x, rfl, -, rfl⟩
  · rw [takePlain, if_neg (by simp), Outcome.bind_ok_eq_error]
    constructor
    · exact fun he => .rejected rfl he
    · rintro (hsome | ⟨-, he⟩)
      · exact absurd rfl hsome
      · exact he
  · rw [takePlain, if_pos (by simp)]
    constructor
    · intro he
      cases he
      exact .duplicate (by simp)
    · rintro (hsome | ⟨hnone, he⟩)
      · rfl
      · cases hnone

/-- What a nested field has taken tells the length of its arrays. -/
theorem foldNested_columns {name : String} {taken : List (Arm × RawColumn)} {ext : Ext}
    (h : foldNested name Ext.none taken = .ok ext) : ext.columns = [] ↔ taken = [] := by
  obtain ⟨pushed, hpushed, hcolumns⟩ := foldNested_eq_ok h
  have hcolumns : ext.columns = pushed := hcolumns
  have hlength := hpushed.length_eq
  rw [hcolumns, ← List.length_eq_zero_iff, ← List.length_eq_zero_iff, hlength]

theorem HasLength.unique {m n : Nat} {column : RawColumn} (h : HasLength m column)
    (h' : HasLength n column) : m = n := by
  obtain ⟨items, hitems, rfl⟩ := h
  obtain ⟨items', hitems', rfl⟩ := h'
  rw [hitems, Value.array.injEq] at hitems'
  rw [hitems']

theorem Ext.take_eq_error {name : String} {taken : List (Arm × RawColumn)} {ext : Ext}
    (h : foldNested name Ext.none taken = .ok ext) (pushed : String) {column : RawColumn}
    {e : Fault ColumnError} :
    ext.take pushed column = .error e ↔ RefusesNested taken column e := by
  have hlength : ∀ c ∈ taken, HasLength ext.len c.2 := fun c hc => (foldNested_length h hc).2
  rw [Ext.take]
  cases hvalue : column.value.unarray with
  | none =>
    constructor
    · intro he
      cases he
      exact .noArray hvalue
    · rintro (_ | ⟨_, hvalues, _⟩ | ⟨hvalues, _, _⟩)
      · rfl
      · rw [hvalues] at hvalue
        cases hvalue
      · rw [hvalues] at hvalue
        cases hvalue
  | some values =>
    have hvalues := Value.unarray_eq_some.mp hvalue
    dsimp only
    split
    · next hother =>
      -- The field has columns already, and they are of another length.
      obtain ⟨c, hc⟩ := List.exists_mem_of_ne_nil taken
        (fun hnil => hother.1 ((foldNested_columns h).mpr hnil))
      constructor
      · intro he
        cases he
        exact .otherLength ⟨c, hc, hlength c hc⟩ hvalues hother.2
      · rintro (hnone | ⟨⟨c', hc', hn⟩, hvalues', -⟩ | ⟨hvalues', hsame, -⟩)
        · rw [hnone] at hvalue
          cases hvalue
        · rw [hvalues] at hvalues'
          cases hvalues'
          rw [hn.unique (hlength c' hc')]
          rfl
        · rw [hvalues] at hvalues'
          cases hvalues'
          exact absurd ((hlength c hc).unique (hsame c hc)) hother.2
    · next hfits =>
      -- The lengths agree, so the type is what is left to refuse.
      have hsame : ∀ c ∈ taken, HasLength values.length c.2 := by
        intro c hc
        have hsome := (foldNested_length h hc).1
        rw [not_and_not_right] at hfits
        rw [← hfits hsome]
        exact hlength c hc
      constructor
      · intro he
        cases htype : column.type.unarray with
        | none =>
          rw [htype] at he
          cases he
          exact .noArrayType hvalues hsame htype
        | some t =>
          rw [htype] at he
          cases he
      · rintro (hnone | ⟨⟨c', hc', hn⟩, hvalues', hne⟩ | ⟨-, -, htype⟩)
        · rw [hnone] at hvalue
          cases hvalue
        · rw [hvalues] at hvalues'
          cases hvalues'
          exact absurd (hn.unique (hsame c' hc')) hne
        · rw [htype]
          rfl

/-- The fields take what none of them refuses. -/
theorem Fields.exists_takes_iff : ∀ {α : Type} (fields : Fields α)
    {taken : Nat → List (Arm × RawColumn)},
    (∃ slots, fields.Takes taken fields.noSlots slots) ↔ fields.Accepts taken
  | _, .nil, _ => iff_of_true ⟨(), trivial⟩ trivial
  | _, .plain name _ deserializeWith fromSql _ rest, taken => by
      rw [Fields.Accepts, ← rest.exists_takes_iff]
      constructor
      · rintro ⟨slots, hslot, hrest⟩
        refine ⟨?_, slots.2, hrest⟩
        rcases foldPlain_eq_ok.mp hslot with ⟨hnone, -⟩ | ⟨c, x, hone, hx, -⟩
        · exact .inl hnone
        · exact .inr ⟨c, x, hone, hx⟩
      · rintro ⟨hnone | ⟨c, x, hone, hx⟩, slots, hrest⟩
        · exact ⟨(none, slots), foldPlain_eq_ok.mpr (.inl ⟨hnone, rfl⟩), hrest⟩
        · exact ⟨(some x, slots), foldPlain_eq_ok.mpr (.inr ⟨c, x, hone, hx, rfl⟩), hrest⟩
  | _, .nested name _ _ rest, taken => by
      rw [Fields.Accepts, ← rest.exists_takes_iff]
      constructor
      · rintro ⟨slots, hfold, hrest⟩
        obtain ⟨pushed, hpushed, hcolumns⟩ := foldNested_eq_ok hfold
        have hcolumns : slots.1.columns = pushed := hcolumns
        exact ⟨⟨pushed, slots.1.len, hpushed, hcolumns ▸ slots.1.uniform⟩, slots.2, hrest⟩
      · rintro ⟨⟨pushed, n, hpushed, hlen⟩, slots, hrest⟩
        obtain ⟨ext, hfold, -⟩ := @exists_foldNested _ _ pushed hpushed n Ext.none hlen
        exact ⟨(ext, slots), hfold, hrest⟩
  | _, .flatten _ _ rest, taken => rest.exists_takes_iff
  | _, .skipped _ _ _ rest, taken => rest.exists_takes_iff

/-- Behind what the fields have taken, an arm fails exactly where its field refuses the
column. -/
theorem Fields.take_eq_error : ∀ {α : Type} {fields : Fields α}
    {taken : Nat → List (Arm × RawColumn)} {slots : fields.Slots}
    (_ : fields.Takes taken fields.noSlots slots) {place : Nat} {arm : Arm} {column : RawColumn}
    {e : Fault ColumnError},
    fields.take place arm column slots = .error e ↔ fields.Refuses taken place column e
  | _, .nil, _, _, _, _, _, _, _ => by simp [Fields.take, Fields.Refuses]
  | _, .plain _ _ _ _ _ _, _, _, h, 0, _, _, _ =>
      Outcome.bind_ok_eq_error.trans (takePlain_eq_error h.1)
  | _, .nested _ _ _ _, _, _, h, 0, _, _, _ =>
      Outcome.bind_ok_eq_error.trans (Ext.take_eq_error h.1 _)
  | _, .flatten _ _ _, _, _, _, 0, _, _, _ => by simp [Fields.take, Fields.Refuses]
  | _, .skipped _ _ _ _, _, _, _, 0, _, _, _ => by simp [Fields.take, Fields.Refuses]
  | _, .plain _ _ _ _ _ _, _, _, h, _ + 1, _, _, _ =>
      Outcome.bind_ok_eq_error.trans (Fields.take_eq_error h.2)
  | _, .nested _ _ _ _, _, _, h, _ + 1, _, _, _ =>
      Outcome.bind_ok_eq_error.trans (Fields.take_eq_error h.2)
  | _, .flatten _ _ rest, _, _, h, place + 1, _, _, _ => by
      have hrest : rest.Takes (fun p => _) rest.noSlots _ := h
      exact Fields.take_eq_error hrest
  | _, .skipped _ _ _ rest, _, _, h, place + 1, _, _, _ => by
      have hrest : rest.Takes (fun p => _) rest.noSlots _ := h
      exact Fields.take_eq_error hrest

/-- The loop over the columns fails at the first one that does. -/
theorem Fields.matchKeys_eq_error {α : Type} {fields : Fields α} {deny : Bool} {index : Nat}
    {map : List RawColumn} {slots : fields.Slots} {e : Fault ColumnError} :
    fields.matchKeys deny index map slots = .error e ↔
      ∃ before column after slots', map = before ++ column :: after ∧
        fields.matchKeys deny index before slots = .ok slots' ∧
        fields.matchKey deny (index + before.length) column slots' = .error e := by
  induction map generalizing index slots with
  | nil => simp [Fields.matchKeys]
  | cons column map ih =>
    rw [Fields.matchKeys, Outcome.bind_eq_error]
    simp only [ih]
    constructor
    · rintro (he | ⟨s, hs, before, c, after, slots', rfl, hbefore, he⟩)
      · exact ⟨[], column, map, slots, rfl, rfl, he⟩
      · refine ⟨column :: before, c, after, slots', rfl, ?_, ?_⟩
        · rw [Fields.matchKeys, hs]
          exact hbefore
        · have hindex : index + (before.length + 1) = index + 1 + before.length := by omega
          rwa [List.length_cons, hindex]
    · rintro ⟨before, c, after, slots', heq, hbefore, he⟩
      cases before with
      | nil =>
        cases heq
        cases hbefore
        exact .inl he
      | cons c' before =>
        cases heq
        obtain ⟨s, hs, hbefore⟩ := Outcome.bind_eq_ok.mp hbefore
        rw [List.length_cons, show index + (before.length + 1) = index + 1 + before.length by omega]
          at he
        exact .inr ⟨s, hs, before, c, after, slots', rfl, hbefore, he⟩

/-- Where unknown columns are ignored, the loop fails at the first column that is refused. -/
theorem Fields.matchKeys_fails_iff {α : Type} {fields : Fields α} {map : List RawColumn}
    {e : Fault ColumnError} :
    fields.matchKeys false 0 map fields.noSlots = .error e ↔ fields.RefusesFirst map e := by
  have hallows : ∀ before, fields.AllowsUnknown false 0 before := fun _ h => by simp at h
  rw [Fields.matchKeys_eq_error]
  constructor
  · rintro ⟨before, column, after, slots, hmap, hbefore, he⟩
    obtain ⟨-, htakes⟩ := Fields.matchKeys_eq_ok.mp hbefore
    rw [Nat.zero_add, Fields.matchKey] at he
    cases harm : fields.arm before.length column.name with
    | none =>
      -- A column that no arm takes is ignored, and is not the one that fails.
      rw [harm] at he
      cases he
    | some p =>
      rw [harm] at he
      exact ⟨before, column, after, p.1, p.2, hmap, fields.exists_takes_iff.mp ⟨slots, htakes⟩,
        harm, (Fields.take_eq_error htakes).mp he⟩
  · rintro ⟨before, column, after, place, arm, hmap, haccepts, harm, hrefuses⟩
    obtain ⟨slots, htakes⟩ := fields.exists_takes_iff.mpr haccepts
    refine ⟨before, column, after, slots, hmap,
      Fields.matchKeys_eq_ok.mpr ⟨hallows before, htakes⟩, ?_⟩
    rw [Nat.zero_add, Fields.matchKey, harm]
    exact (Fields.take_eq_error htakes).mpr hrefuses

/-! ## Where the passes fail -/

/-- The values of a struct whose fields have taken their own columns are all there. -/
theorem Fields.WellNamed.exists_extract : ∀ {α : Type} {fields : Fields α} (_ : fields.WellNamed)
    {own : List RawColumn} {strangers taken : Nat → List (Arm × RawColumn)}
    (_ : fields.TakesOwn own strangers taken) (_ : own.map RawColumn.name = fields.names)
    {slots : fields.Slots} (_ : fields.Takes taken fields.noSlots slots)
    {filled : fields.Filled} (_ : (fields.rectify slots).Returns (.ok filled)),
    ∃ values, fields.extract filled = .ok values
  | _, _, .nil, _, _, _, _, _, _, _, filled, _ => ⟨filled, rfl⟩
  | _, _, .plain hname h, _, _, _, htaken, hown, _, htakes, _, hrectify => by
      obtain ⟨c, own, rfl, hfirst, hrest, hown⟩ := htaken.exists_plain hown hname
      obtain ⟨others, hothers, hfilled⟩ := Bounded.returns_bind_ok.mp hrectify
      cases Bounded.returns_pure.mp hfilled
      obtain ⟨values, hvalues⟩ := h.exists_extract hrest hown htakes.2 hothers
      -- The own column has set the slot.
      rcases foldPlain_eq_ok.mp htakes.1 with ⟨hnone, -⟩ | ⟨_, x, -, -, hslot⟩
      · rw [hnone] at hfirst
        exact absurd hfirst.length_eq (by simp)
      · refine ⟨(x, values), Outcome.bind_eq_ok.mpr
          ⟨x, ?_, Outcome.bind_eq_ok.mpr ⟨_, hvalues, rfl⟩⟩⟩
        rw [hslot]
        rfl
  | _, _, .nested _ _ hname h, _, _, _, htaken, hown, _, htakes, _, hrectify => by
      obtain ⟨group, own, rfl, -, -, -, hrest, hown⟩ := htaken.exists_nested hown hname
      obtain ⟨rows, -, hnext⟩ := Bounded.returns_bind_ok.mp hrectify
      obtain ⟨others, hothers, hfilled⟩ := Bounded.returns_bind_ok.mp hnext
      cases Bounded.returns_pure.mp hfilled
      obtain ⟨values, hvalues⟩ := h.exists_extract hrest hown htakes.2 hothers
      exact ⟨(rows, values), Outcome.bind_eq_ok.mpr ⟨values, hvalues, rfl⟩⟩

theorem Fields.WellNamed.exists_build : ∀ {α : Type} {fields : Fields α} (_ : fields.WellNamed)
    (values : fields.Extracted) (flat : Flat),
    ∃ built, (fields.build values flat).Returns (.ok built)
  | _, _, .nil, values, flat => ⟨(values, flat), Bounded.returns_pure.mpr rfl⟩
  | _, _, .plain _ h, values, flat => by
      obtain ⟨built, hbuilt⟩ := h.exists_build values.2 flat
      exact ⟨_, Bounded.returns_bind_ok.mpr ⟨built, hbuilt, Bounded.returns_pure.mpr rfl⟩⟩
  | _, _, .nested _ _ _ h, values, flat => by
      obtain ⟨built, hbuilt⟩ := h.exists_build values.2 flat
      exact ⟨_, Bounded.returns_bind_ok.mpr ⟨built, hbuilt, Bounded.returns_pure.mpr rfl⟩⟩

/-- Where the decoding of each row ends, the rows of a nested field fail at the first one with a
fault. -/
theorem nestedRectify_error_iff {β : Type} {inner : RowType β} {ext : Ext}
    (hsome : ext.columns ≠ [])
    (hends : ∀ k, (inner.deserializeRow (rowAt ext.columns k)).Terminates)
    (hfaults : ∀ k e, (inner.deserializeRow (rowAt ext.columns k)).Returns (.error e) ↔
      inner.Faults (rowAt ext.columns k) e) (e : Fault ColumnError) :
    ((nestedRectify inner.deserializeRow ext.columns).Returns (.error e) ↔
      ∃ k < ext.len, (∀ j < k, ∀ e', ¬ inner.Faults (rowAt ext.columns j) e') ∧
        inner.Faults (rowAt ext.columns k) e) ∧
    ((∃ rows, (nestedRectify inner.deserializeRow ext.columns).Returns (.ok rows)) ↔
      ∀ k < ext.len, ∀ e', ¬ inner.Faults (rowAt ext.columns k) e') := by
  have hok : ∀ k, (∃ x, (inner.deserializeRow (rowAt ext.columns k)).Returns (.ok x)) ↔
      ∀ e', ¬ inner.Faults (rowAt ext.columns k) e' := by
    intro k
    simp only [← hfaults]
    constructor
    · rintro ⟨x, hx⟩ e' he'
      cases hx.unique he'
    · intro hnone
      obtain ⟨e' | x, hr⟩ := hends k
      · exact absurd hr (hnone e')
      · exact ⟨x, hr⟩
  simp only [nestedRectify_returns hsome, Ext.rows, Bounded.returns_traverse_range_error,
    Bounded.exists_traverse_ok, hok, hfaults, List.forall_mem_map, List.mem_range, and_self]

mutual

/-- **A struct is not decoded exactly where its columns have a fault**, and returns the first
one. -/
theorem RowType.WellNamed.returns_error_iff {α : Type} {row : RowType α} (h : row.WellNamed)
    {map own others : List RawColumn} (hmap : map.Perm (own ++ others))
    (hown : own.map RawColumn.name = row.names) {e : Fault ColumnError} :
    (row.deserializeRow map).Returns (.error e) ↔ row.Faults map e :=
  match h with
  | @RowType.WellNamed.derived _ _ fields h => by
      obtain ⟨strangers, htaken⟩ := fields.exists_takesOwn hmap
      have hallows : fields.AllowsUnknown false 0 map := fun h => by simp at h
      rw [RowType.deserializeRow, h.pullFlatten, RowType.Faults]
      -- The passes of the generated code, one behind the other: sizes, columns, rows, values.
      constructor
      · intro hr
        rcases Bounded.returns_bind.mp hr with ⟨_, hsizes, hr⟩ | ⟨_, hsizes, he⟩
        · refine .inr ⟨(Bounded.returns_ofOutcome.mp hsizes).symm, ?_⟩
          rcases Bounded.returns_bind.mp hr with ⟨pulled, hpulled, hr⟩ | ⟨_, hpulled, -⟩
          · cases Bounded.returns_ofOutcome.mp hpulled
            rcases Bounded.returns_bind.mp hr with ⟨slots, hslots, hr⟩ | ⟨_, hslots, he⟩
            · have hslots := (Bounded.returns_ofOutcome.mp hslots).symm
              obtain ⟨-, htakes⟩ := Fields.matchKeys_eq_ok.mp hslots
              refine .inr ⟨fields.exists_takes_iff.mp ⟨slots, htakes⟩, ?_⟩
              rw [← h.rectify_error_iff htaken hown htakes]
              rcases Bounded.returns_bind.mp hr with ⟨filled, hfilled, hr⟩ | ⟨_, hfilled, he⟩
              · -- Behind the rows nothing fails.
                obtain ⟨values, hvalues⟩ := h.exists_extract htaken hown htakes hfilled
                rcases Bounded.returns_bind.mp hr with ⟨values', -, hr⟩ | ⟨_, hfails, -⟩
                · obtain ⟨built, hbuilt⟩ := h.exists_build values' []
                  cases (Bounded.returns_bind_pure_error.mp hr).unique hbuilt
                · rw [hvalues] at hfails
                  cases Bounded.returns_ofOutcome.mp hfails
              · cases he
                exact hfilled
            · cases he
              exact .inl (Fields.matchKeys_fails_iff.mp (Bounded.returns_ofOutcome.mp hslots).symm)
          · -- Without flattened fields nothing is pulled out.
            cases Bounded.returns_ofOutcome.mp hpulled
        · cases he
          exact .inl (Bounded.returns_ofOutcome.mp hsizes).symm
      · rintro (hsizes | ⟨hsizes, hfault⟩)
        · exact Bounded.returns_bind.mpr
            (.inr ⟨e, Bounded.returns_ofOutcome.mpr hsizes.symm, rfl⟩)
        · refine Bounded.returns_bind.mpr
            (.inl ⟨(), Bounded.returns_ofOutcome.mpr hsizes.symm, ?_⟩)
          refine Bounded.returns_bind.mpr
            (.inl ⟨([], map), Bounded.returns_ofOutcome.mpr rfl, Bounded.returns_bind.mpr ?_⟩)
          rcases hfault with hrefuses | ⟨haccepts, hrow⟩
          · exact .inr ⟨e, Bounded.returns_ofOutcome.mpr
              (Fields.matchKeys_fails_iff.mpr hrefuses).symm, rfl⟩
          · obtain ⟨slots, htakes⟩ := fields.exists_takes_iff.mpr haccepts
            have hslots := Fields.matchKeys_eq_ok.mpr ⟨hallows, htakes⟩
            refine .inl ⟨slots, Bounded.returns_ofOutcome.mpr hslots.symm, ?_⟩
            exact Bounded.returns_bind.mpr
              (.inr ⟨e, (h.rectify_error_iff htaken hown htakes).mpr hrow, rfl⟩)

theorem Fields.WellNamed.rectify_error_iff : ∀ {α : Type} {fields : Fields α}
    (_ : fields.WellNamed) {own : List RawColumn} {strangers taken : Nat → List (Arm × RawColumn)}
    (_ : fields.TakesOwn own strangers taken) (_ : own.map RawColumn.name = fields.names)
    {slots : fields.Slots} (_ : fields.Takes taken fields.noSlots slots) {e : Fault ColumnError},
    (fields.rectify slots).Returns (.error e) ↔ fields.FaultyRow taken e
  | _, _, .nil, _, _, _, _, _, _, _, e =>
      iff_of_false (fun hr => by cases Bounded.returns_pure.mp hr) not_false
  | _, _, .plain hname h, _, _, _, htaken, hown, slots, htakes, e => by
      obtain ⟨c, own, rfl, -, hrest, hown⟩ := htaken.exists_plain hown hname
      exact Bounded.returns_bind_pure_error.trans (h.rectify_error_iff hrest hown htakes.2)
  | _, _, @Fields.WellNamed.nested _ _ name inner _ rest hsome hinner hname h, _, _, taken, htaken,
      hown, slots, htakes, e => by
      obtain ⟨group, own, rfl, hlen, hgroup, hfirst, hrest, hown⟩ :=
        htaken.exists_nested hown hname
      obtain ⟨pushed, hpushed, hcolumns⟩ := foldNested_eq_ok htakes.1
      obtain rfl : slots.1.columns = pushed := hcolumns
      obtain ⟨mine, others, hperm, hmine⟩ := exists_pushed_own hfirst hpushed
      -- A row of the group is the row of the inner struct, in some order and with strangers, so
      -- the other half of the induction is about it.
      have hgroupSome : 0 < slots.1.columns.length := by
        rw [hperm.length_eq, List.length_append, ← hmine.length_eq, List.length_map, hlen]
        exact Nat.add_pos_left (List.length_pos_iff.mpr hsome) _
      have hcolumnsSome := List.length_pos_iff.mp hgroupSome
      have hrows := nestedRectify_error_iff hcolumnsSome
        (fun k => (inner.terminates_iff _).mpr
          (hinner.not_starves (rowAt_perm hperm k) (rowAt_names hgroup hmine k)))
        (fun k e => hinner.returns_error_iff (rowAt_perm hperm k) (rowAt_names hgroup hmine k)) e
      rw [Fields.FaultyRow, ← h.rectify_error_iff hrest hown htakes.2]
      have hpair : (Fields.rectify (.nested name inner _ rest) slots).Returns (.error e) ↔
          (nestedRectify inner.deserializeRow slots.1.columns).Returns (.error e) ∨
            (∃ rows, (nestedRectify inner.deserializeRow slots.1.columns).Returns (.ok rows)) ∧
              (rest.rectify slots.2).Returns (.error e) := Bounded.returns_pair_error
      rw [hpair, hrows.1, hrows.2]
      constructor
      · exact fun hr => ⟨slots.1.columns, slots.1.len, hpushed, slots.1.uniform, hr⟩
      · rintro ⟨pushed, n, hpushed', hlength, hr⟩
        have hunique : Relator.RightUnique (Pushes name) := fun _ _ _ => Pushes.unique
        obtain rfl : pushed = slots.1.columns :=
          List.right_unique_forall₂' hunique hpushed' hpushed
        obtain ⟨c, hc⟩ := List.exists_mem_of_ne_nil _ hcolumnsSome
        obtain rfl : n = slots.1.len := (hlength c hc).symm.trans (slots.1.uniform c hc)
        exact hr

end

/-! ## Names only -/

/-- Both computations end with the same result, be it a value, an error or a panic. -/
structure SameResult {α : Type} (c c' : Bounded ColumnError α) : Prop where
  terminates : c.Terminates
  terminates' : c'.Terminates
  returns : ∀ r, c.Returns r ↔ c'.Returns r

theorem SameResult.of_returns {α : Type} {c c' : Bounded ColumnError α} {r : ColumnResult α}
    (h : c.Returns r) (h' : c'.Returns r) : SameResult c c' :=
  ⟨⟨r, h⟩, ⟨r, h'⟩, fun _ => ⟨fun hr => h.unique hr ▸ h', fun hr => h'.unique hr ▸ h⟩⟩

/-- **A struct is decoded from any columns that have its own among them as from its own alone**
exactly where these make a struct and no stranger does harm, or where both have the same first
fault. -/
theorem sameResult_iff {α : Type} (into : Bool) {fields : Fields α} (hfields : fields.WellNamed)
    {map own others : List RawColumn} (hown : own.map RawColumn.name = fields.names)
    (hmap : map.Perm (own ++ others)) :
    SameResult ((RowType.derived into false fields).deserializeRow map)
        ((RowType.derived into false fields).deserializeRow own) ↔
      (∃ x, (RowType.derived into false fields).Decodes own x) ∧
          (RowType.derived into false fields).Harmless map ∨
        ∃ e, (RowType.derived into false fields).Faults map e ∧
          (RowType.derived into false fields).Faults own e := by
  have hrow : (RowType.derived into false fields).WellNamed := .derived hfields
  have halone : own.Perm (own ++ []) := by rw [List.append_nil]
  constructor
  · intro hsame
    obtain ⟨e | x, hr⟩ := hsame.terminates'
    · have hmapFails := (hsame.returns _).mpr hr
      exact .inr ⟨e, (hrow.returns_error_iff hmap hown).mp hmapFails,
        (hrow.returns_error_iff halone hown).mp hr⟩
    · obtain ⟨-, hdecodes⟩ := (hrow.returns_iff halone hown).mp hr
      obtain ⟨hharmless, -⟩ := (hrow.returns_iff hmap hown).mp ((hsame.returns _).mpr hr)
      exact .inl ⟨⟨x, hdecodes⟩, hharmless⟩
  · rintro (⟨⟨x, hdecodes⟩, hharmless⟩ | ⟨e, hmapFaults, hownFaults⟩)
    · have hownHarmless := hrow.harmless (.refl own) hown hdecodes
      exact .of_returns ((hrow.returns_iff hmap hown).mpr ⟨hharmless, hdecodes⟩)
        ((hrow.returns_iff halone hown).mpr ⟨hownHarmless, hdecodes⟩)
    · exact .of_returns ((hrow.returns_error_iff hmap hown).mpr hmapFaults)
        ((hrow.returns_error_iff halone hown).mpr hownFaults)

theorem sampleFields_wellNamed : sampleFields.WellNamed :=
  .plain (by decide) (.nested (by decide) (.derived (.plain (by decide) .nil)) nofun .nil)

/-- The columns of the sample struct. -/
def sampleOwn (id : RawColumn) : List RawColumn :=
  [id, ⟨"n.x", .array .uint8, .array [.uint8 1, .uint8 2]⟩]

/-- In another order, and with a stranger behind them, they make the same struct, or the same
error where one of them has another type. -/
theorem sameResult_iff_behind :
    SameResult ((RowType.derived false false sampleFields).deserializeRow
        [⟨"n.x", .array .uint8, .array [.uint8 1, .uint8 2]⟩, ⟨"id", .uint8, .uint8 7⟩,
          ⟨"z", .uint8, .uint8 9⟩])
      ((RowType.derived false false sampleFields).deserializeRow
        (sampleOwn ⟨"id", .uint8, .uint8 7⟩)) ∧
    SameResult ((RowType.derived false false sampleFields).deserializeRow
        [⟨"n.x", .array .uint8, .array [.uint8 1, .uint8 2]⟩, ⟨"id", .string, .string [55]⟩,
          ⟨"z", .uint8, .uint8 9⟩])
      ((RowType.derived false false sampleFields).deserializeRow
        (sampleOwn ⟨"id", .string, .string [55]⟩)) := by
  have hmap : ∀ id : RawColumn, [⟨"n.x", .array .uint8, .array [.uint8 1, .uint8 2]⟩, id,
      ⟨"z", .uint8, .uint8 9⟩].Perm (sampleOwn id ++ [⟨"z", .uint8, .uint8 9⟩]) :=
    fun _ => .swap _ _ _
  have hx : ∀ e ∈ [("x", ChType.uint8, [Value.uint8 1, .uint8 2])], e.2.2.length = 2 := by simp
  constructor
  · refine (sameResult_iff false sampleFields_wellNamed rfl (hmap _)).mpr
      (.inl ⟨⟨(7, [(1, ()), (2, ())], ()), rfl, ?_⟩, rfl, ?_, trivial⟩)
    · refine ⟨_, _, rfl, rfl, [⟨"n.x", .array .uint8, .array [.uint8 1, .uint8 2]⟩], [], rfl, rfl,
        ⟨_, .cons ⟨rfl, rfl, rfl⟩ .nil, hx, ?_⟩, rfl⟩
      intro k y hy
      obtain ⟨rfl, rfl⟩ | ⟨rfl, rfl⟩ : k = 0 ∧ y = (1, ()) ∨ k = 1 ∧ y = (2, ()) := by
        rcases k with _ | _ | k
        · exact .inl ⟨rfl, (Option.some.inj hy).symm⟩
        · exact .inr ⟨rfl, (Option.some.inj hy).symm⟩
        · simp at hy
      · exact ⟨rfl, _, [], rfl, rfl, rfl⟩
      · exact ⟨rfl, _, [], rfl, rfl, rfl⟩
    · exact ⟨_, 2, .cons ⟨rfl, rfl, rfl⟩ .nil, hx, fun _ _ => ⟨rfl, trivial⟩⟩
  · refine (sameResult_iff false sampleFields_wellNamed rfl (hmap _)).mpr
      (.inr ⟨.error (.deserializeErrorWithColumn "id" [.text "unexpected type: ", .type .string]),
        ?_, ?_⟩)
    · refine .inr ⟨rfl, .inl ⟨[_], _, [_], 0, .name, rfl, ?_, rfl, .rejected rfl rfl⟩⟩
      exact ⟨.inl rfl, ⟨_, 2, .cons ⟨rfl, rfl, rfl⟩ .nil, hx⟩, trivial⟩
    · refine .inr ⟨rfl, .inl ⟨[], _, [_], 0, .name, rfl, ?_, rfl, .rejected rfl rfl⟩⟩
      exact ⟨.inl rfl, ⟨[], 0, .nil, List.forall_mem_nil _⟩, trivial⟩

/-- A stranger in front of them is taken for the first field, which is then reported twice. -/
theorem not_sameResult_front :
    ¬ SameResult ((RowType.derived false false sampleFields).deserializeRow
        (⟨"z", .uint8, .uint8 9⟩ :: sampleOwn ⟨"id", .uint8, .uint8 7⟩))
      ((RowType.derived false false sampleFields).deserializeRow
        (sampleOwn ⟨"id", .uint8, .uint8 7⟩)) := by
  intro h
  have hown : ((RowType.derived false false sampleFields).deserializeRow
      (sampleOwn ⟨"id", .uint8, .uint8 7⟩)).Returns (.ok (7, [(1, ()), (2, ())], ())) := ⟨3, rfl⟩
  have hduplicate : ((RowType.derived false false sampleFields).deserializeRow
      (⟨"z", .uint8, .uint8 9⟩ :: sampleOwn ⟨"id", .uint8, .uint8 7⟩)).Returns
        (.fail (.duplicateField "id")) := ⟨1, rfl⟩
  cases hduplicate.unique ((h.returns _).mpr hown)

end Derive

end ClickhouseArrow
