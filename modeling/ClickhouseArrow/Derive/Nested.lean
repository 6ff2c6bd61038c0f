import ClickhouseArrow.Derive.Routing

/-!
# Rows of nested fields

The loop of a nested field ends with an iterator that is exhausted.  A field that has taken a
column has iterators of one length, and makes that many rows.  A field that has taken no column
has no iterator: its loop ends with an error of the row type, or not at all.  So the decoding of
a struct ends unless it comes to such a field with a row type that makes a row of no columns, and
when it succeeds a nested field is as long as the arrays it has taken.
-/

namespace ClickhouseArrow

open Wire

namespace Derive

/-! ## The rows -/

/-- The row at a position of the columns. -/
def rowAt (columns : List (String × ChType × List Value)) (k : Nat) : List RawColumn :=
  columns.map fun c => ⟨c.1, c.2.1, c.2.2.getD k .null⟩

/-- The rows of a nested field that has taken a column. -/
def Ext.rows (ext : Ext) : List (List RawColumn) := (List.range ext.len).map (rowAt ext.columns)

/-- The columns behind their first values. -/
def tails (columns : List (String × ChType × List Value)) :
    List (String × ChType × List Value) :=
  columns.map fun c => (c.1, c.2.1, c.2.2.tail)

theorem rowAt_tails (columns : List (String × ChType × List Value)) (k : Nat) :
    rowAt (tails columns) k = rowAt columns (k + 1) := by
  simp [rowAt, tails, Function.comp_def, List.getD_eq_getElem?_getD]

theorem nextRow_of_length {columns : List (String × ChType × List Value)} {n : Nat}
    (h : ∀ c ∈ columns, c.2.2.length = n + 1) :
    nextRow columns = some (rowAt columns 0, tails columns) := by
  induction columns with
  | nil => rfl
  | cons c columns ih =>
    obtain ⟨name, type, values⟩ := c
    obtain ⟨x, xs, rfl⟩ := List.exists_cons_of_length_eq_add_one (h _ List.mem_cons_self)
    rw [nextRow, ih fun c hc => h c (List.mem_cons_of_mem _ hc)]
    rfl

theorem nextRow_of_exhausted {columns : List (String × ChType × List Value)}
    (hsome : columns ≠ []) (h : ∀ c ∈ columns, c.2.2.length = 0) : nextRow columns = none := by
  obtain ⟨⟨name, type, values⟩, columns, rfl⟩ := List.exists_cons_of_ne_nil hsome
  have hempty : values = [] := List.eq_nil_of_length_eq_zero (h _ List.mem_cons_self)
  rw [hempty, nextRow]

section Rectify

variable {β : Type} {deserializeRow : List RawColumn → Bounded ColumnError β}

/-- With iterators of one length the loop makes as many rows. -/
theorem rectifyTurn_returns {columns : List (String × ChType × List Value)}
    (hsome : columns ≠ []) {n : Nat} (h : ∀ c ∈ columns, c.2.2.length = n) (out : List β)
    {r : ColumnResult (List β)} :
    (Bounded.loop (rectifyTurn deserializeRow) (columns, out)).Returns r ↔
      (do
        let xs ← Bounded.traverse deserializeRow ((List.range n).map (rowAt columns))
        pure (out ++ xs)).Returns r := by
  induction n generalizing columns out with
  | zero =>
    rw [Bounded.returns_loop, rectifyTurn, nextRow_of_exhausted hsome h]
    simp [Bounded.traverse]
  | succ n ih =>
    -- Every iterator has a value for this row, and one less for the rows that follow.
    have htails : ∀ c ∈ tails columns, c.2.2.length = n := by
      intro c hc
      obtain ⟨c', hc', rfl⟩ := List.mem_map.mp hc
      simp [h c' hc']
    have hsome' : tails columns ≠ [] := by simpa [tails] using hsome
    rw [Bounded.returns_loop, rectifyTurn, nextRow_of_length h, List.range_succ_eq_map]
    simp only [bind_assoc, pure_bind, Sum.elim_inl, List.map_cons, List.map_map, Bounded.traverse]
    rw [Bounded.returns_bind, Bounded.returns_bind]
    simp only [ih hsome' htails]
    have hrows : (List.range n).map (rowAt columns ∘ Nat.succ) =
        (List.range n).map (rowAt (tails columns)) := by
      simp [rowAt_tails]
    simp only [hrows, List.append_assoc, List.singleton_append]

/-- A field that has taken a column decodes one row after the other. -/
theorem nestedRectify_returns {ext : Ext} (hsome : ext.columns ≠ []) {r : ColumnResult (List β)} :
    (nestedRectify deserializeRow ext.columns).Returns r ↔
      (Bounded.traverse deserializeRow ext.rows).Returns r := by
  rw [nestedRectify, rectifyTurn_returns hsome ext.uniform]
  simp only [List.nil_append, bind_pure]
  rfl

/-- A row that is made of no columns keeps the loop of a field without columns going. -/
theorem nestedRectify_not_terminates {x : β} (h : (deserializeRow []).Returns (.ok x)) :
    ¬ (nestedRectify deserializeRow []).Terminates := by
  apply Bounded.loop_not_terminates (P := fun state => state.1 = []) _ rfl
  rintro ⟨_, out⟩ rfl
  exact ⟨([], out ++ [x]), Bounded.returns_bind_ok.mpr ⟨x, h, Bounded.returns_pure.mpr rfl⟩, rfl⟩

/-- Without columns the loop ends with an error of the row type only. -/
theorem nestedRectify_nil_returns {r : ColumnResult (List β)} :
    (nestedRectify deserializeRow []).Returns r ↔
      ∃ e, (deserializeRow []).Returns (.error e) ∧ r = .error e := by
  have hturn : rectifyTurn deserializeRow ([], []) = (do
      let x ← deserializeRow []
      pure (.inl ([], [x]))) := rfl
  constructor
  · intro hr
    have hloop := hr
    rw [nestedRectify, Bounded.returns_loop, hturn, bind_assoc] at hloop
    rcases Bounded.returns_bind.mp hloop with ⟨x, hx, -⟩ | he
    · -- A loop that has made its first row never ends.
      exact absurd ⟨r, hr⟩ (nestedRectify_not_terminates hx)
    · exact he
  · rintro ⟨e, he, rfl⟩
    rw [nestedRectify, Bounded.returns_loop, hturn, bind_assoc]
    exact Bounded.returns_bind.mpr (.inr ⟨e, he, rfl⟩)

end Rectify

/-! ## When the loop does not end -/

mutual

/-- The decoding comes to a nested field that has taken no column, and whose row type makes a
row of no columns. -/
def RowType.Starves : {α : Type} → RowType α → List RawColumn → Prop
  | _, .derived _ deny fields, map =>
      ∃ pulled slots, fields.knownSizes = .ok () ∧ fields.pullFlatten [] map = .ok pulled ∧
        fields.matchKeys deny 0 pulled.2 fields.noSlots = .ok slots ∧
        (fields.RectifyStarves slots ∨ ∃ filled values, (fields.rectify slots).Returns (.ok filled) ∧
          fields.extract filled = .ok values ∧ fields.BuildStarves pulled.1)
  | _, .converted _ _ source _, map => source.Starves map
  | _, .custom _ _ _, _ => False

/-- The same for the loops of the nested fields, which are run in their order. -/
def Fields.RectifyStarves : {α : Type} → (fields : Fields α) → fields.Slots → Prop
  | _, .nil, _ => False
  | _, .plain _ _ _ _ _ rest, slots => rest.RectifyStarves slots.2
  | _, .nested _ inner _ rest, slots =>
      (slots.1.columns = [] ∧
        ((∃ x, (inner.deserializeRow []).Returns (.ok x)) ∨ inner.Starves [])) ∨
      (slots.1.columns ≠ [] ∧ ∃ before row after, slots.1.rows = before ++ row :: after ∧
        (∀ b ∈ before, ∃ x, (inner.deserializeRow b).Returns (.ok x)) ∧ inner.Starves row) ∨
      ((∃ rows, (nestedRectify inner.deserializeRow slots.1.columns).Returns (.ok rows)) ∧
        rest.RectifyStarves slots.2)
  | _, .flatten _ _ rest, slots => rest.RectifyStarves slots
  | _, .skipped _ _ _ rest, slots => rest.RectifyStarves slots

/-- The same for the flattened fields. -/
def Fields.BuildStarves : {α : Type} → Fields α → Flat → Prop
  | _, .nil, _ => False
  | _, .plain _ _ _ _ _ rest, flat => rest.BuildStarves flat
  | _, .nested _ _ _ rest, flat => rest.BuildStarves flat
  | _, .flatten _ inner rest, flat =>
      ∃ map2, removeEntries (inner.columnNames.getD []) flat = .ok map2 ∧
        (inner.Starves map2.1 ∨
          (∃ x, (inner.deserializeRow map2.1).Returns (.ok x)) ∧ rest.BuildStarves map2.2)
  | _, .skipped _ _ _ rest, flat => rest.BuildStarves flat

end

theorem not_or_or_and {p q r s : Prop} : (¬ (p ∨ q) ∧ (r → ¬ s)) ↔ ¬ (p ∨ q ∨ r ∧ s) := by
  tauto

theorem not_or_and {p r s : Prop} : (¬ p ∧ (r → ¬ s)) ↔ ¬ (p ∨ r ∧ s) := by
  tauto

theorem nestedRectify_terminates_iff {β : Type} {inner : RowType β}
    (hinner : ∀ map, (inner.deserializeRow map).Terminates ↔ ¬ inner.Starves map) (ext : Ext) :
    (nestedRectify inner.deserializeRow ext.columns).Terminates ↔
      ¬ ((ext.columns = [] ∧
          ((∃ x, (inner.deserializeRow []).Returns (.ok x)) ∨ inner.Starves [])) ∨
        (ext.columns ≠ [] ∧ ∃ before row after, ext.rows = before ++ row :: after ∧
          (∀ b ∈ before, ∃ x, (inner.deserializeRow b).Returns (.ok x)) ∧ inner.Starves row)) := by
  by_cases hsome : ext.columns = []
  · have hends : (nestedRectify inner.deserializeRow []).Terminates ↔
        ∃ e, (inner.deserializeRow []).Returns (.error e) := by
      simp only [Bounded.Terminates, nestedRectify_nil_returns]
      constructor
      · rintro ⟨_, e, he, -⟩
        exact ⟨e, he⟩
      · rintro ⟨e, he⟩
        exact ⟨_, e, he, rfl⟩
    rw [hsome, hends]
    simp only [ne_eq, not_true_eq_false, false_and, or_false, true_and, not_or, ← hinner]
    constructor
    · rintro ⟨e, he⟩
      refine ⟨?_, _, he⟩
      rintro ⟨x, hx⟩
      cases he.unique hx
    · rintro ⟨hnone, e | x, hr⟩
      · exact ⟨e, hr⟩
      · exact absurd ⟨x, hr⟩ hnone
  · have hreturns : (nestedRectify inner.deserializeRow ext.columns).Terminates ↔
        (Bounded.traverse inner.deserializeRow ext.rows).Terminates :=
      exists_congr fun r => nestedRectify_returns hsome
    rw [hreturns, Bounded.terminates_traverse]
    simp only [hsome, false_and, false_or, ne_eq, not_false_eq_true, true_and, hinner]
    push Not
    rfl

mutual

/-- The decoding ends unless it comes to a nested field that starves. -/
theorem RowType.terminates_iff : ∀ {α : Type} (row : RowType α) (map : List RawColumn),
    (row.deserializeRow map).Terminates ↔ ¬ row.Starves map
  | _, .derived _ deny fields, map => by
      rw [RowType.deserializeRow, Bounded.terminates_ofOutcome_bind, RowType.Starves]
      constructor
      · rintro h ⟨pulled, slots, hsizes, hpulled, hslots, hstarves⟩
        have hrest := h () hsizes
        rw [Bounded.terminates_ofOutcome_bind] at hrest
        have hrest := hrest pulled hpulled
        rw [Bounded.terminates_ofOutcome_bind] at hrest
        obtain ⟨hrectify, hrest⟩ := Bounded.terminates_bind.mp (hrest slots hslots)
        rcases hstarves with hstarves | ⟨filled, values, hfilled, hvalues, hstarves⟩
        · exact (fields.rectify_terminates_iff slots).mp hrectify hstarves
        · have hbuild := Bounded.terminates_ofOutcome_bind.mp (hrest filled hfilled) values hvalues
          exact (fields.build_terminates_iff values pulled.1).mp
            (Bounded.terminates_bind_pure.mp hbuild) hstarves
      · intro h _ hsizes
        rw [Bounded.terminates_ofOutcome_bind]
        intro pulled hpulled
        rw [Bounded.terminates_ofOutcome_bind]
        intro slots hslots
        refine Bounded.terminates_bind.mpr ⟨?_, fun filled hfilled => ?_⟩
        · exact (fields.rectify_terminates_iff slots).mpr fun hstarves =>
            h ⟨pulled, slots, hsizes, hpulled, hslots, .inl hstarves⟩
        · rw [Bounded.terminates_ofOutcome_bind]
          intro values hvalues
          exact Bounded.terminates_bind_pure.mpr
            ((fields.build_terminates_iff values pulled.1).mpr fun hstarves =>
              h ⟨pulled, slots, hsizes, hpulled, hslots, .inr ⟨filled, values, hfilled, hvalues, hstarves⟩⟩)
  | _, .converted _ _ source convert, map => by
      rw [RowType.deserializeRow, Bounded.terminates_bind, source.terminates_iff map,
        RowType.Starves]
      exact and_iff_left fun v _ => Bounded.terminates_ofOutcome _
  | _, .custom _ _ _, _ => iff_of_true (Bounded.terminates_ofOutcome _) not_false

theorem Fields.rectify_terminates_iff : ∀ {α : Type} (fields : Fields α) (slots : fields.Slots),
    (fields.rectify slots).Terminates ↔ ¬ fields.RectifyStarves slots
  | _, .nil, _ => iff_of_true (Bounded.terminates_pure _) not_false
  | _, .plain _ _ _ _ _ rest, slots =>
      Bounded.terminates_bind_pure.trans (rest.rectify_terminates_iff slots.2)
  | _, .nested _ inner _ rest, slots => by
      have hloop := nestedRectify_terminates_iff inner.terminates_iff slots.1
      have hrest := rest.rectify_terminates_iff slots.2
      exact Bounded.terminates_pair.trans
        ((and_congr hloop (imp_congr_right fun _ => hrest)).trans not_or_or_and)
  | _, .flatten _ _ rest, slots => rest.rectify_terminates_iff slots
  | _, .skipped _ _ _ rest, slots => rest.rectify_terminates_iff slots

theorem Fields.build_terminates_iff : ∀ {α : Type} (fields : Fields α)
    (values : fields.Extracted) (flat : Flat),
    (fields.build values flat).Terminates ↔ ¬ fields.BuildStarves flat
  | _, .nil, _, _ => iff_of_true (Bounded.terminates_pure _) not_false
  | _, .plain _ _ _ _ _ rest, values, flat =>
      Bounded.terminates_bind_pure.trans (rest.build_terminates_iff values.2 flat)
  | _, .nested _ _ _ rest, values, flat =>
      Bounded.terminates_bind_pure.trans (rest.build_terminates_iff values.2 flat)
  | _, .flatten _ inner rest, values, flat => by
      rw [Fields.build, Bounded.terminates_ofOutcome_bind, Fields.BuildStarves]
      simp only [not_exists, not_and]
      refine forall_congr' fun map2 => imp_congr_right fun _ => Bounded.terminates_pair.trans ?_
      exact (and_congr (inner.terminates_iff map2.1)
        (imp_congr_right fun _ => rest.build_terminates_iff values map2.2)).trans not_or_and
  | _, .skipped _ _ _ rest, values, flat =>
      Bounded.terminates_bind_pure.trans (rest.build_terminates_iff values flat)

end

/-! ## Row types that need a column -/

mutual

/-- Every row type of a nested field answers the empty list of columns with an error. -/
def RowType.NeedsColumns : {α : Type} → RowType α → Prop
  | _, .derived _ _ fields => fields.NeedColumns
  | _, .converted _ _ source _ => source.NeedsColumns
  | _, .custom _ _ _ => True

def Fields.NeedColumns : {α : Type} → Fields α → Prop
  | _, .nil => True
  | _, .plain _ _ _ _ _ rest => rest.NeedColumns
  | _, .nested _ inner _ rest =>
      (∃ e, (inner.deserializeRow []).Returns (.error e)) ∧ inner.NeedsColumns ∧ rest.NeedColumns
  | _, .flatten _ inner rest => inner.NeedsColumns ∧ rest.NeedColumns
  | _, .skipped _ _ _ rest => rest.NeedColumns

end

mutual

/-- Such a struct never starves, whatever columns it is given. -/
theorem RowType.not_starves : ∀ {α : Type} {row : RowType α} (_ : row.NeedsColumns)
    (map : List RawColumn), ¬ row.Starves map
  | _, .derived _ _ fields, hneeds, map => by
      rintro ⟨pulled, slots, -, -, -, hstarves | ⟨filled, values, -, -, hstarves⟩⟩
      · exact fields.not_rectifyStarves hneeds slots hstarves
      · exact fields.not_buildStarves hneeds pulled.1 hstarves
  | _, .converted _ _ source _, hneeds, map => source.not_starves hneeds map
  | _, .custom _ _ _, _, _ => not_false

theorem Fields.not_rectifyStarves : ∀ {α : Type} (fields : Fields α) (_ : fields.NeedColumns)
    (slots : fields.Slots), ¬ fields.RectifyStarves slots
  | _, .nil, _, _ => not_false
  | _, .plain _ _ _ _ _ rest, hneeds, slots => rest.not_rectifyStarves hneeds slots.2
  | _, .nested _ inner _ rest, hneeds, slots => by
      obtain ⟨⟨e, he⟩, hinner, hrest⟩ := hneeds
      rintro (⟨-, ⟨x, hx⟩ | hstarves⟩ | ⟨-, _, row, _, -, -, hstarves⟩ | ⟨-, hstarves⟩)
      · cases he.unique hx
      · exact inner.not_starves hinner [] hstarves
      · exact inner.not_starves hinner row hstarves
      · exact rest.not_rectifyStarves hrest slots.2 hstarves
  | _, .flatten _ _ rest, hneeds, slots => rest.not_rectifyStarves hneeds.2 slots
  | _, .skipped _ _ _ rest, hneeds, slots => rest.not_rectifyStarves hneeds slots

theorem Fields.not_buildStarves : ∀ {α : Type} (fields : Fields α) (_ : fields.NeedColumns)
    (flat : Flat), ¬ fields.BuildStarves flat
  | _, .nil, _, _ => not_false
  | _, .plain _ _ _ _ _ rest, hneeds, flat => rest.not_buildStarves hneeds flat
  | _, .nested _ _ _ rest, hneeds, flat => rest.not_buildStarves hneeds.2.2 flat
  | _, .flatten _ inner rest, hneeds, flat => by
      rintro ⟨map2, -, hstarves | ⟨-, hstarves⟩⟩
      · exact inner.not_starves hneeds.1 map2.1 hstarves
      · exact rest.not_buildStarves hneeds.2 map2.2 hstarves
  | _, .skipped _ _ _ rest, hneeds, flat => rest.not_buildStarves hneeds flat

end

/-! ## Lengths -/

/-- The length of the nested field at a place of a struct. -/
def Fields.lengths : {α : Type} → Fields α → α → Nat → Option Nat
  | _, .nil, _, _ => none
  | _, .nested _ _ _ _, x, 0 => some x.1.length
  | _, .plain _ _ _ _ _ _, _, 0 => none
  | _, .flatten _ _ _, _, 0 => none
  | _, .skipped _ _ _ _, _, 0 => none
  | _, .plain _ _ _ _ _ rest, x, place + 1 => rest.lengths x.2 place
  | _, .nested _ _ _ rest, x, place + 1 => rest.lengths x.2 place
  | _, .flatten _ _ rest, x, place + 1 => rest.lengths x.2 place
  | _, .skipped _ _ _ rest, x, place + 1 => rest.lengths x.2 place

/-- A column whose array has this length. -/
def HasLength (n : Nat) (column : RawColumn) : Prop :=
  ∃ items, column.value = .array items ∧ items.length = n

theorem exists_of_mem {α β : Type} {R : α → β → Prop} {as : List α} {bs : List β}
    (h : List.Forall₂ R as bs) {a : α} (ha : a ∈ as) : ∃ b ∈ bs, R a b := by
  induction h with
  | nil => cases ha
  | @cons a' b as bs hab _ ih =>
    rcases List.mem_cons.mp ha with rfl | ha
    · exact ⟨b, List.mem_cons_self, hab⟩
    · obtain ⟨b, hb, hab⟩ := ih ha
      exact ⟨b, List.mem_cons_of_mem _ hb, hab⟩

/-- The arrays that a nested field has taken are all of the length that it keeps. -/
theorem foldNested_length {name : String} {taken : List (Arm × RawColumn)} {ext : Ext}
    (h : foldNested name Ext.none taken = .ok ext) {c : Arm × RawColumn} (hc : c ∈ taken) :
    ext.columns ≠ [] ∧ HasLength ext.len c.2 := by
  obtain ⟨pushed, hpushed, hcolumns⟩ := foldNested_eq_ok h
  obtain ⟨e, he, hce⟩ := exists_of_mem hpushed hc
  have hmem : e ∈ ext.columns := by
    rw [hcolumns]
    exact List.mem_append_right _ he
  exact ⟨List.ne_nil_of_mem hmem, e.2.2, hce.value, ext.uniform e hmem⟩

theorem nestedRectify_length {β : Type} {deserializeRow : List RawColumn → Bounded ColumnError β}
    {ext : Ext} (hsome : ext.columns ≠ []) {rows : List β}
    (h : (nestedRectify deserializeRow ext.columns).Returns (.ok rows)) :
    rows.length = ext.len := by
  have hrows := Bounded.returns_traverse_ok.mp ((nestedRectify_returns hsome).mp h)
  rw [← hrows.length_eq, Ext.rows, List.length_map, List.length_range]

theorem Fields.Makes.hasLength : ∀ {α : Type} {fields : Fields α}
    {taken : Nat → List (Arm × RawColumn)} {flat flat' : Flat} {x : α}
    (_ : fields.Makes taken flat x flat') {place n : Nat} (_ : fields.lengths x place = some n)
    {c : Arm × RawColumn} (_ : c ∈ taken place), HasLength n c.2
  | _, .nested _ _ _ _, _, _, _, _, h, 0, n, hn, c, hc => by
      obtain ⟨⟨ext, hext, hrows⟩, -⟩ := h
      obtain ⟨hsome, hlen⟩ := foldNested_length hext hc
      cases hn
      rwa [nestedRectify_length hsome hrows]
  | _, .plain _ _ _ _ _ _, _, _, _, _, h, _ + 1, _, hn, _, hc => h.2.hasLength hn hc
  | _, .nested _ _ _ _, _, _, _, _, h, _ + 1, _, hn, _, hc => h.2.hasLength hn hc
  | _, .flatten _ _ _, _, _, _, _, h, _ + 1, _, hn, _, hc => by
      obtain ⟨_, _, _, hrest⟩ := h
      exact hrest.hasLength hn hc
  | _, .skipped _ _ _ _, _, _, _, _, h, _ + 1, _, hn, _, hc => h.2.hasLength hn hc

/-! ## Nested fields end and keep their lengths -/

/-- The decoding of a struct ends, and when it succeeds each nested field has as many elements as
the arrays of the columns it has taken. -/
structure DecodesNested {α : Type} (row : RowType α) (fields : Fields α) (map : List RawColumn) :
    Prop where
  terminates : (row.deserializeRow map).Terminates
  lengths : ∀ x, (row.deserializeRow map).Returns (.ok x) →
    ∀ pulled, fields.pullFlatten [] map = .ok pulled →
      ∀ place n, fields.lengths x place = some n →
        ∀ c ∈ fields.taken 0 pulled.2 place, HasLength n c.2

/-- The lengths are always kept; the decoding ends unless a nested field starves. -/
theorem decodesNested_iff {α : Type} (into deny : Bool) (fields : Fields α)
    (map : List RawColumn) :
    DecodesNested (.derived into deny fields) fields map ↔
      ¬ (RowType.derived into deny fields).Starves map := by
  rw [← RowType.terminates_iff]
  refine ⟨fun h => h.terminates, fun h => ⟨h, fun x hx pulled hpulled place n hn c hc => ?_⟩⟩
  obtain ⟨-, pulled', flat', hpulled', -, hmakes⟩ := RowType.derived_returns_ok.mp hx
  rw [hpulled] at hpulled'
  cases hpulled'
  exact hmakes.hasLength hn hc

/-- A nested field whose row type has a default for its only column. -/
def sampleFields : Fields (UInt8 × List (UInt8 × Unit) × Unit) :=
  .plain "id" none false (ofSqlType .u8) true
    (.nested "n" (.derived false false (.plain "x" (some 0) false (ofSqlType .u8) true .nil)) true
      .nil)

/-- A result without the column of the nested field is decoded forever. -/
theorem not_decodesNested_sample :
    ¬ DecodesNested (.derived false false sampleFields) sampleFields [⟨"id", .uint8, .uint8 7⟩] := by
  intro h
  refine (RowType.terminates_iff _ _).mp h.terminates ⟨([], [⟨"id", .uint8, .uint8 7⟩]),
    (some 7, Ext.none, ()), rfl, rfl, rfl, .inl (.inl ⟨rfl, .inl ⟨(0, ()), 1, rfl⟩⟩)⟩

end Derive

end ClickhouseArrow
