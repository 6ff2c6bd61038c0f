import ClickhouseArrow.Derive.Row

/-!
# Which field takes which column

The columns that a field takes are told by the arms alone.  When all columns are matched without
an error, what has been taken for a field is what its own arm makes of its columns in their
order, whatever the other fields take.
-/

namespace ClickhouseArrow

open Wire

namespace Derive

/-! ## The columns of one field -/

/-- The columns from a position on that the field at a place takes. -/
def Fields.taken {α : Type} (fields : Fields α) : Nat → List RawColumn → Nat →
    List (Arm × RawColumn)
  | _, [], _ => []
  | index, column :: map, place =>
      match fields.arm index column.name with
      | some (p, arm) =>
          if p = place then (arm, column) :: fields.taken (index + 1) map place
          else fields.taken (index + 1) map place
      | none => fields.taken (index + 1) map place

/-- The name under which a nested field keeps a column. -/
def pushedName (name : String) (taken : Arm × RawColumn) : String :=
  if taken.1 = .name then (stripDotted name taken.2.name).getD "" else taken.2.name

/-- What the arm of a plain field makes of its columns. -/
def foldPlain {A : Type} (name : String) (deserializeWith : Bool)
    (fromSql : ChType → Value → ColumnResult A) (slot : Option A)
    (taken : List (Arm × RawColumn)) : ColumnResult (Option A) :=
  taken.foldlM (fun slot c => takePlain name deserializeWith fromSql slot c.2) slot

/-- What the arm of a nested field makes of its columns. -/
def foldNested (name : String) (ext : Ext) (taken : List (Arm × RawColumn)) : ColumnResult Ext :=
  taken.foldlM (fun ext c => ext.take (pushedName name c) c.2) ext

/-- Every field takes its columns without an error. -/
def Fields.Takes : {α : Type} → (fields : Fields α) → (Nat → List (Arm × RawColumn)) →
    fields.Slots → fields.Slots → Prop
  | _, .nil, _, _, _ => True
  | _, .plain name _ deserializeWith fromSql _ rest, taken, slots, slots' =>
      foldPlain name deserializeWith fromSql slots.1 (taken 0) = .ok slots'.1 ∧
        rest.Takes (fun place => taken (place + 1)) slots.2 slots'.2
  | _, .nested name _ _ rest, taken, slots, slots' =>
      foldNested name slots.1 (taken 0) = .ok slots'.1 ∧
        rest.Takes (fun place => taken (place + 1)) slots.2 slots'.2
  | _, .flatten _ _ rest, taken, slots, slots' =>
      rest.Takes (fun place => taken (place + 1)) slots slots'
  | _, .skipped _ _ _ rest, taken, slots, slots' =>
      rest.Takes (fun place => taken (place + 1)) slots slots'

theorem Fields.takes_nil : ∀ {α : Type} {fields : Fields α} {slots slots' : fields.Slots},
    fields.Takes (fun _ => []) slots slots' ↔ slots = slots'
  | _, .nil, _, _ => iff_of_true trivial rfl
  | _, .plain _ _ _ _ _ rest, slots, slots' => by
      rw [Fields.Takes, rest.takes_nil]
      exact (and_congr_left' (Except.ok.injEq _ _).to_iff).trans Prod.ext_iff.symm
  | _, .nested _ _ _ rest, slots, slots' => by
      rw [Fields.Takes, rest.takes_nil]
      exact (and_congr_left' (Except.ok.injEq _ _).to_iff).trans Prod.ext_iff.symm
  | _, .flatten _ _ rest, _, _ => rest.takes_nil
  | _, .skipped _ _ _ rest, _, _ => rest.takes_nil

section Steps

variable {A B : Type} {P : A → Prop} {Q : B → Prop}

/-- A step on the slot of the first field. -/
theorem exists_first_step {f : ColumnResult A} {y : B} :
    (∃ s : A × B, (do
        let a ← f
        .ok (a, y)) = .ok s ∧ P s.1 ∧ Q s.2) ↔ (∃ a, f = .ok a ∧ P a) ∧ Q y := by
  simp only [Outcome.bind_eq_ok]
  constructor
  · rintro ⟨s, ⟨a, ha, hs⟩, hP, hQ⟩
    cases hs
    exact ⟨⟨a, ha, hP⟩, hQ⟩
  · rintro ⟨⟨a, ha, hP⟩, hQ⟩
    exact ⟨(a, y), ⟨a, ha, rfl⟩, hP, hQ⟩

/-- A step on the slots of the other fields. -/
theorem exists_others_step {x : A} {f : ColumnResult B} :
    (∃ s : A × B, (do
        let b ← f
        .ok (x, b)) = .ok s ∧ P s.1 ∧ Q s.2) ↔ P x ∧ ∃ b, f = .ok b ∧ Q b := by
  simp only [Outcome.bind_eq_ok]
  constructor
  · rintro ⟨s, ⟨b, hb, hs⟩, hP, hQ⟩
    cases hs
    exact ⟨hP, b, hb, hQ⟩
  · rintro ⟨hP, b, hb, hQ⟩
    exact ⟨(x, b), ⟨b, hb, rfl⟩, hP, hQ⟩

end Steps

/-- The columns of the fields, with one more in front of those of the field at a place. -/
def consAt (place : Nat) (c : Arm × RawColumn) (taken : Nat → List (Arm × RawColumn)) (p : Nat) :
    List (Arm × RawColumn) :=
  if place = p then c :: taken p else taken p

theorem consAt_succ (place : Nat) (c : Arm × RawColumn) (taken : Nat → List (Arm × RawColumn)) :
    (fun p => consAt (place + 1) c taken (p + 1)) = consAt place c fun p => taken (p + 1) := by
  funext p
  simp [consAt]

/-- The arm of the field at a place takes a column before the columns that follow it. -/
theorem Fields.take_takes : ∀ {α : Type} {fields : Fields α} {place : Nat} {arm : Arm}
    {column : RawColumn} {taken : Nat → List (Arm × RawColumn)} {slots slots' : fields.Slots},
    (∃ s, fields.take place arm column slots = .ok s ∧ fields.Takes taken s slots') ↔
      fields.Takes (consAt place (arm, column) taken) slots slots'
  | _, .nil, _, _, _, _, _, _ => by simp [Fields.take, Fields.Takes]
  | _, .plain name _ deserializeWith fromSql _ rest, 0, arm, column, taken, slots, slots' => by
      refine (exists_first_step (P := fun s =>
        foldPlain name deserializeWith fromSql s (taken 0) = .ok slots'.1)
        (Q := fun s => rest.Takes (fun p => taken (p + 1)) s slots'.2)).trans ?_
      exact and_congr_left' Outcome.bind_eq_ok.symm
  | _, .nested name _ _ rest, 0, arm, column, taken, slots, slots' => by
      refine (exists_first_step (P := fun s => foldNested name s (taken 0) = .ok slots'.1)
        (Q := fun s => rest.Takes (fun p => taken (p + 1)) s slots'.2)).trans ?_
      exact and_congr_left' Outcome.bind_eq_ok.symm
  | _, .flatten _ _ rest, 0, _, _, _, _, _ => by simp [Fields.take, Fields.Takes, consAt]
  | _, .skipped _ _ _ rest, 0, _, _, _, _, _ => by simp [Fields.take, Fields.Takes, consAt]
  | _, .plain name _ deserializeWith fromSql _ rest, place + 1, arm, column, taken, slots, slots' => by
      refine (exists_others_step (P := fun s =>
        foldPlain name deserializeWith fromSql s (taken 0) = .ok slots'.1)
        (Q := fun s => rest.Takes (fun p => taken (p + 1)) s slots'.2)).trans ?_
      rw [rest.take_takes, ← consAt_succ]
      rfl
  | _, .nested name _ _ rest, place + 1, arm, column, taken, slots, slots' => by
      refine (exists_others_step (P := fun s => foldNested name s (taken 0) = .ok slots'.1)
        (Q := fun s => rest.Takes (fun p => taken (p + 1)) s slots'.2)).trans ?_
      rw [rest.take_takes, ← consAt_succ]
      rfl
  | _, .flatten _ _ rest, place + 1, arm, column, taken, slots, slots' => by
      rw [Fields.Takes, consAt_succ]
      exact rest.take_takes
  | _, .skipped _ _ _ rest, place + 1, arm, column, taken, slots, slots' => by
      rw [Fields.Takes, consAt_succ]
      exact rest.take_takes

theorem Fields.taken_cons {α : Type} {fields : Fields α} {index : Nat} {column : RawColumn}
    (map : List RawColumn) {place : Nat} {arm : Arm}
    (h : fields.arm index column.name = some (place, arm)) :
    fields.taken index (column :: map) =
      consAt place (arm, column) (fields.taken (index + 1) map) := by
  funext p
  simp only [Fields.taken, h, consAt]

theorem Fields.taken_cons_of_none {α : Type} {fields : Fields α} {index : Nat} {column : RawColumn}
    (map : List RawColumn) (h : fields.arm index column.name = none) :
    fields.taken index (column :: map) = fields.taken (index + 1) map := by
  funext p
  simp only [Fields.taken, h]

/-- Unknown columns are allowed, or there are none. -/
def Fields.AllowsUnknown {α : Type} (fields : Fields α) (deny : Bool) (index : Nat)
    (map : List RawColumn) : Prop :=
  (deny && !fields.hasFlatten) = true → ∀ i column, map[i]? = some column →
    fields.arm (index + i) column.name ≠ none

theorem Fields.allowsUnknown_cons {α : Type} {fields : Fields α} {deny : Bool} {index : Nat}
    {column : RawColumn} {map : List RawColumn} :
    fields.AllowsUnknown deny index (column :: map) ↔
      ((deny && !fields.hasFlatten) = true → fields.arm index column.name ≠ none) ∧
        fields.AllowsUnknown deny (index + 1) map := by
  constructor
  · intro h
    refine ⟨fun hdeny => h hdeny 0 column rfl, fun hdeny i c hc => ?_⟩
    have hlater := h hdeny (i + 1) c hc
    rwa [show index + (i + 1) = index + 1 + i by omega] at hlater
  · rintro ⟨hfirst, hlater⟩ hdeny i c hc
    cases i with
    | zero =>
      cases hc
      exact hfirst hdeny
    | succ i =>
      rw [show index + (i + 1) = index + 1 + i by omega]
      exact hlater hdeny i c hc

/-- All columns are matched exactly when every field takes its own. -/
theorem Fields.matchKeys_eq_ok {α : Type} {fields : Fields α} {deny : Bool} {index : Nat}
    {map : List RawColumn} {slots slots' : fields.Slots} :
    fields.matchKeys deny index map slots = .ok slots' ↔
      fields.AllowsUnknown deny index map ∧ fields.Takes (fields.taken index map) slots slots' := by
  induction map generalizing index slots with
  | nil =>
    have hnone : fields.taken index [] = fun _ => [] := rfl
    rw [Fields.matchKeys, hnone, Fields.takes_nil]
    simp [AllowsUnknown]
  | cons column map ih =>
    rw [Fields.matchKeys, Outcome.bind_eq_ok, Fields.allowsUnknown_cons]
    simp only [ih, Fields.matchKey]
    cases harm : fields.arm index column.name with
    | none =>
      rw [Fields.taken_cons_of_none map harm]
      -- The column is ignored, unless unknown columns are denied.
      cases hdeny : deny && !fields.hasFlatten with
      | true => simp [Outcome.fail]
      | false => simp
    | some p =>
      obtain ⟨place, arm⟩ := p
      rw [Fields.taken_cons map harm, ← Fields.take_takes]
      simp only [ne_eq, reduceCtorEq, not_false_eq_true, implies_true, true_and]
      constructor
      · rintro ⟨s, hs, hallows, htakes⟩
        exact ⟨hallows, s, hs, htakes⟩
      · rintro ⟨hallows, s, hs, htakes⟩
        exact ⟨s, hs, hallows, htakes⟩

/-! ## What an arm makes of its columns -/

/-- A plain field takes one column at most. -/
theorem foldPlain_eq_ok {A : Type} {name : String} {deserializeWith : Bool}
    {fromSql : ChType → Value → ColumnResult A} {taken : List (Arm × RawColumn)}
    {slot : Option A} :
    foldPlain name deserializeWith fromSql none taken = .ok slot ↔
      (taken = [] ∧ slot = none) ∨
        ∃ c x, taken = [c] ∧ visit name deserializeWith fromSql c.2 = .ok x ∧ slot = some x := by
  rcases taken with _ | ⟨c, taken⟩
  · simp [foldPlain, pure, Except.pure, eq_comm]
  · have hfirst : foldPlain name deserializeWith fromSql none (c :: taken) = (do
        let x ← visit name deserializeWith fromSql c.2
        foldPlain name deserializeWith fromSql (some x) taken) := by
      simp [foldPlain, takePlain, bind_assoc]
    rw [hfirst, Outcome.bind_eq_ok]
    cases taken with
    | nil =>
      simp only [foldPlain, List.foldlM_nil, pure, Except.pure, Except.ok.injEq, reduceCtorEq,
        false_and, List.cons.injEq, and_true, false_or]
      constructor
      · rintro ⟨x, hx, rfl⟩
        exact ⟨c, x, rfl, hx, rfl⟩
      · rintro ⟨_, x, rfl, hx, rfl⟩
        exact ⟨x, hx, rfl⟩
    | cons c' taken =>
      -- The second column finds a value, and is reported as a duplicate.
      simp [foldPlain, takePlain, Outcome.fail]

/-- What a nested field keeps of a column. -/
structure Pushes (name : String) (c : Arm × RawColumn) (pushed : String × ChType × List Value) :
    Prop where
  name : pushed.1 = pushedName name c
  type : c.2.type = .array pushed.2.1
  value : c.2.value = .array pushed.2.2

theorem unarray_eq_some {t inner : ChType} : t.unarray = some inner ↔ t = .array inner := by
  cases t <;> simp [ChType.unarray]

theorem Value.unarray_eq_some {v : Value} {values : List Value} :
    v.unarray = some values ↔ v = .array values := by
  cases v <;> simp [Value.unarray]

namespace Ext

theorem take_eq_ok {ext ext' : Ext} {name : String} {c : Arm × RawColumn}
    (h : ext.take (pushedName name c) c.2 = .ok ext') :
    ∃ pushed, Pushes name c pushed ∧ ext'.columns = ext.columns ++ [pushed] := by
  rw [take] at h
  split at h
  · simp [Outcome.fail] at h
  · next values hvalue =>
    split at h
    · simp [Outcome.fail] at h
    · split at h
      · simp [Outcome.fail] at h
      · next t htype =>
        cases h
        exact ⟨(_, t, values), ⟨rfl, unarray_eq_some.mp htype, Value.unarray_eq_some.mp hvalue⟩, rfl⟩

/-- A column is taken when its array is as long as those before it. -/
theorem exists_take {ext : Ext} {name : String} {c : Arm × RawColumn}
    {pushed : String × ChType × List Value} (h : Pushes name c pushed)
    (hlen : ext.columns = [] ∨ pushed.2.2.length = ext.len) :
    ∃ ext', ext.take (pushedName name c) c.2 = .ok ext' ∧
      ext'.columns = ext.columns ++ [pushed] := by
  obtain ⟨_, t, values⟩ := pushed
  obtain ⟨rfl, htype, hvalue⟩ := h
  have hfits : ¬ (ext.columns ≠ [] ∧ ext.len ≠ values.length) := by
    rintro ⟨hsome, hother⟩
    exact hlen.elim hsome fun heq => hother heq.symm
  have htaken : ext.take (pushedName name c) c.2 = .ok ⟨ext.columns ++ [(pushedName name c, t, values)],
      if ext.columns = [] then values.length else ext.len,
      ext.uniform_push (pushedName name c) t hfits⟩ := by
    simp only [take, hvalue, Value.unarray, dif_neg hfits, htype, ChType.unarray]
  exact ⟨_, htaken, rfl⟩

end Ext

theorem foldNested_eq_ok {name : String} {taken : List (Arm × RawColumn)} {ext ext' : Ext}
    (h : foldNested name ext taken = .ok ext') :
    ∃ pushed, List.Forall₂ (Pushes name) taken pushed ∧
      ext'.columns = ext.columns ++ pushed := by
  induction taken generalizing ext with
  | nil =>
    cases h
    exact ⟨[], .nil, (List.append_nil _).symm⟩
  | cons c taken ih =>
    obtain ⟨ext₁, hfirst, hrest⟩ := Outcome.bind_eq_ok.mp h
    obtain ⟨e, he, hcolumns⟩ := Ext.take_eq_ok hfirst
    obtain ⟨pushed, hpushed, hall⟩ := ih hrest
    refine ⟨e :: pushed, .cons he hpushed, ?_⟩
    rw [hall, hcolumns, List.append_assoc, List.singleton_append]

/-- Arrays of one length are all taken. -/
theorem exists_foldNested {name : String} {taken : List (Arm × RawColumn)}
    {pushed : List (String × ChType × List Value)} (h : List.Forall₂ (Pushes name) taken pushed)
    {n : Nat} {ext : Ext} (hlen : ∀ e ∈ ext.columns ++ pushed, e.2.2.length = n) :
    ∃ ext', foldNested name ext taken = .ok ext' ∧ ext'.columns = ext.columns ++ pushed := by
  induction h generalizing ext with
  | nil => exact ⟨ext, rfl, (List.append_nil _).symm⟩
  | @cons c e taken pushed hfirst _ ih =>
    -- Any column that has been taken tells the length.
    have hfits : ext.columns = [] ∨ e.2.2.length = ext.len := by
      rcases List.eq_nil_or_concat ext.columns with hnil | ⟨_, last, hlast⟩
      · exact .inl hnil
      · have hmem : last ∈ ext.columns := by simp [hlast]
        right
        rw [← ext.uniform last hmem, hlen last (List.mem_append_left _ hmem), hlen e (by simp)]
    obtain ⟨ext₁, htake, hcolumns⟩ := Ext.exists_take hfirst hfits
    obtain ⟨ext', hrest, hall⟩ := @ih ext₁ (by
      rw [hcolumns, List.append_assoc]
      exact hlen)
    refine ⟨ext', Outcome.bind_eq_ok.mpr ⟨ext₁, htake, hrest⟩, ?_⟩
    rw [hall, hcolumns, List.append_assoc, List.singleton_append]

/-! ## What a struct is made of -/

/-- Every field makes its part of the struct from its own columns; what is left of the flattened
columns comes with it. -/
def Fields.Makes : {α : Type} → Fields α → (Nat → List (Arm × RawColumn)) → Flat → α → Flat → Prop
  | _, .nil, _, flat, _, flat' => flat = flat'
  | _, .plain name default deserializeWith fromSql _ rest, taken, flat, x, flat' =>
      (∃ slot, foldPlain name deserializeWith fromSql none (taken 0) = .ok slot ∧
        extractPlain name default slot = .ok x.1) ∧
      rest.Makes (fun place => taken (place + 1)) flat x.2 flat'
  | _, .nested name inner _ rest, taken, flat, x, flat' =>
      (∃ ext, foldNested name Ext.none (taken 0) = .ok ext ∧
        (nestedRectify inner.deserializeRow ext.columns).Returns (.ok x.1)) ∧
      rest.Makes (fun place => taken (place + 1)) flat x.2 flat'
  | _, .flatten _ inner rest, taken, flat, x, flat' =>
      ∃ map2, removeEntries (inner.columnNames.getD []) flat = .ok map2 ∧
        (inner.deserializeRow map2.1).Returns (.ok x.1) ∧
        rest.Makes (fun place => taken (place + 1)) map2.2 x.2 flat'
  | _, .skipped _ _ value rest, taken, flat, x, flat' =>
      x.1 = value ∧ rest.Makes (fun place => taken (place + 1)) flat x.2 flat'

/-- The passes over the fields, one after the other. -/
structure Fields.Passes {α : Type} (fields : Fields α) (taken : Nat → List (Arm × RawColumn))
    (flat : Flat) (x : α) (flat' : Flat) (slots : fields.Slots) (filled : fields.Filled)
    (values : fields.Extracted) : Prop where
  takes : fields.Takes taken fields.noSlots slots
  rectify : (fields.rectify slots).Returns (.ok filled)
  extract : fields.extract filled = .ok values
  build : (fields.build values flat).Returns (.ok (x, flat'))

/-- The passes succeed exactly when every field makes its part. -/
theorem Fields.exists_passes_iff : ∀ {α : Type} (fields : Fields α)
    {taken : Nat → List (Arm × RawColumn)} {flat : Flat} {x : α} {flat' : Flat},
    (∃ slots filled values, fields.Passes taken flat x flat' slots filled values) ↔
      fields.Makes taken flat x flat'
  | _, .nil, _, _, _, _ => by
      constructor
      · rintro ⟨slots, filled, values, h⟩
        cases Bounded.returns_pure.mp h.build
        rfl
      · rintro rfl
        exact ⟨(), (), (), trivial, Bounded.returns_pure.mpr rfl, rfl, Bounded.returns_pure.mpr rfl⟩
  | _, .plain name default deserializeWith fromSql _ rest, taken, flat, x, flat' => by
      rw [Fields.Makes, ← rest.exists_passes_iff]
      constructor
      · rintro ⟨slots, filled, values, ⟨hslot, htakes⟩, hrectify, hextract, hbuild⟩
        -- Each pass goes over the first field and then over the others, so the four results split.
        obtain ⟨others, hrest, hfilled⟩ := Bounded.returns_bind_ok.mp hrectify
        cases Bounded.returns_pure.mp hfilled
        obtain ⟨y, hy, hvalues⟩ := Outcome.bind_eq_ok.mp hextract
        obtain ⟨ys, hys, hvalues⟩ := Outcome.bind_eq_ok.mp hvalues
        cases hvalues
        obtain ⟨built, hbuilt, hx⟩ := Bounded.returns_bind_ok.mp hbuild
        cases Bounded.returns_pure.mp hx
        exact ⟨⟨_, hslot, hy⟩, _, _, _, htakes, hrest, hys, hbuilt⟩
      · rintro ⟨⟨slot, hslot, hx⟩, slots, filled, values, h⟩
        refine ⟨(slot, slots), (slot, filled), (x.1, values), ⟨hslot, h.takes⟩, ?_, ?_, ?_⟩
        · exact Bounded.returns_bind_ok.mpr ⟨filled, h.rectify, Bounded.returns_pure.mpr rfl⟩
        · exact Outcome.bind_eq_ok.mpr ⟨_, hx, Outcome.bind_eq_ok.mpr ⟨_, h.extract, rfl⟩⟩
        · exact Bounded.returns_bind_ok.mpr ⟨_, h.build, Bounded.returns_pure.mpr rfl⟩
  | _, .nested name inner _ rest, taken, flat, x, flat' => by
      rw [Fields.Makes, ← rest.exists_passes_iff]
      constructor
      · rintro ⟨slots, filled, values, ⟨hext, htakes⟩, hrectify, hextract, hbuild⟩
        obtain ⟨rows, hrows, hothers⟩ := Bounded.returns_bind_ok.mp hrectify
        obtain ⟨others, hrest, hfilled⟩ := Bounded.returns_bind_ok.mp hothers
        cases Bounded.returns_pure.mp hfilled
        obtain ⟨ys, hys, hvalues⟩ := Outcome.bind_eq_ok.mp hextract
        cases hvalues
        obtain ⟨built, hbuilt, hx⟩ := Bounded.returns_bind_ok.mp hbuild
        cases Bounded.returns_pure.mp hx
        exact ⟨⟨_, hext, hrows⟩, _, _, _, htakes, hrest, hys, hbuilt⟩
      · rintro ⟨⟨ext, hext, hrows⟩, slots, filled, values, h⟩
        refine ⟨(ext, slots), (x.1, filled), (x.1, values), ⟨hext, h.takes⟩, ?_, ?_, ?_⟩
        · exact Bounded.returns_bind_ok.mpr ⟨_, hrows,
            Bounded.returns_bind_ok.mpr ⟨filled, h.rectify, Bounded.returns_pure.mpr rfl⟩⟩
        · exact Outcome.bind_eq_ok.mpr ⟨_, h.extract, rfl⟩
        · exact Bounded.returns_bind_ok.mpr ⟨_, h.build, Bounded.returns_pure.mpr rfl⟩
  | _, .flatten _ inner rest, taken, flat, x, flat' => by
      rw [Fields.Makes]
      constructor
      · rintro ⟨slots, filled, values, htakes, hrectify, hextract, hbuild⟩
        -- A flattened field has no columns of its own: it is made in the last pass, from what was
        -- pulled out.
        obtain ⟨map2, hmap2, hbuild⟩ := Bounded.returns_bind_ok.mp hbuild
        obtain ⟨y, hy, hbuild⟩ := Bounded.returns_bind_ok.mp hbuild
        obtain ⟨built, hbuilt, hx⟩ := Bounded.returns_bind_ok.mp hbuild
        cases Bounded.returns_pure.mp hx
        exact ⟨map2, (Bounded.returns_ofOutcome.mp hmap2).symm, hy,
          rest.exists_passes_iff.mp ⟨_, _, _, htakes, hrectify, hextract, hbuilt⟩⟩
      · rintro ⟨map2, hmap2, hx, hmakes⟩
        obtain ⟨slots, filled, values, h⟩ := rest.exists_passes_iff.mpr hmakes
        refine ⟨slots, filled, values, h.takes, h.rectify, h.extract, ?_⟩
        exact Bounded.returns_bind_ok.mpr ⟨map2, Bounded.returns_ofOutcome.mpr hmap2.symm,
          Bounded.returns_bind_ok.mpr ⟨_, hx,
            Bounded.returns_bind_ok.mpr ⟨_, h.build, Bounded.returns_pure.mpr rfl⟩⟩⟩
  | _, .skipped _ _ value rest, taken, flat, x, flat' => by
      rw [Fields.Makes, ← rest.exists_passes_iff]
      constructor
      · rintro ⟨slots, filled, values, htakes, hrectify, hextract, hbuild⟩
        obtain ⟨built, hbuilt, hx⟩ := Bounded.returns_bind_ok.mp hbuild
        cases Bounded.returns_pure.mp hx
        exact ⟨rfl, _, _, _, htakes, hrectify, hextract, hbuilt⟩
      · rintro ⟨hx, slots, filled, values, h⟩
        refine ⟨slots, filled, values, h.takes, h.rectify, h.extract, ?_⟩
        refine Bounded.returns_bind_ok.mpr ⟨_, h.build, Bounded.returns_pure.mpr ?_⟩
        rw [← hx]

/-- A struct is decoded when its columns are known and every field makes its part. -/
theorem RowType.derived_returns_ok {α : Type} {into deny : Bool} {fields : Fields α}
    {map : List RawColumn} {x : α} :
    ((RowType.derived into deny fields).deserializeRow map).Returns (.ok x) ↔
      fields.knownSizes = .ok () ∧ ∃ pulled flat', fields.pullFlatten [] map = .ok pulled ∧
        fields.AllowsUnknown deny 0 pulled.2 ∧
        fields.Makes (fields.taken 0 pulled.2) pulled.1 x flat' := by
  rw [RowType.deserializeRow, Bounded.returns_bind_ok]
  constructor
  · rintro ⟨_, hsizes, h⟩
    obtain ⟨pulled, hpulled, h⟩ := Bounded.returns_bind_ok.mp h
    obtain ⟨slots, hslots, h⟩ := Bounded.returns_bind_ok.mp h
    obtain ⟨filled, hfilled, h⟩ := Bounded.returns_bind_ok.mp h
    obtain ⟨values, hvalues, h⟩ := Bounded.returns_bind_ok.mp h
    obtain ⟨built, hbuilt, hx⟩ := Bounded.returns_bind_ok.mp h
    cases Bounded.returns_pure.mp hx
    obtain ⟨hallows, htakes⟩ :=
      Fields.matchKeys_eq_ok.mp (Bounded.returns_ofOutcome.mp hslots).symm
    refine ⟨(Bounded.returns_ofOutcome.mp hsizes).symm, pulled, built.2,
      (Bounded.returns_ofOutcome.mp hpulled).symm, hallows, ?_⟩
    exact fields.exists_passes_iff.mp
      ⟨slots, filled, values, htakes, hfilled, (Bounded.returns_ofOutcome.mp hvalues).symm, hbuilt⟩
  · rintro ⟨hsizes, pulled, flat', hpulled, hallows, hmakes⟩
    obtain ⟨slots, filled, values, h⟩ := fields.exists_passes_iff.mpr hmakes
    have hslots := Fields.matchKeys_eq_ok.mpr ⟨hallows, h.takes⟩
    refine ⟨(), Bounded.returns_ofOutcome.mpr hsizes.symm, ?_⟩
    refine Bounded.returns_bind_ok.mpr ⟨pulled, Bounded.returns_ofOutcome.mpr hpulled.symm, ?_⟩
    refine Bounded.returns_bind_ok.mpr ⟨slots, Bounded.returns_ofOutcome.mpr hslots.symm, ?_⟩
    refine Bounded.returns_bind_ok.mpr ⟨filled, h.rectify, ?_⟩
    refine Bounded.returns_bind_ok.mpr ⟨values, Bounded.returns_ofOutcome.mpr h.extract.symm, ?_⟩
    exact Bounded.returns_bind_ok.mpr ⟨_, h.build, Bounded.returns_pure.mpr rfl⟩

end Derive

end ClickhouseArrow
