import ClickhouseArrow.Derive.Nested

/-!
# Names and strangers

A struct of plain and nested fields finds its own columns by their names, wherever they stand
among the columns of a result.  A column that no name arm matches falls back to the field at its
position, so a stranger can reach a field that has its own column.  The struct is decoded as from
its own columns alone exactly when every plain field takes one column, and every nested field
takes arrays of one length whose rows are harmless in the same way.
-/

namespace ClickhouseArrow

open Wire

namespace Derive

/-! ## Names -/

mutual

/-- The columns of a row type with plain and nested fields. -/
def RowType.names : {α : Type} → RowType α → List String
  | _, .derived _ _ fields => fields.names
  | _, .converted _ _ _ _ => []
  | _, .custom _ _ _ => []

def Fields.names : {α : Type} → Fields α → List String
  | _, .nil => []
  | _, .plain name _ _ _ _ rest => name :: rest.names
  | _, .nested name inner _ rest => inner.names.map (name ++ "." ++ ·) ++ rest.names
  | _, .flatten _ _ rest => rest.names
  | _, .skipped _ _ _ rest => rest.names

end

mutual

/-- Plain and nested fields only, at every depth, that share no column: a nested field owns every
name in its group, and its row type has a column. -/
inductive RowType.WellNamed : {α : Type} → RowType α → Prop
  | derived {α : Type} {into : Bool} {fields : Fields α} :
      fields.WellNamed → RowType.WellNamed (.derived into false fields)

inductive Fields.WellNamed : {α : Type} → Fields α → Prop
  | nil : Fields.WellNamed .nil
  | plain {A α : Type} {name : String} {default : Option A} {deserializeWith serialized : Bool}
      {fromSql : ChType → Value → ColumnResult A} {rest : Fields α} :
      name ∉ rest.names → rest.WellNamed →
      Fields.WellNamed (.plain name default deserializeWith fromSql serialized rest)
  | nested {β α : Type} {name : String} {inner : RowType β} {serialized : Bool}
      {rest : Fields α} :
      inner.names ≠ [] → inner.WellNamed → (∀ s ∈ rest.names, stripDotted name s = none) →
      rest.WellNamed → Fields.WellNamed (.nested name inner serialized rest)

end

theorem stripDotted_eq_some {name full s : String} :
    stripDotted name full = some s ↔ full = name ++ "." ++ s := by
  rw [stripDotted, Option.map_eq_some_iff]
  constructor
  · rintro ⟨l, hl, rfl⟩
    rw [List.isPrefixOf?_eq_some_iff_append_eq] at hl
    apply String.toList_inj.mp
    simp [← hl]
  · rintro rfl
    refine ⟨s.toList, ?_, String.ofList_toList⟩
    rw [List.isPrefixOf?_eq_some_iff_append_eq, String.toList_append, String.toList_append]
    rfl

theorem Fields.WellNamed.pullFlatten {α : Type} {fields : Fields α} (h : fields.WellNamed)
    (flat : Flat) (map : List RawColumn) : fields.pullFlatten flat map = .ok (flat, map) :=
  match h with
  | .nil => rfl
  | .plain _ h => h.pullFlatten flat map
  | .nested _ _ _ h => h.pullFlatten flat map

/-- A column of a struct is matched by name. -/
theorem Fields.WellNamed.nameArm_ne_none {α : Type} {fields : Fields α} (h : fields.WellNamed)
    {s : String} (hs : s ∈ fields.names) : fields.nameArm s ≠ none :=
  match h with
  | .plain _ h => by
      rcases List.mem_cons.mp hs with rfl | hs
      · simp [Fields.nameArm]
      · rw [Fields.nameArm]
        split
        · exact Option.some_ne_none _
        · exact fun hnone => h.nameArm_ne_none hs (Option.map_eq_none_iff.mp hnone)
  | .nested _ _ _ h => by
      rw [Fields.nameArm]
      split
      · exact Option.some_ne_none _
      · next hother =>
        rcases List.mem_append.mp hs with hs | hs
        · obtain ⟨t, -, rfl⟩ := List.mem_map.mp hs
          exact absurd (by rw [stripDotted_eq_some.mpr rfl]; rfl) hother
        · exact fun hnone => h.nameArm_ne_none hs (Option.map_eq_none_iff.mp hnone)

/-! ## The own columns of a field -/

/-- Own columns are found by their names, wherever they stand; what else a field takes comes
to it by position. -/
theorem Fields.taken_perm {α : Type} (fields : Fields α) (index : Nat) (map : List RawColumn)
    (place : Nat) : ∃ strangers, (fields.taken index map place).Perm
      ((map.filter fun c => fields.nameArm c.name = some place).map (Prod.mk .name) ++
        strangers) := by
  induction map generalizing index with
  | nil => exact ⟨[], .nil⟩
  | cons c map ih =>
    obtain ⟨strangers, hperm⟩ := ih (index + 1)
    cases hname : fields.nameArm c.name with
    | some p =>
      have harm : fields.arm index c.name = some (p, .name) := by rw [Fields.arm, hname]
      by_cases hp : p = place
      · refine ⟨strangers, ?_⟩
        simpa [Fields.taken, harm, hp, hname] using hperm.cons (Arm.name, c)
      · refine ⟨strangers, ?_⟩
        simpa [Fields.taken, harm, hp, hname] using hperm
    | none =>
      -- No name arm matches, so a field can take the column by its position.
      cases harm : fields.arm index c.name with
      | none =>
        refine ⟨strangers, ?_⟩
        simpa [Fields.taken, harm, hname] using hperm
      | some taken =>
        obtain ⟨p, arm⟩ := taken
        by_cases hp : p = place
        · refine ⟨(arm, c) :: strangers, ?_⟩
          simpa [Fields.taken, harm, hp, hname] using (hperm.cons (arm, c)).trans
            List.perm_middle.symm
        · refine ⟨strangers, ?_⟩
          simpa [Fields.taken, harm, hp, hname] using hperm

/-- Columns that are all matched by name are taken in their order. -/
theorem Fields.taken_of_names {α : Type} (fields : Fields α) {index : Nat} {map : List RawColumn}
    (h : ∀ c ∈ map, fields.nameArm c.name ≠ none) (place : Nat) :
    fields.taken index map place =
      (map.filter fun c => fields.nameArm c.name = some place).map (Prod.mk .name) := by
  induction map generalizing index with
  | nil => rfl
  | cons c map ih =>
    obtain ⟨p, hname⟩ := Option.ne_none_iff_exists'.mp (h c List.mem_cons_self)
    have harm : fields.arm index c.name = some (p, .name) := by rw [Fields.arm, hname]
    have hrest := @ih (index + 1) fun c hc => h c (List.mem_cons_of_mem _ hc)
    by_cases hp : p = place
    · simp [Fields.taken, harm, hp, hname, hrest]
    · simp [Fields.taken, harm, hp, hname, hrest]

/-- Every field takes the own columns whose names its arm matches first, and the strangers that
come to its place. -/
def Fields.TakesOwn {α : Type} (fields : Fields α) (own : List RawColumn)
    (strangers taken : Nat → List (Arm × RawColumn)) : Prop :=
  ∀ place, (taken place).Perm
    ((own.filter fun c => fields.nameArm c.name = some place).map (Prod.mk .name) ++
      strangers place)

theorem Fields.exists_takesOwn {α : Type} (fields : Fields α) {map own others : List RawColumn}
    (h : map.Perm (own ++ others)) :
    ∃ strangers, fields.TakesOwn own strangers (fields.taken 0 map) := by
  choose strangers hperm using fields.taken_perm 0 map
  -- A column with another name can have the name that an arm matches, too.
  refine ⟨fun place => (others.filter fun c => fields.nameArm c.name = some place).map
    (Prod.mk .name) ++ strangers place, fun place => ?_⟩
  have hfilter := (h.filter fun c => fields.nameArm c.name = some place).map (Prod.mk Arm.name)
  rw [List.filter_append, List.map_append] at hfilter
  have hall := (hperm place).trans (hfilter.append_right (strangers place))
  rwa [List.append_assoc] at hall

theorem Fields.takesOwn_of_names {α : Type} (fields : Fields α) {map own : List RawColumn}
    (hmap : map.Perm own) (hown : ∀ c ∈ own, fields.nameArm c.name ≠ none) :
    fields.TakesOwn own (fun _ => []) (fields.taken 0 map) := by
  intro place
  rw [fields.taken_of_names (fun c hc => hown c (hmap.mem_iff.mp hc)), List.append_nil]
  exact (hmap.filter _).map _

theorem stripDotted_dotted (name s : String) : stripDotted name (name ++ "." ++ s) = some s :=
  stripDotted_eq_some.mpr rfl

/-- The columns of a nested field and those of the fields that follow. -/
theorem exists_group {name : String} {names others : List String} {own : List RawColumn}
    (hown : own.map RawColumn.name = names.map (name ++ "." ++ ·) ++ others) :
    ∃ group rest, own = group ++ rest ∧ group.length = names.length ∧
      group.map RawColumn.name = names.map (name ++ "." ++ ·) ∧
      rest.map RawColumn.name = others := by
  obtain ⟨group, rest, rfl, hgroup, hrest⟩ := List.map_eq_append_iff.mp hown
  refine ⟨group, rest, rfl, ?_, hgroup, hrest⟩
  rw [← List.length_map RawColumn.name, hgroup, List.length_map]

/-- The names of a group are stripped. -/
theorem stripDotted_isSome {name : String} {names : List String} {group : List RawColumn}
    (hgroup : group.map RawColumn.name = names.map (name ++ "." ++ ·)) {c : RawColumn}
    (hc : c ∈ group) : (stripDotted name c.name).isSome = true := by
  have hmem : c.name ∈ group.map RawColumn.name := List.mem_map_of_mem hc
  rw [hgroup] at hmem
  obtain ⟨s, -, hs⟩ := List.mem_map.mp hmem
  rw [← hs, stripDotted_dotted]
  rfl

section TakesOwn

variable {α : Type} {rest : Fields α} {own : List RawColumn}
  {strangers taken : Nat → List (Arm × RawColumn)}

theorem Fields.TakesOwn.plain {A : Type} {name : String} {default : Option A}
    {deserializeWith serialized : Bool} {fromSql : ChType → Value → ColumnResult A}
    {c : RawColumn}
    (h : (Fields.plain name default deserializeWith fromSql serialized rest).TakesOwn (c :: own)
      strangers taken)
    (hname : c.name = name) (hother : ∀ c' ∈ own, c'.name ≠ name) :
    (taken 0).Perm ((.name, c) :: strangers 0) ∧
      rest.TakesOwn own (fun place => strangers (place + 1)) fun place => taken (place + 1) := by
  constructor
  · have hperm := h 0
    have hnone : own.filter (fun c' => (Fields.plain name default deserializeWith fromSql serialized
        rest).nameArm c'.name = some 0) = [] := by
      rw [List.filter_eq_nil_iff]
      intro c' hc'
      simp [Fields.nameArm, hother c' hc']
    rwa [List.filter_cons_of_pos (by simp [Fields.nameArm, hname]), hnone] at hperm
  · intro place
    have hperm := h (place + 1)
    have hrest : own.filter (fun c' => (Fields.plain name default deserializeWith fromSql serialized
        rest).nameArm c'.name = some (place + 1)) =
        own.filter fun c' => rest.nameArm c'.name = some place := by
      apply List.filter_congr
      intro c' hc'
      simp [Fields.nameArm, hother c' hc']
    rwa [List.filter_cons_of_neg (by simp [Fields.nameArm, hname]), hrest] at hperm

theorem Fields.TakesOwn.nested {β : Type} {name : String} {inner : RowType β}
    {serialized : Bool} {group : List RawColumn}
    (h : (Fields.nested name inner serialized rest).TakesOwn (group ++ own) strangers taken)
    (hgroup : ∀ c ∈ group, (stripDotted name c.name).isSome = true)
    (hother : ∀ c ∈ own, stripDotted name c.name = none) :
    (taken 0).Perm (group.map (Prod.mk .name) ++ strangers 0) ∧
      rest.TakesOwn own (fun place => strangers (place + 1)) fun place => taken (place + 1) := by
  constructor
  · have hperm := h 0
    have hall : group.filter (fun c => (Fields.nested name inner serialized
        rest).nameArm c.name = some 0) = group := by
      rw [List.filter_eq_self]
      intro c hc
      simp [Fields.nameArm, hgroup c hc]
    have hnone : own.filter (fun c => (Fields.nested name inner serialized
        rest).nameArm c.name = some 0) = [] := by
      rw [List.filter_eq_nil_iff]
      intro c hc
      simp [Fields.nameArm, hother c hc]
    rwa [List.filter_append, hall, hnone, List.append_nil] at hperm
  · intro place
    have hperm := h (place + 1)
    have hnone : group.filter (fun c => (Fields.nested name inner serialized
        rest).nameArm c.name = some (place + 1)) = [] := by
      rw [List.filter_eq_nil_iff]
      intro c hc
      simp [Fields.nameArm, hgroup c hc]
    have hrest : own.filter (fun c => (Fields.nested name inner serialized
        rest).nameArm c.name = some (place + 1)) =
        own.filter fun c => rest.nameArm c.name = some place := by
      apply List.filter_congr
      intro c hc
      simp [Fields.nameArm, hother c hc]
    rwa [List.filter_append, hnone, hrest, List.nil_append] at hperm

/-- The first of the own columns is that of a plain field. -/
theorem Fields.TakesOwn.exists_plain {A : Type} {name : String} {default : Option A}
    {deserializeWith serialized : Bool} {fromSql : ChType → Value → ColumnResult A}
    (h : (Fields.plain name default deserializeWith fromSql serialized rest).TakesOwn own
      strangers taken)
    (hown : own.map RawColumn.name = name :: rest.names) (hname : name ∉ rest.names) :
    ∃ c others, own = c :: others ∧ (taken 0).Perm ((.name, c) :: strangers 0) ∧
      rest.TakesOwn others (fun place => strangers (place + 1)) (fun place => taken (place + 1)) ∧
      others.map RawColumn.name = rest.names := by
  obtain ⟨c, others, rfl, hc, hothers⟩ := List.map_eq_cons_iff.mp hown
  have hother : ∀ c' ∈ others, c'.name ≠ name := by
    rintro c' hc' rfl
    exact hname (hothers ▸ List.mem_map_of_mem hc')
  obtain ⟨hfirst, hrest⟩ := h.plain hc hother
  exact ⟨c, others, rfl, hfirst, hrest, hothers⟩

/-- The first of the own columns are those of a nested field. -/
theorem Fields.TakesOwn.exists_nested {β : Type} {name : String} {inner : RowType β}
    {serialized : Bool} (h : (Fields.nested name inner serialized rest).TakesOwn own strangers taken)
    (hown : own.map RawColumn.name = inner.names.map (name ++ "." ++ ·) ++ rest.names)
    (hname : ∀ s ∈ rest.names, stripDotted name s = none) :
    ∃ group others, own = group ++ others ∧ group.length = inner.names.length ∧
      group.map RawColumn.name = inner.names.map (name ++ "." ++ ·) ∧
      (taken 0).Perm (group.map (Prod.mk .name) ++ strangers 0) ∧
      rest.TakesOwn others (fun place => strangers (place + 1)) (fun place => taken (place + 1)) ∧
      others.map RawColumn.name = rest.names := by
  obtain ⟨group, others, rfl, hlen, hgroup, hothers⟩ := exists_group hown
  have hother : ∀ c ∈ others, stripDotted name c.name = none := fun c hc =>
    hname c.name (hothers ▸ List.mem_map_of_mem hc)
  obtain ⟨hfirst, hrest⟩ := h.nested (fun c hc => stripDotted_isSome hgroup hc) hother
  exact ⟨group, others, rfl, hlen, hgroup, hfirst, hrest, hothers⟩

end TakesOwn

/-! ## Harmless columns -/

mutual

/-- Every plain field takes one column, and every nested field takes arrays of one length, whose
rows are harmless for its row type. -/
def RowType.Harmless : {α : Type} → RowType α → List RawColumn → Prop
  | _, .derived _ _ fields, map => fields.HarmlessFrom (fields.taken 0 map)
  | _, .converted _ _ _ _, _ => False
  | _, .custom _ _ _, _ => False

def Fields.HarmlessFrom : {α : Type} → Fields α → (Nat → List (Arm × RawColumn)) → Prop
  | _, .nil, _ => True
  | _, .plain _ _ _ _ _ rest, taken =>
      (taken 0).length = 1 ∧ rest.HarmlessFrom fun place => taken (place + 1)
  | _, .nested name inner _ rest, taken =>
      (∃ pushed n, List.Forall₂ (Pushes name) (taken 0) pushed ∧
        (∀ e ∈ pushed, e.2.2.length = n) ∧ ∀ k < n, inner.Harmless (rowAt pushed k)) ∧
      rest.HarmlessFrom fun place => taken (place + 1)
  | _, .flatten _ _ _, _ => False
  | _, .skipped _ _ _ _, _ => False

end

mutual

/-- The struct that the own columns make, in the order of the declaration. -/
def RowType.Decodes : {α : Type} → RowType α → List RawColumn → α → Prop
  | _, .derived _ _ fields, own, x => fields.knownSizes = .ok () ∧ fields.Decodes own x
  | _, .converted _ _ _ _, _, _ => False
  | _, .custom _ _ _, _, _ => False

def Fields.Decodes : {α : Type} → Fields α → List RawColumn → α → Prop
  | _, .nil, own, _ => own = []
  | _, .plain name _ deserializeWith fromSql _ rest, own, x =>
      ∃ c others, own = c :: others ∧ visit name deserializeWith fromSql c = .ok x.1 ∧
        rest.Decodes others x.2
  | _, .nested name inner _ rest, own, x =>
      ∃ group others, own = group ++ others ∧ group.length = inner.names.length ∧
        (∃ pushed, List.Forall₂ (Pushes name) (group.map (Prod.mk .name)) pushed ∧
          (∀ e ∈ pushed, e.2.2.length = x.1.length) ∧
          ∀ k y, x.1[k]? = some y → inner.Decodes (rowAt pushed k) y) ∧
        rest.Decodes others x.2
  | _, .flatten _ _ _, _, _ => False
  | _, .skipped _ _ _ _, _, _ => False

end

theorem forall₂_range {α β : Type} {R : α → β → Prop} {f : Nat → α} {n : Nat} {ys : List β} :
    List.Forall₂ R ((List.range n).map f) ys ↔
      ys.length = n ∧ ∀ k y, ys[k]? = some y → R (f k) y := by
  rw [List.forall₂_iff_get]
  simp only [List.length_map, List.length_range, List.get_eq_getElem, List.getElem_map,
    List.getElem_range]
  constructor
  · rintro ⟨hlen, h⟩
    refine ⟨hlen.symm, fun k y hy => ?_⟩
    obtain ⟨hk, rfl⟩ := List.getElem?_eq_some_iff.mp hy
    exact h k (by omega) hk
  · rintro ⟨rfl, h⟩
    exact ⟨rfl, fun k hk hk' => h k _ (List.getElem?_eq_getElem hk')⟩

theorem Pushes.unique {name : String} {c : Arm × RawColumn}
    {e e' : String × ChType × List Value} (h : Pushes name c e) (h' : Pushes name c e') :
    e = e' := by
  have htype := h.type.symm.trans h'.type
  have hvalue := h.value.symm.trans h'.value
  rw [ChType.array.injEq] at htype
  rw [Value.array.injEq] at hvalue
  exact Prod.ext (h.name.trans h'.name.symm) (Prod.ext htype hvalue)

/-- What is kept of a permutation of columns, own ones first. -/
theorem exists_pushed_own {name : String} {taken own strangers : List (Arm × RawColumn)}
    (hperm : taken.Perm (own ++ strangers)) {pushed : List (String × ChType × List Value)}
    (h : List.Forall₂ (Pushes name) taken pushed) :
    ∃ mine others, pushed.Perm (mine ++ others) ∧ List.Forall₂ (Pushes name) own mine := by
  obtain ⟨all, hall, hpushed⟩ := List.perm_comp_forall₂ hperm.symm h
  refine ⟨all.take own.length, all.drop own.length, ?_, ?_⟩
  · rw [List.take_append_drop]
    exact hpushed.symm
  · have htake := List.forall₂_take own.length hall
    rwa [List.take_left] at htake

theorem rowAt_perm {pushed mine others : List (String × ChType × List Value)}
    (h : pushed.Perm (mine ++ others)) (k : Nat) :
    (rowAt pushed k).Perm (rowAt mine k ++ rowAt others k) := by
  have hmap := h.map fun c => (⟨c.1, c.2.1, c.2.2.getD k .null⟩ : RawColumn)
  rwa [List.map_append] at hmap

theorem pushed_names {name : String} {taken : List (Arm × RawColumn)}
    {pushed : List (String × ChType × List Value)} (h : List.Forall₂ (Pushes name) taken pushed) :
    pushed.map Prod.fst = taken.map (pushedName name) := by
  induction h with
  | nil => rfl
  | cons hce _ ih => rw [List.map_cons, List.map_cons, ih, hce.name]

/-- The own columns of a nested field reach its row type under the names of that type. -/
theorem rowAt_names {name : String} {names : List String} {group : List RawColumn}
    (hgroup : group.map RawColumn.name = names.map (name ++ "." ++ ·))
    {mine : List (String × ChType × List Value)}
    (h : List.Forall₂ (Pushes name) (group.map (Prod.mk .name)) mine) (k : Nat) :
    (rowAt mine k).map RawColumn.name = names := by
  have hpushed : (group.map (Prod.mk Arm.name)).map (pushedName name) =
      (group.map RawColumn.name).map fun s => (stripDotted name s).getD "" := by
    simp [pushedName, Function.comp_def]
  calc (rowAt mine k).map RawColumn.name = mine.map Prod.fst := by
        simp [rowAt, Function.comp_def]
    _ = names := by
        rw [pushed_names h, hpushed, hgroup, List.map_map]
        simp [Function.comp_def, stripDotted_dotted]

/-- A plain field that takes its own column makes its value exactly when it takes no other. -/
theorem plain_makes_iff {A : Type} {name : String} {default : Option A} {deserializeWith : Bool}
    {fromSql : ChType → Value → ColumnResult A} {taken strangers : List (Arm × RawColumn)}
    {c : RawColumn} (hperm : taken.Perm ((.name, c) :: strangers)) {x : A} :
    (∃ slot, foldPlain name deserializeWith fromSql none taken = .ok slot ∧
        extractPlain name default slot = .ok x) ↔
      taken.length = 1 ∧ visit name deserializeWith fromSql c = .ok x := by
  simp only [foldPlain_eq_ok]
  constructor
  · rintro ⟨slot, ⟨rfl, -⟩ | ⟨c', y, rfl, hy, rfl⟩, hx⟩
    · simp at hperm
    · -- The only column is its own.
      have hmem := hperm.mem_iff.mpr List.mem_cons_self
      rw [List.mem_singleton] at hmem
      subst hmem
      cases hx
      exact ⟨rfl, hy⟩
  · rintro ⟨hone, hx⟩
    obtain ⟨c', rfl⟩ := List.length_eq_one_iff.mp hone
    have hmem := hperm.mem_iff.mpr List.mem_cons_self
    rw [List.mem_singleton] at hmem
    subst hmem
    exact ⟨some x, .inr ⟨_, x, rfl, hx, rfl⟩, rfl⟩

section Nested

variable {β : Type} {name : String} {inner : RowType β} {taken : List (Arm × RawColumn)}
  {group : List RawColumn} {strangers : List (Arm × RawColumn)}

/-- A nested field makes its rows exactly when they are harmless and its own columns make them. -/
theorem nested_makes_iff (hsome : group ≠ [])
    (hperm : taken.Perm (group.map (Prod.mk .name) ++ strangers))
    (hgroup : group.map RawColumn.name = inner.names.map (name ++ "." ++ ·))
    (hinner : ∀ {row own others : List RawColumn}, row.Perm (own ++ others) →
      own.map RawColumn.name = inner.names → ∀ {y},
        (inner.deserializeRow row).Returns (.ok y) ↔ inner.Harmless row ∧ inner.Decodes own y)
    {rows : List β} :
    (∃ ext, foldNested name Ext.none taken = .ok ext ∧
        (nestedRectify inner.deserializeRow ext.columns).Returns (.ok rows)) ↔
      (∃ pushed n, List.Forall₂ (Pushes name) taken pushed ∧ (∀ e ∈ pushed, e.2.2.length = n) ∧
        ∀ k < n, inner.Harmless (rowAt pushed k)) ∧
      ∃ pushed, List.Forall₂ (Pushes name) (group.map (Prod.mk .name)) pushed ∧
        (∀ e ∈ pushed, e.2.2.length = rows.length) ∧
        ∀ k y, rows[k]? = some y → inner.Decodes (rowAt pushed k) y := by
  obtain ⟨c, hc⟩ := List.exists_mem_of_ne_nil _ hsome
  have htaken : (Arm.name, c) ∈ taken :=
    hperm.mem_iff.mpr (List.mem_append_left _ (List.mem_map_of_mem hc))
  constructor
  · rintro ⟨ext, hfold, hrows⟩
    obtain ⟨pushed, hpushed, hcolumns⟩ := foldNested_eq_ok hfold
    obtain rfl : ext.columns = pushed := hcolumns
    obtain ⟨mine, others, hmine, hown⟩ := exists_pushed_own hperm hpushed
    have hfirst := (foldNested_length hfold htaken).1
    obtain ⟨hlen, hreturns⟩ := forall₂_range.mp
      (Bounded.returns_traverse_ok.mp ((nestedRectify_returns hfirst).mp hrows))
    -- What is kept of the own columns is the own columns of a row.
    have hrow : ∀ k y, rows[k]? = some y →
        inner.Harmless (rowAt ext.columns k) ∧ inner.Decodes (rowAt mine k) y := fun k y hy =>
      (hinner (rowAt_perm hmine k) (rowAt_names hgroup hown k)).mp (hreturns k y hy)
    refine ⟨⟨ext.columns, ext.len, hpushed, ext.uniform, fun k hk => ?_⟩, mine, hown,
      fun e he => ?_, fun k y hy => (hrow k y hy).2⟩
    · exact (hrow k rows[k] (List.getElem?_eq_getElem (by omega))).1
    · rw [hlen]
      exact ext.uniform e (hmine.mem_iff.mpr (List.mem_append_left _ he))
  · rintro ⟨⟨pushed, n, hpushed, hlen, hharmless⟩, mine, hown, hmine, hdecodes⟩
    obtain ⟨mine', others, hperm', hown'⟩ := exists_pushed_own hperm hpushed
    have hunique : Relator.RightUnique (Pushes name) := fun _ _ _ => Pushes.unique
    obtain rfl : mine' = mine := List.right_unique_forall₂' hunique hown' hown
    -- An own column tells the number of the rows.
    obtain ⟨e, he, -⟩ := exists_of_mem hown (List.mem_map_of_mem hc)
    have hmem : e ∈ pushed := hperm'.mem_iff.mpr (List.mem_append_left _ he)
    have hrows : rows.length = n := (hmine e he).symm.trans (hlen e hmem)
    obtain ⟨ext, hfold, hcolumns⟩ := @exists_foldNested name taken pushed hpushed n Ext.none hlen
    obtain rfl : ext.columns = pushed := hcolumns
    have hext : ext.len = n := (ext.uniform e hmem).symm.trans (hlen e hmem)
    refine ⟨ext, hfold, (nestedRectify_returns (List.ne_nil_of_mem hmem)).mpr ?_⟩
    refine Bounded.returns_traverse_ok.mpr (forall₂_range.mpr ⟨hrows.trans hext.symm, ?_⟩)
    intro k y hy
    have hk : k < n := by
      rw [← hrows]
      exact (List.getElem?_eq_some_iff.mp hy).1
    exact (hinner (rowAt_perm hperm' k) (rowAt_names hgroup hown k)).mpr
      ⟨hharmless k hk, hdecodes k y hy⟩

end Nested

mutual

/-- A struct is decoded from its own columns and others exactly when these are harmless and its
own columns make it. -/
theorem RowType.WellNamed.returns_iff {α : Type} {row : RowType α} (h : row.WellNamed)
    {map own others : List RawColumn} (hmap : map.Perm (own ++ others))
    (hown : own.map RawColumn.name = row.names) {x : α} :
    (row.deserializeRow map).Returns (.ok x) ↔ row.Harmless map ∧ row.Decodes own x :=
  match h with
  | @RowType.WellNamed.derived _ _ fields h => by
      obtain ⟨strangers, htaken⟩ := fields.exists_takesOwn hmap
      rw [RowType.derived_returns_ok]
      constructor
      · rintro ⟨hsizes, pulled, flat', hpulled, -, hmakes⟩
        rw [h.pullFlatten] at hpulled
        cases hpulled
        obtain ⟨hharmless, hdecodes, -⟩ := (h.makes_iff htaken hown).mp hmakes
        exact ⟨hharmless, hsizes, hdecodes⟩
      · rintro ⟨hharmless, hsizes, hdecodes⟩
        exact ⟨hsizes, ([], map), [], h.pullFlatten [] map, nofun,
          (h.makes_iff htaken hown).mpr ⟨hharmless, hdecodes, rfl⟩⟩

theorem Fields.WellNamed.makes_iff : ∀ {α : Type} {fields : Fields α} (_ : fields.WellNamed)
    {own : List RawColumn} {strangers taken : Nat → List (Arm × RawColumn)}
    (_ : fields.TakesOwn own strangers taken) (_ : own.map RawColumn.name = fields.names)
    {flat flat' : Flat} {x : α},
    fields.Makes taken flat x flat' ↔
      fields.HarmlessFrom taken ∧ fields.Decodes own x ∧ flat = flat'
  | _, _, .nil, own, _, _, _, hown, _, _, _ => by
      have hnil : own = [] := List.map_eq_nil_iff.mp hown
      simp [Fields.Makes, Fields.HarmlessFrom, Fields.Decodes, hnil]
  | _, _, .plain hname h, _, _, _, htaken, hown, flat, flat', x => by
      obtain ⟨c, own, rfl, hfirst, hrest, hown⟩ := htaken.exists_plain hown hname
      rw [Fields.Makes, h.makes_iff hrest hown, plain_makes_iff hfirst]
      constructor
      · rintro ⟨⟨hone, hx⟩, hharmless, hdecodes, hflat⟩
        exact ⟨⟨hone, hharmless⟩, ⟨c, own, rfl, hx, hdecodes⟩, hflat⟩
      · rintro ⟨⟨hone, hharmless⟩, ⟨c', own', heq, hx, hdecodes⟩, hflat⟩
        cases heq
        exact ⟨⟨hone, hx⟩, hharmless, hdecodes, hflat⟩
  | _, _, .nested hsome hinner hname h, _, _, _, htaken, hown, flat, flat', x => by
      obtain ⟨group, own, rfl, hlen, hgroup, hfirst, hrest, hown⟩ :=
        htaken.exists_nested hown hname
      have hgroupSome : group ≠ [] := by
        rw [← List.length_pos_iff, hlen]
        exact List.length_pos_iff.mpr hsome
      rw [Fields.Makes, h.makes_iff hrest hown,
        nested_makes_iff hgroupSome hfirst hgroup fun hmap hown => hinner.returns_iff hmap hown]
      constructor
      · rintro ⟨⟨hrows, hmine⟩, hharmless, hdecodes, hflat⟩
        exact ⟨⟨hrows, hharmless⟩, ⟨group, own, rfl, hlen, hmine, hdecodes⟩, hflat⟩
      · rintro ⟨⟨hrows, hharmless⟩, ⟨group', own', heq, hlen', hmine, hdecodes⟩, hflat⟩
        obtain ⟨rfl, rfl⟩ := List.append_inj heq (hlen.trans hlen'.symm)
        exact ⟨⟨hrows, hmine⟩, hharmless, hdecodes, hflat⟩

end

mutual

/-- Own columns alone are harmless when they make a struct. -/
theorem RowType.WellNamed.harmless : ∀ {α : Type} {row : RowType α} (_ : row.WellNamed)
    {map own : List RawColumn} (_ : map.Perm own) (_ : own.map RawColumn.name = row.names)
    {x : α} (_ : row.Decodes own x), row.Harmless map
  | _, _, @RowType.WellNamed.derived _ _ fields h, _, own, hmap, hown, _, hdecodes => by
      have hown : own.map RawColumn.name = fields.names := hown
      have hnamed : ∀ c ∈ own, fields.nameArm c.name ≠ none := fun c hc =>
        h.nameArm_ne_none (hown ▸ List.mem_map_of_mem hc)
      exact h.harmlessFrom (fields.takesOwn_of_names hmap hnamed) hown hdecodes.2

theorem Fields.WellNamed.harmlessFrom : ∀ {α : Type} {fields : Fields α} (_ : fields.WellNamed)
    {own : List RawColumn} {taken : Nat → List (Arm × RawColumn)}
    (_ : fields.TakesOwn own (fun _ => []) taken) (_ : own.map RawColumn.name = fields.names)
    {x : α} (_ : fields.Decodes own x), fields.HarmlessFrom taken
  | _, _, .nil, _, _, _, _, _, _ => trivial
  | _, _, .plain hname h, _, _, htaken, hown, _, hdecodes => by
      obtain ⟨c, own, rfl, hfirst, hrest, hown⟩ := htaken.exists_plain hown hname
      obtain ⟨_, _, heq, -, hdecodes⟩ := hdecodes
      cases heq
      exact ⟨hfirst.length_eq, h.harmlessFrom hrest hown hdecodes⟩
  | _, _, .nested _ hinner hname h, _, _, htaken, hown, x, hdecodes => by
      obtain ⟨group, own, rfl, hlen, hgroup, hfirst, hrest, hown⟩ :=
        htaken.exists_nested hown hname
      obtain ⟨group', own', heq, hlen', ⟨mine, hmine, hrows, hinnerDecodes⟩, hdecodes⟩ := hdecodes
      obtain ⟨rfl, rfl⟩ := List.append_inj heq (hlen.trans hlen'.symm)
      rw [List.append_nil] at hfirst
      obtain ⟨pushed, hpushed, hperm⟩ := List.perm_comp_forall₂ hfirst hmine
      refine ⟨⟨pushed, x.1.length, hpushed, fun e he => hrows e (hperm.mem_iff.mp he),
        fun k hk => ?_⟩, h.harmlessFrom hrest hown hdecodes⟩
      have hrow : (rowAt pushed k).Perm (rowAt mine k) := hperm.map _
      exact hinner.harmless hrow (rowAt_names hgroup hmine k)
        (hinnerDecodes k _ (List.getElem?_eq_getElem hk))

end

/-! ## The decoding ends -/

theorem Fields.WellNamed.not_buildStarves {α : Type} {fields : Fields α} (h : fields.WellNamed)
    (flat : Flat) : ¬ fields.BuildStarves flat :=
  match h with
  | .nil => not_false
  | .plain _ h => h.not_buildStarves flat
  | .nested _ _ _ h => h.not_buildStarves flat

mutual

/-- Every nested field has taken its own columns, so none starves. -/
theorem RowType.WellNamed.not_starves : ∀ {α : Type} {row : RowType α} (_ : row.WellNamed)
    {map own others : List RawColumn} (_ : map.Perm (own ++ others))
    (_ : own.map RawColumn.name = row.names), ¬ row.Starves map
  | _, _, @RowType.WellNamed.derived _ _ fields h, _, _, _, hmap, hown => by
      obtain ⟨strangers, htaken⟩ := fields.exists_takesOwn hmap
      rintro ⟨pulled, slots, -, hpulled, hslots, hstarves⟩
      rw [h.pullFlatten] at hpulled
      cases hpulled
      obtain ⟨-, htakes⟩ := Fields.matchKeys_eq_ok.mp hslots
      rcases hstarves with hstarves | ⟨_, _, -, -, hstarves⟩
      · exact h.not_rectifyStarves htaken hown htakes hstarves
      · exact h.not_buildStarves _ hstarves

theorem Fields.WellNamed.not_rectifyStarves : ∀ {α : Type} {fields : Fields α}
    (_ : fields.WellNamed) {own : List RawColumn} {strangers taken : Nat → List (Arm × RawColumn)}
    (_ : fields.TakesOwn own strangers taken) (_ : own.map RawColumn.name = fields.names)
    {slots : fields.Slots} (_ : fields.Takes taken fields.noSlots slots),
    ¬ fields.RectifyStarves slots
  | _, _, .nil, _, _, _, _, _, _, _ => not_false
  | _, _, .plain hname h, _, _, _, htaken, hown, _, htakes => by
      obtain ⟨c, own, rfl, -, hrest, hown⟩ := htaken.exists_plain hown hname
      exact h.not_rectifyStarves hrest hown htakes.2
  | _, _, .nested hsome hinner hname h, _, _, _, htaken, hown, slots, htakes => by
      obtain ⟨group, own, rfl, hlen, hgroup, hfirst, hrest, hown⟩ :=
        htaken.exists_nested hown hname
      obtain ⟨pushed, hpushed, hcolumns⟩ := foldNested_eq_ok htakes.1
      have hcolumns : slots.1.columns = pushed := hcolumns
      obtain ⟨mine, others, hperm, hmine⟩ := exists_pushed_own hfirst hpushed
      -- The columns of its group are among those that the field has taken.
      have hgroupSome : 0 < slots.1.columns.length := by
        rw [hcolumns, hperm.length_eq, List.length_append, ← hmine.length_eq, List.length_map, hlen]
        exact Nat.add_pos_left (List.length_pos_iff.mpr hsome) _
      rintro (⟨hnone, -⟩ | ⟨-, before, row, after, hrows, -, hstarves⟩ | ⟨-, hstarves⟩)
      · rw [hnone] at hgroupSome
        exact absurd hgroupSome (Nat.lt_irrefl 0)
      · have hrow : row ∈ slots.1.rows := by rw [hrows]; simp
        obtain ⟨k, -, rfl⟩ := List.mem_map.mp hrow
        rw [hcolumns] at hstarves
        exact hinner.not_starves (rowAt_perm hperm k) (rowAt_names hgroup hmine k) hstarves
      · exact h.not_rectifyStarves hrest hown htakes.2 hstarves

end

end Derive

end ClickhouseArrow
