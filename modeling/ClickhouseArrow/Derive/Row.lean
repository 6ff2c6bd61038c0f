import ClickhouseArrow.Values.NestedSql
import ClickhouseArrow.Values.RawRow
import ClickhouseArrow.Wire.Bounded

/-!
# The generated `deserialize_row`

What `derive(Row)` generates for a struct, as a function of its fields.  A column is taken by the
field whose name arm matches its name, else by the field whose index arm matches its position;
then every nested field builds its rows from the columns it has taken, the values of the fields
are extracted, and the struct is built.  The loop over the rows of a nested field has no bound of
its own.
-/

namespace ClickhouseArrow

open Wire

/-- `Value::unarray`. -/
def Value.unarray : Value → Option (List Value)
  | .array a => some a
  | _ => none

namespace Derive

/-! ## Errors -/

/-- The variants of `Error` that name a field or a column, and the others. -/
inductive ColumnError
  | missingField (name : String)
  | duplicateField (name : String)
  | unknownField (name : String)
  | unexpectedTypeWithColumn (column : String) (t : ChType)
  | deserializeErrorWithColumn (column : String) (msg : List Fragment)
  | other (e : Error)

abbrev ColumnResult (α : Type) := Outcome ColumnError α

/-- `with_column_name`. -/
def ColumnError.withColumnName (name : String) : ColumnError → ColumnError
  | .other (.deserializeError msg) => .deserializeErrorWithColumn name msg
  | .other (.unexpectedType t) => .unexpectedTypeWithColumn name t
  | e => e

/-- The `FromSql` of a standard type. -/
def ofSqlType {A : Type} (s : SqlType A) (t : ChType) (value : Value) : ColumnResult A :=
  match s.fromSql t value with
  | .ok x => .ok x
  | .error (.error e) => .fail (.other e)
  | .error (.panic p) => .panic p

/-- `result.map_err(|e| e.with_column_name(name))`. -/
def withColumnName {α : Type} (name : String) : ColumnResult α → ColumnResult α
  | .error (.error e) => .fail (e.withColumnName name)
  | r => r

/-! ## Declarations -/

mutual

/-- A type that implements `Row`. -/
inductive RowType : Type → Type 1
  /-- A struct with derived implementations.  `into` is set when it has an attribute of that
  name, `deny` when it has `deny_unknown_fields`. -/
  | derived {α : Type} (into deny : Bool) (fields : Fields α) : RowType α
  /-- A struct with an attribute `from` or `try_from`. -/
  | converted {α β : Type} (columnCount : Option Nat) (columnNames : Option (List String))
      (source : RowType β) (convert : β → ColumnResult α) : RowType α
  /-- A type with an implementation of its own. -/
  | custom {α : Type} (columnCount : Option Nat) (columnNames : Option (List String))
      (deserializeRow : List RawColumn → ColumnResult α) : RowType α

/-- The fields of a struct, from the first one on.  The default of a field is its own or that of
the struct; `serialized` is unset by `skip_serializing`. -/
inductive Fields : Type → Type 1
  | nil : Fields Unit
  /-- `deserializeWith` is set when `fromSql` is the function of that attribute. -/
  | plain {A α : Type} (name : String) (default : Option A) (deserializeWith : Bool)
      (fromSql : ChType → Value → ColumnResult A) (serialized : Bool) (rest : Fields α) :
      Fields (A × α)
  | nested {β α : Type} (name : String) (inner : RowType β) (serialized : Bool)
      (rest : Fields α) : Fields (List β × α)
  | flatten {β α : Type} (ident : String) (inner : RowType β) (rest : Fields α) :
      Fields (β × α)
  /-- A field that is not deserialized, with the columns it is serialized to. -/
  | skipped {A α : Type} (columnCount : Option Nat) (columnNames : Option (List String))
      (value : A) (rest : Fields α) : Fields (A × α)

end

/-- `fields.iter().any(|f| f.attrs.flatten())`. -/
def Fields.hasFlatten : {α : Type} → Fields α → Bool
  | _, .nil => false
  | _, .plain _ _ _ _ _ rest => rest.hasFlatten
  | _, .nested _ _ _ rest => rest.hasFlatten
  | _, .flatten _ _ _ => true
  | _, .skipped _ _ _ rest => rest.hasFlatten

mutual

/-- `COLUMN_COUNT`. -/
def RowType.columnCount : {α : Type} → RowType α → Option Nat
  | _, .derived into _ fields => if into || fields.hasFlatten then none else fields.columnCount
  | _, .converted count _ _ _ => count
  | _, .custom count _ _ => count

/-- The columns of a struct without a flattened field. -/
def Fields.columnCount : {α : Type} → Fields α → Option Nat
  | _, .nil => some 0
  | _, .plain _ _ _ _ serialized rest => do
      let n ← rest.columnCount
      some (if serialized then n + 1 else n)
  | _, .nested _ inner serialized rest => do
      let n ← rest.columnCount
      if serialized then some (n + (← inner.columnCount)) else some n
  | _, .flatten _ _ rest => rest.columnCount
  | _, .skipped count _ _ rest => do
      let n ← rest.columnCount
      some (n + (← count))

end

mutual

/-- `column_names`. -/
def RowType.columnNames : {α : Type} → RowType α → Option (List String)
  | _, .derived into _ fields => if into then none else fields.columnNames
  | _, .converted _ names _ _ => names
  | _, .custom _ names _ => names

def Fields.columnNames : {α : Type} → Fields α → Option (List String)
  | _, .nil => some []
  | _, .plain name _ _ _ serialized rest => do
      let names ← rest.columnNames
      some (if serialized then name :: names else names)
  | _, .nested name inner serialized rest =>
      if serialized then do
        let inner ← inner.columnNames
        let names ← rest.columnNames
        some (inner.map (name ++ "." ++ ·) ++ names)
      else rest.columnNames
  | _, .flatten _ inner rest => do
      let inner ← inner.columnNames
      let names ← rest.columnNames
      some (inner ++ names)
  | _, .skipped _ names _ rest => do
      let names ← names
      let rest ← rest.columnNames
      some (names ++ rest)

end

/-! ## Match arms -/

/-- `strip_prefix` of the name of a nested field and a dot. -/
def stripDotted (name full : String) : Option String :=
  (List.isPrefixOf? (name.toList ++ ['.']) full.toList).map String.ofList

/-- The place of the field whose name arm comes first among those that match. -/
def Fields.nameArm : {α : Type} → Fields α → String → Option Nat
  | _, .nil, _ => none
  | _, .plain name _ _ _ _ rest, s => if s = name then some 0 else (rest.nameArm s).map (· + 1)
  | _, .nested name _ _ rest, s =>
      if (stripDotted name s).isSome then some 0 else (rest.nameArm s).map (· + 1)
  | _, .flatten _ _ rest, s => (rest.nameArm s).map (· + 1)
  | _, .skipped _ _ _ rest, s => (rest.nameArm s).map (· + 1)

/-- The place of the field whose index arm matches, with `current_index` at the first field. -/
def Fields.indexArm : {α : Type} → Fields α → Nat → Nat → Option Nat
  | _, .nil, _, _ => none
  | _, .plain _ _ _ _ _ rest, current, x =>
      if x = current then some 0 else (rest.indexArm (current + 1) x).map (· + 1)
  | _, .nested _ inner _ rest, current, x =>
      let size := inner.columnCount.getD 0
      if current ≤ x ∧ x < current + size then some 0
      else (rest.indexArm (current + size) x).map (· + 1)
  | _, .flatten _ _ rest, current, x => (rest.indexArm current x).map (· + 1)
  | _, .skipped _ _ _ rest, current, x => (rest.indexArm current x).map (· + 1)

/-- Which kind of arm matches a column. -/
inductive Arm
  | name
  | index
  deriving DecidableEq

/-- The field that takes the column at a position, and by which arm. -/
def Fields.arm {α : Type} (fields : Fields α) (index : Nat) (name : String) : Option (Nat × Arm) :=
  match fields.nameArm name with
  | some place => some (place, .name)
  | none =>
      -- Index-based matching is disabled with flattening.
      if fields.hasFlatten then none
      else (fields.indexArm 0 index).map (·, .index)

/-- The columns a nested field has taken, with their iterators, and the length of them all. -/
structure Ext where
  columns : List (String × ChType × List Value)
  len : Nat
  uniform : ∀ c ∈ columns, c.2.2.length = len

namespace Ext

/-- No column has been taken. -/
def none : Ext := ⟨[], 0, nofun⟩

/-- The first column sets the length, and the check compares the others with it. -/
theorem uniform_push (ext : Ext) (pushed : String) (t : ChType) {values : List Value}
    (h : ¬ (ext.columns ≠ [] ∧ ext.len ≠ values.length)) :
    ∀ c ∈ ext.columns ++ [(pushed, t, values)],
      c.2.2.length = if ext.columns = [] then values.length else ext.len := by
  intro c hc
  rw [not_and_not_right] at h
  rcases List.mem_append.mp hc with hc | hc
  · have hsome : ext.columns ≠ [] := List.ne_nil_of_mem hc
    rw [if_neg hsome, ext.uniform c hc]
  · rw [List.mem_singleton] at hc
    subst hc
    split
    · rfl
    · next hsome => exact (h hsome).symm

/-- The body of an arm of a nested field. -/
def take (ext : Ext) (pushed : String) (column : RawColumn) : ColumnResult Ext :=
  match column.value.unarray with
  | .none => .fail (.unexpectedTypeWithColumn column.name column.type)
  | some values =>
      if h : ext.columns ≠ [] ∧ ext.len ≠ values.length then
        .fail (.other (.deserializeError
          [.text "invalid length for nested columns, mismatches previous column ",
            .text column.name, .text ": ", .number ext.len, .text " != ", .number values.length]))
      else
        match column.type.unarray with
        | .none => .fail (.unexpectedTypeWithColumn column.name column.type)
        | some t =>
            .ok ⟨ext.columns ++ [(pushed, t, values)],
              if ext.columns = [] then values.length else ext.len, ext.uniform_push pushed t h⟩

end Ext

/-- The value that a plain field makes of a column. -/
def visit {A : Type} (name : String) (deserializeWith : Bool)
    (fromSql : ChType → Value → ColumnResult A) (column : RawColumn) : ColumnResult A :=
  if deserializeWith then fromSql column.type column.value
  else withColumnName name (fromSql column.type column.value)

/-- The body of an arm of a plain field. -/
def takePlain {A : Type} (name : String) (deserializeWith : Bool)
    (fromSql : ChType → Value → ColumnResult A) (slot : Option A) (column : RawColumn) :
    ColumnResult (Option A) :=
  if slot.isSome then .fail (.duplicateField name)
  else do
    let x ← visit name deserializeWith fromSql column
    .ok (some x)

/-- What has been taken for each field that is deserialized. -/
def Fields.Slots : {α : Type} → Fields α → Type
  | _, .nil => Unit
  | _, .plain (A := A) _ _ _ _ _ rest => Option A × rest.Slots
  | _, .nested _ _ _ rest => Ext × rest.Slots
  | _, .flatten _ _ rest => rest.Slots
  | _, .skipped _ _ _ rest => rest.Slots

/-- Nothing has been taken yet. -/
def Fields.noSlots : {α : Type} → (fields : Fields α) → fields.Slots
  | _, .nil => ()
  | _, .plain _ _ _ _ _ rest => (none, rest.noSlots)
  | _, .nested _ _ _ rest => (Ext.none, rest.noSlots)
  | _, .flatten _ _ rest => rest.noSlots
  | _, .skipped _ _ _ rest => rest.noSlots

/-- The body of the arm of the field at a place. -/
def Fields.take : {α : Type} → (fields : Fields α) → Nat → Arm → RawColumn → fields.Slots →
    ColumnResult fields.Slots
  | _, .nil, _, _, _, slots => .ok slots
  | _, .plain name _ deserializeWith fromSql _ _, 0, _, column, slots => do
      let slot ← takePlain name deserializeWith fromSql slots.1 column
      .ok (slot, slots.2)
  | _, .nested name _ _ _, 0, arm, column, slots => do
      -- The index arm pushes the whole name.
      let pushed := if arm = .name then (stripDotted name column.name).getD "" else column.name
      let ext ← slots.1.take pushed column
      .ok (ext, slots.2)
  | _, .flatten _ _ _, 0, _, _, slots => .ok slots
  | _, .skipped _ _ _ _, 0, _, _, slots => .ok slots
  | _, .plain _ _ _ _ _ rest, place + 1, arm, column, slots => do
      let others ← rest.take place arm column slots.2
      .ok (slots.1, others)
  | _, .nested _ _ _ rest, place + 1, arm, column, slots => do
      let others ← rest.take place arm column slots.2
      .ok (slots.1, others)
  | _, .flatten _ _ rest, place + 1, arm, column, slots => rest.take place arm column slots
  | _, .skipped _ _ _ rest, place + 1, arm, column, slots => rest.take place arm column slots

/-- `match_keys` for the column at a position. -/
def Fields.matchKey {α : Type} (fields : Fields α) (deny : Bool) (index : Nat)
    (column : RawColumn) (slots : fields.Slots) : ColumnResult fields.Slots :=
  match fields.arm index column.name with
  | some (place, arm) => fields.take place arm column slots
  | none =>
      if deny && !fields.hasFlatten then .fail (.unknownField column.name) else .ok slots

/-- `match_keys` for the columns from a position on. -/
def Fields.matchKeys {α : Type} (fields : Fields α) (deny : Bool) :
    Nat → List RawColumn → fields.Slots → ColumnResult fields.Slots
  | _, [], slots => .ok slots
  | index, column :: map, slots => do
      let slots ← fields.matchKey deny index column slots
      fields.matchKeys deny (index + 1) map slots

/-! ## Flattened fields -/

/-- `map_flattened_fields`. -/
abbrev Flat := List (String × ChType × Value)

/-- `swap_remove`. -/
def swapRemove (map : List RawColumn) (idx : Nat) : List RawColumn :=
  match map.getLast? with
  | none => []
  | some last => (map.set idx last).dropLast

/-- Move the columns of one flattened field. -/
def pullColumns (ident : String) : List String → Flat → List RawColumn →
    ColumnResult (Flat × List RawColumn)
  | [], flat, map => .ok (flat, map)
  | c :: names, flat, map =>
      match map.find? (·.name == c) with
      | none => .fail (.missingField ("Flattened field " ++ ident ++ " has missing column"))
      | some column =>
          pullColumns ident names (setEntry column.name (column.type, column.value) flat)
            (swapRemove map (map.findIdx (·.name == c)))

/-- Move the columns of the flattened fields, before the others are matched. -/
def Fields.pullFlatten : {α : Type} → Fields α → Flat → List RawColumn →
    ColumnResult (Flat × List RawColumn)
  | _, .nil, flat, map => .ok (flat, map)
  | _, .plain _ _ _ _ _ rest, flat, map => rest.pullFlatten flat map
  | _, .nested _ _ _ rest, flat, map => rest.pullFlatten flat map
  | _, .flatten ident inner rest, flat, map => do
      match inner.columnNames with
      | none => .fail (.other (.deserializeError
          [.text "Flattened field ", .text ident, .text " should provide Row::column_names"]))
      | some names =>
          let pulled ← pullColumns ident names flat map
          rest.pullFlatten pulled.1 pulled.2
  | _, .skipped _ _ _ rest, flat, map => rest.pullFlatten flat map

/-- `remove_entry` and `unwrap` for each of the names. -/
def removeEntries : List String → Flat → ColumnResult (List RawColumn × Flat)
  | [], flat => .ok ([], flat)
  | c :: names, flat =>
      match flat.find? (·.1 == c) with
      | none => .panic .unwrapNone
      | some (c, type, value) => do
          let rest ← removeEntries names (flat.filter (·.1 != c))
          .ok (⟨c, type, value⟩ :: rest.1, rest.2)

/-! ## Nested fields -/

/-- `COLUMN_COUNT.expect("nested structure must have known length")` for each nested field. -/
def Fields.knownSizes : {α : Type} → Fields α → ColumnResult Unit
  | _, .nil => .ok ()
  | _, .plain _ _ _ _ _ rest => rest.knownSizes
  | _, .nested _ inner _ rest =>
      if inner.columnCount.isSome then rest.knownSizes else .panic .unwrapNone
  | _, .flatten _ _ rest => rest.knownSizes
  | _, .skipped _ _ _ rest => rest.knownSizes

/-- The next value of each iterator, unless one of them is exhausted. -/
def nextRow : List (String × ChType × List Value) →
    Option (List RawColumn × List (String × ChType × List Value))
  | [] => some ([], [])
  | (_, _, []) :: _ => none
  | (name, type, x :: values) :: columns => do
      let (temp, columns) ← nextRow columns
      some (⟨name, type, x⟩ :: temp, (name, type, values) :: columns)

/-- One turn of the loop over the rows of a nested field. -/
def rectifyTurn {β : Type} (deserializeRow : List RawColumn → Bounded ColumnError β)
    (state : List (String × ChType × List Value) × List β) :
    Bounded ColumnError ((List (String × ChType × List Value) × List β) ⊕ List β) :=
  match nextRow state.1 with
  | none => pure (.inr state.2)
  | some (temp, columns) => do
      let x ← deserializeRow temp
      pure (.inl (columns, state.2 ++ [x]))

/-- `nested_rectify`: the rows of a nested field, until one of the iterators is exhausted. -/
def nestedRectify {β : Type} (deserializeRow : List RawColumn → Bounded ColumnError β)
    (columns : List (String × ChType × List Value)) : Bounded ColumnError (List β) :=
  Bounded.loop (rectifyTurn deserializeRow) (columns, [])

/-- The fields after `nested_rectify`. -/
def Fields.Filled : {α : Type} → Fields α → Type
  | _, .nil => Unit
  | _, .plain (A := A) _ _ _ _ _ rest => Option A × rest.Filled
  | _, .nested (β := β) _ _ _ rest => List β × rest.Filled
  | _, .flatten _ _ rest => rest.Filled
  | _, .skipped _ _ _ rest => rest.Filled

/-- The fields after `extract_values`. -/
def Fields.Extracted : {α : Type} → Fields α → Type
  | _, .nil => Unit
  | _, .plain (A := A) _ _ _ _ _ rest => A × rest.Extracted
  | _, .nested (β := β) _ _ _ rest => List β × rest.Extracted
  | _, .flatten _ _ rest => rest.Extracted
  | _, .skipped _ _ _ rest => rest.Extracted

/-- The value of a plain field, or its default. -/
def extractPlain {A : Type} (name : String) (default slot : Option A) : ColumnResult A :=
  match slot, default with
  | some x, _ => .ok x
  | none, some x => .ok x
  | none, none => .fail (.missingField name)

/-- `extract_values`. -/
def Fields.extract : {α : Type} → (fields : Fields α) → fields.Filled →
    ColumnResult fields.Extracted
  | _, .nil, filled => .ok filled
  | _, .plain name default _ _ _ rest, filled => do
      let x ← extractPlain name default filled.1
      let values ← rest.extract filled.2
      .ok (x, values)
  | _, .nested _ _ _ rest, filled => do
      let values ← rest.extract filled.2
      .ok (filled.1, values)
  | _, .flatten _ _ rest, filled => rest.extract filled
  | _, .skipped _ _ _ rest, filled => rest.extract filled

/-! ## The generated function -/

mutual

/-- `deserialize_row`. -/
def RowType.deserializeRow : {α : Type} → RowType α → List RawColumn → Bounded ColumnError α
  | _, .derived _ deny fields, map => do
      let _ ← .ofOutcome fields.knownSizes
      let pulled ← .ofOutcome (fields.pullFlatten [] map)
      let slots ← .ofOutcome (fields.matchKeys deny 0 pulled.2 fields.noSlots)
      let filled ← fields.rectify slots
      let values ← .ofOutcome (fields.extract filled)
      let built ← fields.build values pulled.1
      pure built.1
  | _, .converted _ _ source convert, map => do
      let v ← source.deserializeRow map
      .ofOutcome (convert v)
  | _, .custom _ _ deserializeRow, map => .ofOutcome (deserializeRow map)

/-- `nested_rectify` of every nested field. -/
def Fields.rectify : {α : Type} → (fields : Fields α) → fields.Slots →
    Bounded ColumnError fields.Filled
  | _, .nil, slots => pure slots
  | _, .plain _ _ _ _ _ rest, slots => do
      let filled ← rest.rectify slots.2
      pure (slots.1, filled)
  | _, .nested _ inner _ rest, slots => do
      let rows ← nestedRectify (fun temp => inner.deserializeRow temp) slots.1.columns
      let filled ← rest.rectify slots.2
      pure (rows, filled)
  | _, .flatten _ _ rest, slots => rest.rectify slots
  | _, .skipped _ _ _ rest, slots => rest.rectify slots

/-- The struct, with what is left of the flattened columns. -/
def Fields.build : {α : Type} → (fields : Fields α) → fields.Extracted → Flat →
    Bounded ColumnError (α × Flat)
  | _, .nil, values, flat => pure (values, flat)
  | _, .plain _ _ _ _ _ rest, values, flat => do
      let others ← rest.build values.2 flat
      pure ((values.1, others.1), others.2)
  | _, .nested _ _ _ rest, values, flat => do
      let others ← rest.build values.2 flat
      pure ((values.1, others.1), others.2)
  | _, .flatten _ inner rest, values, flat => do
      let map2 ← .ofOutcome (removeEntries (inner.columnNames.getD []) flat)
      let x ← inner.deserializeRow map2.1
      let others ← rest.build values map2.2
      pure ((x, others.1), others.2)
  | _, .skipped _ _ value rest, values, flat => do
      let others ← rest.build values flat
      pure ((value, others.1), others.2)

end

end Derive

end ClickhouseArrow
