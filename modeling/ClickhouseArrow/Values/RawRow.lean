import ClickhouseArrow.Transition.Machine
import ClickhouseArrow.Native.Types

/-!
# Raw rows

A row whose columns are fetched one at a time, by number or by name.  A column that has been
fetched leaves a hole behind; the hole keeps its number and forgets its name, and is found
under the empty name from then on.  The number of columns itself counts as a number of the
row, where there is no column to fetch.
-/

namespace ClickhouseArrow

open Wire Transition

namespace Value

mutual

/-- `Value::guess_type`. -/
def guessType : Value → ChType
  | int8 _ => .int8
  | int16 _ => .int16
  | int32 _ => .int32
  | int64 _ => .int64
  | int128 _ => .int128
  | int256 _ => .int256
  | uint8 _ => .uint8
  | uint16 _ => .uint16
  | uint32 _ => .uint32
  | uint64 _ => .uint64
  | uint128 _ => .uint128
  | uint256 _ => .uint256
  | float32 _ => .float32
  | float64 _ => .float64
  | decimal32 p _ => .decimal32 p
  | decimal64 p _ => .decimal64 p
  | decimal128 p _ => .decimal128 p
  | decimal256 p _ => .decimal256 p
  | string _ => .string
  | uuid _ => .uuid
  | date _ => .date
  | date32 _ => .date32
  | dateTime tz _ => .dateTime tz
  | dateTime64 tz _ precision => .dateTime64 precision tz
  | enum8 _ i => .enum8 [("", i)]
  | enum16 _ i => .enum16 [("", i)]
  | array items => .array (guessFirst items)
  | tuple items => .tuple (guessTypes items)
  | null => .nullable .string
  | map keys values => .map (guessFirst keys) (guessFirst values)
  | ipv4 _ => .ipv4
  | ipv6 _ => .ipv6
  | point _ => .point
  | ring _ => .ring
  | polygon _ => .polygon
  | multiPolygon _ => .multiPolygon
  | object _ => .object

/-- `first().map_or(Type::String, Value::guess_type)`. -/
def guessFirst : List Value → ChType
  | [] => .string
  | value :: _ => guessType value

/-- `guess_type` of each value. -/
def guessTypes : List Value → List ChType
  | [] => []
  | value :: values => guessType value :: guessTypes values

end

end Value

/-- The errors that a row returns by itself, and those of a conversion. -/
inductive RowError
  | outOfBounds
  | doubleFetch
  | other (e : Error)

/-- A column of a row. -/
structure RawColumn where
  name : String
  type : ChType
  value : Value

/-- `RawRow`; a column that has been fetched is a hole. -/
abbrev RawRow := List (Option RawColumn)

/-- The types that are a `RowIndex`. -/
inductive RowIndex
  | number (n : Nat)
  | name (s : String)

/-- `RowIndex::get`. -/
def RowIndex.get (columns : List String) : RowIndex → Option Nat
  | number n => if columns.length ≥ n then some n else none
  | name s => columns.findIdx? fun x => x == s

namespace RawRow

/-- The names that a look-up goes through: that of a hole is empty. -/
def columnNames (row : RawRow) : List String := row.map fun x => x.elim "" RawColumn.name

variable {ρ : Type}

/-- `try_get`, and the row it leaves. -/
def tryGet (row : RawRow) (index : RowIndex) (fromSql : ChType → Value → Outcome RowError ρ) :
    Outcome RowError ρ × RawRow :=
  match index.get (columnNames row) with
  | none => (.fail .outOfBounds, row)
  | some i =>
    match row[i]? with
    | none => (.panic .unwrapNone, row)
    | some none => (.fail .doubleFetch, row)
    | some (some column) => (fromSql column.type column.value, row.set i none)

/-- `try_set_typed`, and the row it leaves. -/
def trySetTyped (row : RawRow) (name : String) (type : Option ChType)
    (toSql : Option ChType → Outcome RowError Value) : Outcome RowError Unit × RawRow :=
  match toSql type with
  | .error fault => (.error fault, row)
  | .ok value =>
    let type := type.getD value.guessType
    match (columnNames row).findIdx? fun x => x == name with
    | none => (.ok (), row ++ [some { name, type, value }])
    | some currentPosition =>
      match row[currentPosition]? with
      | some (some column) => (.ok (), row.set currentPosition (some { column with type, value }))
      | _ => (.panic .unwrapNone, row)

/-- `try_set`. -/
def trySet (row : RawRow) (name : String) (toSql : Option ChType → Outcome RowError Value) :
    Outcome RowError Unit × RawRow :=
  trySetTyped row name none toSql

/-! ## Histories -/

/-- The calls, with the conversions of the types they are made for.  Their results are of one
type, which holds whatever the calls ask for. -/
inductive Call (ρ : Type)
  | tryGet (index : RowIndex) (fromSql : ChType → Value → Outcome RowError ρ)
  | trySet (name : String) (toSql : Option ChType → Outcome RowError Value)
  | trySetTyped (name : String) (type : Option ChType)
      (toSql : Option ChType → Outcome RowError Value)

/-- What a call ends with. -/
inductive Answer (ρ : Type)
  | got (r : Outcome RowError ρ)
  | wasSet (r : Outcome RowError Unit)

/-- The call does not panic. -/
def Answer.NoPanic : Answer ρ → Prop
  | got r => r.NoPanic
  | wasSet r => r.NoPanic

/-- The row as a machine.  A caller may catch a panic, and go on with the row that is left. -/
def machine : Machine RawRow (Call ρ) (Answer ρ)
  | row, .tryGet index fromSql =>
      some ((row.tryGet index fromSql).2, [.got (row.tryGet index fromSql).1])
  | row, .trySet name toSql =>
      some ((row.trySet name toSql).2, [.wasSet (row.trySet name toSql).1])
  | row, .trySetTyped name type toSql =>
      some ((row.trySetTyped name type toSql).2, [.wasSet (row.trySetTyped name type toSql).1])

/-- A move of a row. -/
abbrev RowMove (ρ : Type) := Move RawRow (Call ρ) (Answer ρ)

/-- The row has a column of the name at the index. -/
def Present (row : RawRow) (i : Nat) (name : String) : Prop :=
  ∃ column, row[i]? = some (some column) ∧ column.name = name

/-- The column at the index has been fetched. -/
def Taken (row : RawRow) (i : Nat) : Prop := row[i]? = some none

/-- The column that is asked for has been fetched already; by a name, a column that had the
name earlier, where none has it now. -/
def AlreadyTaken (past : List (RowMove ρ)) (row : RawRow) : RowIndex → Prop
  | .number n => Taken row n
  | .name s => (∃ v ∈ past, ∃ i, Present v.before i s ∧ Taken row i) ∧ ∀ i, ¬ Present row i s

/-- The call sets a column of the name. -/
def Sets (name : String) : Call ρ → Prop
  | .tryGet _ _ => False
  | .trySet s _ => s = name
  | .trySetTyped s _ _ => s = name

/-- The move returns the value of the column at the index, and takes it. -/
def Returns (i : Nat) (v : RowMove ρ) : Prop :=
  ∃ index fromSql column r, v.input = .tryGet index fromSql ∧
    v.before[i]? = some (some column) ∧ fromSql column.type column.value = .ok r ∧
    v.out = [.got (.ok r)] ∧ Taken v.after i

/-- A move after others, as it should be. -/
structure SafeMove (past : List (RowMove ρ)) (v : RowMove ρ) : Prop where
  noPanic : ∀ answer ∈ v.out, answer.NoPanic
  outOfBounds : ∀ n fromSql, v.input = .tryGet (.number n) fromSql → v.before.length ≤ n →
    v.out = [.got (.fail .outOfBounds)]
  doubleFetch : ∀ index fromSql, v.input = .tryGet index fromSql →
    AlreadyTaken past v.before index → v.out = [.got (.fail .doubleFetch)]
  returns : ∀ r, v.out = [.got (.ok r)] → ∃ i, Returns i v
  setsItsColumn : ∀ (name : String) (i : Nat), Sets name v.input → v.after[i]? ≠ v.before[i]? →
    Present v.after i name ∧ (v.before[i]? = none ∨ Present v.before i name)
  setsOneColumn : ∀ (name : String) (i j : Nat), Sets name v.input → v.after[i]? ≠ v.before[i]? →
    v.after[j]? ≠ v.before[j]? → i = j

/-- A run of a row as it should be: each move, and no column returns its value twice.  A name
that is set again after its column was fetched gets a new column. -/
structure Safe (start : RawRow) (calls : List (Call ρ)) : Prop where
  moves : ∀ past v future, machine.moves start calls = past ++ v :: future → SafeMove past v
  once : ∀ past v between w future i,
    machine.moves start calls = past ++ v :: (between ++ w :: future) → Returns i v → ¬ Returns i w

/-- Under the empty name a hole is found. -/
def HoleFirst (row : RawRow) : Prop :=
  ∃ i, (RowIndex.name "").get (columnNames row) = some i ∧ Taken row i

/-- A set that reaches the row: its conversion does not panic, and with a value for the empty
name no hole is found. -/
def SetMeets (row : RawRow) (name : String) (converted : Outcome RowError Value) : Prop :=
  converted.NoPanic ∧ (name = "" → (∃ value, converted = .ok value) → ¬ HoleFirst row)

/-- The condition on a call: the number is not the number of columns, no column of the name
has been taken unless the name is empty, and no conversion that is made panics. -/
def Meets (past : List (RowMove ρ)) (row : RawRow) : Call ρ → Prop
  | .tryGet index fromSql =>
      index ≠ .number row.length ∧
      (∀ s, index = .name s → s ≠ "" → ¬ AlreadyTaken past row index) ∧
      ∀ i column, index.get (columnNames row) = some i → row[i]? = some (some column) →
        (fromSql column.type column.value).NoPanic
  | .trySet name toSql => SetMeets row name (toSql none)
  | .trySetTyped name type toSql => SetMeets row name (toSql type)

variable {row : RawRow} {s : String} {i : Nat}

/-! ## Looking up a column -/

theorem getElem?_columnNames (row : RawRow) (i : Nat) :
    (columnNames row)[i]? = row[i]?.map fun x => x.elim "" RawColumn.name := by
  simp [columnNames]

@[simp] theorem length_columnNames (row : RawRow) : (columnNames row).length = row.length := by
  simp [columnNames]

/-- **A column of the name is found, or for the empty name a hole.** -/
theorem get_name_found (h : (RowIndex.name s).get (columnNames row) = some i) :
    Present row i s ∨ s = "" ∧ Taken row i := by
  obtain ⟨hi, hname, -⟩ := List.findIdx?_eq_some_iff_getElem.mp h
  have hname : (columnNames row)[i]? = some s := by
    rw [List.getElem?_eq_getElem hi, eq_of_beq hname]
  rw [getElem?_columnNames] at hname
  cases hrow : row[i]? with
  | none => simp [hrow] at hname
  | some x =>
      cases x with
      | none => exact Or.inr ⟨by simpa [hrow, eq_comm] using hname, hrow⟩
      | some column => exact Or.inl ⟨column, hrow, by simpa [hrow] using hname⟩

/-- A look-up that finds nothing has seen every column. -/
theorem get_name_missing (h : (RowIndex.name s).get (columnNames row) = none) :
    (∀ i, ¬ Present row i s) ∧ (s = "" → ∀ i, ¬ Taken row i) := by
  have hall : ∀ x ∈ row, x.elim "" RawColumn.name ≠ s := by
    intro x hx heq
    have := List.findIdx?_eq_none_iff.mp h (x.elim "" RawColumn.name)
      (List.mem_map_of_mem hx)
    simp [heq] at this
  constructor
  · rintro i ⟨column, hrow, hname⟩
    exact hall _ (List.mem_of_getElem? hrow) hname
  · rintro rfl i hrow
    exact hall _ (List.mem_of_getElem? hrow) rfl

/-! ## One call -/

section calls

variable (row : RawRow) (index : RowIndex) (fromSql : ChType → Value → Outcome RowError ρ)

/-- What `try_get` does. -/
theorem tryGet_cases :
    (index.get (columnNames row) = none ∧ row.tryGet index fromSql = (.fail .outOfBounds, row)) ∨
    (∃ i, index.get (columnNames row) = some i ∧ row[i]? = none ∧
      row.tryGet index fromSql = (.panic .unwrapNone, row)) ∨
    (∃ i, index.get (columnNames row) = some i ∧ Taken row i ∧
      row.tryGet index fromSql = (.fail .doubleFetch, row)) ∨
    ∃ i column, index.get (columnNames row) = some i ∧ row[i]? = some (some column) ∧
      row.tryGet index fromSql = (fromSql column.type column.value, row.set i none) := by
  rw [tryGet]
  cases hget : index.get (columnNames row) with
  | none => exact Or.inl ⟨rfl, rfl⟩
  | some i =>
      cases hrow : row[i]? with
      | none => exact Or.inr (Or.inl ⟨i, rfl, hrow, by simp only [hrow]⟩)
      | some x =>
          cases x with
          | none => exact Or.inr (Or.inr (Or.inl ⟨i, rfl, hrow, by simp only [hrow]⟩))
          | some column =>
              exact Or.inr (Or.inr (Or.inr ⟨i, column, rfl, hrow, by simp only [hrow]⟩))

variable (name : String) (type : Option ChType) (toSql : Option ChType → Outcome RowError Value)

/-- What `try_set_typed` does. -/
theorem trySetTyped_cases :
    (∃ fault, toSql type = .error fault ∧ row.trySetTyped name type toSql = (.error fault, row)) ∨
    ∃ value, toSql type = .ok value ∧
      ((∃ column, (RowIndex.name name).get (columnNames row) = none ∧ column.name = name ∧
          row.trySetTyped name type toSql = (.ok (), row ++ [some column])) ∨
        (∃ i column, Present row i name ∧ column.name = name ∧
          (RowIndex.name name).get (columnNames row) = some i ∧
          row.trySetTyped name type toSql = (.ok (), row.set i (some column))) ∨
        ∃ i, name = "" ∧ (RowIndex.name name).get (columnNames row) = some i ∧ Taken row i ∧
          row.trySetTyped name type toSql = (.panic .unwrapNone, row)) := by
  rw [trySetTyped]
  cases hvalue : toSql type with
  | error fault => exact Or.inl ⟨fault, rfl, rfl⟩
  | ok value =>
      refine Or.inr ⟨value, rfl, ?_⟩
      cases hget : (RowIndex.name name).get (columnNames row) with
      | none =>
          rw [RowIndex.get] at hget
          simp only [hget]
          exact Or.inl ⟨_, trivial, rfl, rfl⟩
      | some i =>
          have hfound := get_name_found hget
          rw [RowIndex.get] at hget
          simp only [hget]
          obtain ⟨column, hrow, hname⟩ | ⟨hempty, hrow⟩ := hfound
          · simp only [hrow]
            exact Or.inr (Or.inl ⟨i, { column with type := type.getD value.guessType, value },
              ⟨column, hrow, hname⟩, hname, rfl, rfl⟩)
          · rw [Taken] at hrow
            simp only [hrow]
            exact Or.inr (Or.inr ⟨i, hempty, rfl, hrow, trivial⟩)

end calls

variable {index : RowIndex} {fromSql : ChType → Value → Outcome RowError ρ} {name : String}
  {type : Option ChType} {toSql : Option ChType → Outcome RowError Value}
  {past : List (RowMove ρ)} {v : RowMove ρ}

theorem Taken.lt_length (h : Taken row i) : i < row.length :=
  (List.getElem?_eq_some_iff.mp h).1

theorem Present.not_taken (h : Present row i s) : ¬ Taken row i := by
  obtain ⟨column, hrow, -⟩ := h
  rw [Taken, hrow]
  exact fun heq => by cases heq

/-- The only number that is found without a column is the number of columns. -/
theorem eq_length_of_found (hget : index.get (columnNames row) = some i)
    (hrow : row[i]? = none) : index = .number row.length := by
  cases index with
  | number n =>
      rw [RowIndex.get, length_columnNames] at hget
      split at hget
      · next hle =>
        cases hget
        have hge := List.getElem?_eq_none_iff.mp hrow
        rw [show i = row.length by omega]
      · cases hget
  | name s =>
      obtain ⟨column, hcolumn, -⟩ | ⟨-, hcolumn⟩ := get_name_found hget
      · rw [hrow] at hcolumn
        cases hcolumn
      · rw [Taken, hrow] at hcolumn
        cases hcolumn

theorem number_lt {n : Nat} (hget : (RowIndex.number n).get (columnNames row) = some i)
    (hlt : i < row.length) : n < row.length := by
  rw [RowIndex.get] at hget
  split at hget
  · cases hget
    exact hlt
  · cases hget

/-- A column that has been taken is found, unless its name is lost. -/
theorem AlreadyTaken.found (h : AlreadyTaken past row index) :
    (∃ i, index.get (columnNames row) = some i ∧ Taken row i) ∨
      ∃ s, index = .name s ∧ s ≠ "" ∧ index.get (columnNames row) = none := by
  cases index with
  | number n =>
      have hlt : n < row.length := Taken.lt_length h
      refine Or.inl ⟨n, ?_, h⟩
      rw [RowIndex.get, length_columnNames, if_pos (by omega)]
  | name s =>
      obtain ⟨⟨v, -, i, -, htaken⟩, hnone⟩ := h
      cases hget : (RowIndex.name s).get (columnNames row) with
      | none => exact Or.inr ⟨s, rfl, fun hs => (get_name_missing hget).2 hs i htaken, rfl⟩
      | some j =>
          obtain hpresent | ⟨-, htaken⟩ := get_name_found hget
          · exact absurd hpresent (hnone j)
          · exact Or.inl ⟨j, rfl, htaken⟩

theorem noPanic_fail {α : Type} (e : RowError) : (Outcome.fail e : Outcome RowError α).NoPanic := by
  intro p h
  cases h

theorem noPanic_ok {α : Type} (a : α) : Outcome.NoPanic (.ok a : Outcome RowError α) := by
  intro p h
  cases h

/-- What is asked of a get, in terms of its result. -/
theorem get_safeMove {r : Outcome RowError ρ} (hinput : v.input = .tryGet index fromSql)
    (hout : v.out = [.got r]) (hnoPanic : r.NoPanic)
    (hbounds : ∀ n, index = .number n → v.before.length ≤ n → r = .fail .outOfBounds)
    (hdouble : AlreadyTaken past v.before index → r = .fail .doubleFetch)
    (hreturns : ∀ x, r = .ok x → ∃ i column, v.before[i]? = some (some column) ∧
      fromSql column.type column.value = .ok x ∧ Taken v.after i) :
    SafeMove past v where
  noPanic := by
    rw [hout]
    intro answer hanswer
    rw [List.mem_singleton.mp hanswer]
    exact hnoPanic
  outOfBounds := by
    intro n fromSql' h hle
    rw [hinput] at h
    cases h
    rw [hout, hbounds n rfl hle]
  doubleFetch := by
    intro index' fromSql' h htaken
    rw [hinput] at h
    cases h
    rw [hout, hdouble htaken]
  returns := by
    intro x h
    rw [hout] at h
    cases h
    obtain ⟨i, column, hrow, hconvert, htaken⟩ := hreturns x rfl
    exact ⟨i, index, fromSql, column, x, hinput, hrow, hconvert, hout, htaken⟩
  setsItsColumn := by
    intro name i h
    rw [hinput] at h
    exact absurd h id
  setsOneColumn := by
    intro name i j h
    rw [hinput] at h
    exact absurd h id

/-- What a get that is as it should be has not met. -/
theorem SafeMove.get_meets (h : SafeMove past v) (hinput : v.input = .tryGet index fromSql)
    (hout : v.out = [.got (v.before.tryGet index fromSql).1]) :
    Meets past v.before (.tryGet index fromSql) := by
  have hnoPanic : ((v.before.tryGet index fromSql).1).NoPanic :=
    h.noPanic (.got _) (by rw [hout]; exact List.mem_singleton_self _)
  refine ⟨?_, ?_, ?_⟩
  · rintro rfl
    have hget : (RowIndex.number v.before.length).get (columnNames v.before) =
        some v.before.length := by
      rw [RowIndex.get, length_columnNames, if_pos (by omega)]
    have hrow : v.before[v.before.length]? = none := List.getElem?_eq_none (by omega)
    rw [tryGet, hget] at hnoPanic
    simp only [hrow] at hnoPanic
    exact hnoPanic .unwrapNone rfl
  · rintro s rfl hs htaken
    have hdouble := h.doubleFetch _ _ hinput htaken
    obtain ⟨i, hget, hhole⟩ | ⟨s', -, -, hnone⟩ := htaken.found
    · obtain hpresent | ⟨hempty, -⟩ := get_name_found hget
      · exact htaken.2 i hpresent
      · exact hs hempty
    · rw [hout, tryGet, hnone] at hdouble
      cases hdouble
  · intro i column hget hrow
    rw [tryGet, hget] at hnoPanic
    simpa only [hrow] using hnoPanic

/-- **A get that meets the condition is as it should be.** -/
theorem Meets.get_safeMove (h : Meets past v.before (.tryGet index fromSql))
    (hinput : v.input = .tryGet index fromSql)
    (hout : v.out = [.got (v.before.tryGet index fromSql).1])
    (hafter : v.after = (v.before.tryGet index fromSql).2) : SafeMove past v := by
  obtain ⟨hlength, hnames, hconvert⟩ := h
  obtain ⟨hget, heq⟩ | ⟨i, hget, hrow, -⟩ | ⟨i, hget, hhole, heq⟩ | ⟨i, column, hget, hrow, heq⟩ :=
    tryGet_cases v.before index fromSql
  · -- nothing is found, and no column that was taken had a name that is not empty
    rw [heq] at hout
    refine RawRow.get_safeMove hinput hout (noPanic_fail _) (fun _ _ _ => rfl) ?_ ?_
    · intro htaken
      obtain ⟨i, hfound, -⟩ | ⟨s, rfl, hs, -⟩ := htaken.found
      · rw [hget] at hfound
        cases hfound
      · exact absurd htaken (hnames s rfl hs)
    · intro x hx
      cases hx
  · exact absurd (eq_length_of_found hget hrow) hlength
  · rw [heq] at hout
    refine RawRow.get_safeMove hinput hout (noPanic_fail _) ?_ (fun _ => rfl) ?_
    · rintro n rfl hle
      exact absurd (number_lt hget hhole.lt_length) (by omega)
    · intro x hx
      cases hx
  · rw [heq] at hout hafter
    refine RawRow.get_safeMove hinput hout (hconvert i column hget hrow) ?_ ?_ ?_
    · rintro n rfl hle
      exact absurd (number_lt hget (List.getElem?_eq_some_iff.mp hrow).1) (by omega)
    · intro htaken
      obtain ⟨j, hfound, hhole⟩ | ⟨s, -, -, hnone⟩ := htaken.found
      · rw [hget] at hfound
        cases hfound
        rw [Taken, hrow] at hhole
        cases hhole
      · rw [hget] at hnone
        cases hnone
    · intro x hx
      have hlt := (List.getElem?_eq_some_iff.mp hrow).1
      refine ⟨i, column, hrow, hx, ?_⟩
      rw [hafter]
      exact List.getElem?_set_self hlt

/-- What is asked of a set, in terms of its result. -/
theorem set_safeMove {r : Outcome RowError Unit} (hinput : ∀ index fromSql,
      v.input ≠ .tryGet index fromSql) (hsets : ∀ s, Sets s v.input → s = name)
    (hout : v.out = [.wasSet r]) (hnoPanic : r.NoPanic)
    (hchange : ∃ i, (∀ j, v.after[j]? ≠ v.before[j]? → j = i) ∧
      (v.after[i]? ≠ v.before[i]? →
        Present v.after i name ∧ (v.before[i]? = none ∨ Present v.before i name))) :
    SafeMove past v where
  noPanic := by
    rw [hout]
    intro answer hanswer
    rw [List.mem_singleton.mp hanswer]
    exact hnoPanic
  outOfBounds := fun n fromSql h => absurd h (hinput _ _)
  doubleFetch := fun index fromSql h => absurd h (hinput _ _)
  returns := by
    intro x h
    rw [hout] at h
    cases h
  setsItsColumn := by
    intro s j h hj
    obtain ⟨i, honly, hcolumn⟩ := hchange
    obtain rfl := honly j hj
    rw [hsets s h]
    exact hcolumn hj
  setsOneColumn := by
    intro s j k h hj hk
    obtain ⟨i, honly, -⟩ := hchange
    rw [honly j hj, honly k hk]

/-- **A set is as it should be where it meets the condition**, and only there. -/
theorem set_safeMove_iff (hinput : ∀ index fromSql, v.input ≠ .tryGet index fromSql)
    (hsets : ∀ s, Sets s v.input → s = name)
    (hout : v.out = [.wasSet (v.before.trySetTyped name type toSql).1])
    (hafter : v.after = (v.before.trySetTyped name type toSql).2) :
    SafeMove past v ↔ SetMeets v.before name (toSql type) := by
  obtain ⟨fault, htoSql, heq⟩ | ⟨value, htoSql, ⟨column, hget, hname, heq⟩ |
      ⟨i, column, hpresent, hname, hget, heq⟩ | ⟨i, rfl, hget, hhole, heq⟩⟩ :=
    trySetTyped_cases v.before name type toSql
  all_goals
    rw [heq] at hout hafter
    rw [SetMeets, htoSql]
  · -- the conversion fails, and the row stays as it is
    constructor
    · intro h
      refine ⟨fun p hp => ?_, fun _ hvalue => ?_⟩
      · cases hp
        exact h.noPanic (.wasSet _) (by rw [hout]; exact List.mem_singleton_self _) p rfl
      · obtain ⟨value, hvalue⟩ := hvalue
        cases hvalue
    · rintro ⟨hnoPanic, -⟩
      refine set_safeMove hinput hsets hout (fun p hp => ?_) ⟨0, ?_, ?_⟩
      · cases hp
        exact hnoPanic p rfl
      · exact fun j hj => absurd (by rw [hafter]) hj
      · exact fun hj => absurd (by rw [hafter]) hj
  · -- no column has the name: there is one more
    refine iff_of_true ?_ ⟨noPanic_ok value, ?_⟩
    · refine set_safeMove hinput hsets hout (noPanic_ok ()) ⟨v.before.length, ?_, ?_⟩
      · intro j hj
        rw [hafter] at hj
        by_contra hne
        obtain hlt | hgt := Nat.lt_or_gt_of_ne hne
        · exact hj (List.getElem?_append_left hlt)
        · rw [List.getElem?_eq_none (by rw [List.length_append, List.length_singleton]; omega),
            List.getElem?_eq_none (by omega)] at hj
          exact hj rfl
      · rintro -
        refine ⟨⟨column, ?_, hname⟩, Or.inl (List.getElem?_eq_none (Nat.le_refl _))⟩
        rw [hafter]
        exact List.getElem?_concat_length
    · rintro rfl - ⟨i, hfound, -⟩
      rw [hget] at hfound
      cases hfound
  · -- the first column of the name has a new value
    have hlt : i < v.before.length := by
      obtain ⟨old, hrow, -⟩ := hpresent
      exact (List.getElem?_eq_some_iff.mp hrow).1
    refine iff_of_true ?_ ⟨noPanic_ok value, ?_⟩
    · refine set_safeMove hinput hsets hout (noPanic_ok ()) ⟨i, ?_, ?_⟩
      · intro j hj
        rw [hafter] at hj
        by_contra hne
        exact hj (List.getElem?_set_ne (Ne.symm hne))
      · rintro -
        refine ⟨⟨column, ?_, hname⟩, Or.inr hpresent⟩
        rw [hafter]
        exact List.getElem?_set_self hlt
    · rintro rfl - ⟨j, hfound, hhole⟩
      rw [hget] at hfound
      cases hfound
      exact hpresent.not_taken hhole
  · -- a hole is found under the empty name
    refine iff_of_false ?_ ?_
    · intro h
      exact h.noPanic (.wasSet _) (by rw [hout]; exact List.mem_singleton_self _) .unwrapNone rfl
    · rintro ⟨-, hholes⟩
      exact hholes rfl ⟨value, rfl⟩ ⟨i, hget, hhole⟩

/-! ## Runs -/

theorem Taken.tryGet (h : Taken row i) : Taken (row.tryGet index fromSql).2 i := by
  obtain ⟨-, heq⟩ | ⟨j, -, -, heq⟩ | ⟨j, -, -, heq⟩ | ⟨j, column, -, hrow, heq⟩ :=
    tryGet_cases row index fromSql
  · rwa [heq]
  · rwa [heq]
  · rwa [heq]
  · rw [heq]
    by_cases hj : j = i
    · subst hj
      exact List.getElem?_set_self h.lt_length
    · rwa [Taken, List.getElem?_set_ne hj]

theorem Taken.trySetTyped (h : Taken row i) : Taken (row.trySetTyped name type toSql).2 i := by
  obtain ⟨fault, -, heq⟩ | ⟨value, -, ⟨column, -, -, heq⟩ | ⟨j, column, hpresent, -, -, heq⟩ |
      ⟨j, -, -, -, heq⟩⟩ := trySetTyped_cases row name type toSql
  · rwa [heq]
  · rw [heq, Taken, List.getElem?_append_left h.lt_length]
    exact h
  · rw [heq, Taken, List.getElem?_set_ne]
    · exact h
    · rintro rfl
      exact hpresent.not_taken h
  · rwa [heq]

/-- **A hole stays a hole**: no call fills it again. -/
theorem Taken.machine (h : Taken row i) {call : Call ρ} {row' : RawRow} {out : List (Answer ρ)}
    (hcall : machine row call = some (row', out)) : Taken row' i := by
  cases call with
  | tryGet index fromSql =>
      cases hcall
      exact h.tryGet
  | trySet name toSql =>
      cases hcall
      exact h.trySetTyped
  | trySetTyped name type toSql =>
      cases hcall
      exact h.trySetTyped

/-- A move is as it should be where its call meets the condition, and only there. -/
theorem safeMove_iff (hmove : machine v.before v.input = some (v.after, v.out)) :
    SafeMove past v ↔ Meets past v.before v.input := by
  obtain ⟨before, call, out, after⟩ := v
  replace hmove : machine before call = some (after, out) := hmove
  cases call with
  | tryGet index fromSql =>
      cases hmove
      exact ⟨fun h => h.get_meets rfl rfl, fun h => h.get_safeMove rfl rfl rfl⟩
  | trySet name toSql =>
      cases hmove
      exact set_safeMove_iff (fun _ _ h => by cases h) (fun s h => h.symm) rfl rfl
  | trySetTyped name type toSql =>
      cases hmove
      exact set_safeMove_iff (fun _ _ h => by cases h) (fun s h => h.symm) rfl rfl

/-- What has returned its value is a hole. -/
def HolesKept (past : List (RowMove ρ)) (row : RawRow) : Prop :=
  ∀ v ∈ past, ∀ i, Returns i v → Taken row i

theorem HolesKept.machine (h : HolesKept past row) {call : Call ρ} {row' : RawRow}
    {out : List (Answer ρ)} (hcall : machine row call = some (row', out)) :
    HolesKept (past ++ [⟨row, call, out, row'⟩]) row' := by
  intro v hv i hreturns
  obtain hv | hv := List.mem_append.mp hv
  · exact (h v hv i hreturns).machine hcall
  · rw [List.mem_singleton.mp hv] at hreturns
    obtain ⟨index, fromSql, column, r, -, -, -, -, htaken⟩ := hreturns
    exact htaken

theorem holesKept_nil : HolesKept ([] : List (RowMove ρ)) row := by
  intro v hv
  cases hv

/-- **Access to a row is safe over the histories that meet the condition at each call**, and
over no others. -/
theorem safe_iff (start : RawRow) (calls : List (Call ρ)) :
    Safe start calls ↔ ∀ past v future, machine.moves start calls = past ++ v :: future →
      Meets past v.before v.input := by
  have hmoves : ∀ {past v future}, machine.moves start calls = past ++ v :: future →
      HolesKept past v.before ∧ machine v.before v.input = some (v.after, v.out) :=
    fun h => Machine.invariant_before (I := HolesKept) holesKept_nil
      (fun past row call row' out hkept hcall => hkept.machine hcall) h
  constructor
  · intro h past v future heq
    exact (safeMove_iff (hmoves heq).2).mp (h.moves past v future heq)
  · intro h
    refine ⟨fun past v future heq => ?_, fun past v between w future i heq hv hw => ?_⟩
    · exact (safeMove_iff (hmoves heq).2).mpr (h past v future heq)
    · have hw' : machine.moves start calls = (past ++ v :: between) ++ w :: future := by
        rw [heq, List.append_assoc, List.cons_append]
      have htaken : Taken w.before i := (hmoves hw').1 v (by simp) i hv
      obtain ⟨index, fromSql, column, r, -, hrow, -⟩ := hw
      rw [Taken, hrow] at htaken
      cases htaken

/-- The number of columns panics, and so does setting the empty name after a fetch; a column
that has been fetched by its name is out of bounds. -/
theorem not_safe_samples :
    ¬ Safe [] [.tryGet (.number 0) fun _ value => .ok value] ∧
    ¬ Safe [some ⟨"a", .int32, .int32 1⟩] [.tryGet (.number 0) fun _ value => .ok value,
      .trySet "" fun _ => .ok (.int32 2)] ∧
    ¬ Safe [some ⟨"a", .int32, .int32 1⟩] [.tryGet (.name "a") fun _ value => .ok value,
      .tryGet (.name "a") fun _ value => .ok value] := by
  refine ⟨fun h => ?_, fun h => ?_, fun h => ?_⟩
  · exact (h.moves [] _ [] rfl).noPanic _ (List.mem_singleton_self _) .unwrapNone rfl
  · exact (h.moves [_] _ [] rfl).noPanic _ (List.mem_singleton_self _) .unwrapNone rfl
  · have hout := (h.moves [_] _ [] rfl).doubleFetch (.name "a") _ rfl
      ⟨⟨_, List.mem_singleton_self _, 0, ⟨_, rfl, rfl⟩, rfl⟩, ?_⟩
    · cases hout
    · rintro i ⟨column, hrow, -⟩
      cases i with
      | zero => cases hrow
      | succ i => cases hrow

end RawRow

end ClickhouseArrow
