import ClickhouseArrow.Arrow.TypeMap
import ClickhouseArrow.Native.Block
import ClickhouseArrow.Native.GeoNulls

/-!
# Rows and blocks

`Block::from_rows` and `take_iter_rows`.  A row is what `serialize_row` makes of it: an error,
or values with the names of their columns, in any order.  The values are appended to their
columns, and the columns to one another; nothing looks at how many values a row has.  Where
every row has one for every column, the block holds the rows and gives them back; where one
has not, the columns are shifted.
-/

namespace ClickhouseArrow

open Wire

/-- What `Row::serialize_row` returns. -/
abbrev SerializedRow := Except Error (List (String × Value))

namespace Block

/-! ## From rows -/

def missingType (row : Nat) (key : String) : Error :=
  .protocol [.text "missing type for data in row ", .number row, .text ", column: ", .text key]

def missingColumn (row : Nat) (key : String) : Error :=
  .protocol [.text "missing column for data in row ", .number row, .text ", column: ", .text key]

/-- The `IndexMap` of the schema: a name that is there already keeps its position. -/
def emptyColumns : List (String × ChType) → List (String × List Value)
  | [] => []
  | (name, _) :: schema => (name, []) :: (emptyColumns schema).filter fun column => column.1 ≠ name

/-- `get_mut`, and `push`. -/
def pushColumn (key : String) (value : Value) :
    List (String × List Value) → Option (List (String × List Value))
  | [] => none
  | (name, values) :: columns =>
      if name = key then some ((name, values ++ [value]) :: columns)
      else (pushColumn key value columns).map ((name, values) :: ·)

/-- The loop over the values of one row. -/
def pushValues (schema : List (String × ChType)) (row : Nat) (columns : List (String × List Value)) :
    List (String × Value) → Result (List (String × List Value))
  | [] => .ok columns
  | (key, value) :: values =>
      match schema.find? fun column => column.1 = key with
      | none => .fail (missingType row key)
      | some (_, t) => do
          t.validateValue value
          match pushColumn key value columns with
          | none => .fail (missingColumn row key)
          | some columns' => pushValues schema row columns' values

/-- The loop over the rows. -/
def pushRows (schema : List (String × ChType)) (row : Nat) (columns : List (String × List Value)) :
    List SerializedRow → Result (List (String × List Value))
  | [] => .ok columns
  | .error e :: _ => .fail e
  | .ok values :: rows => do
      let columns' ← pushValues schema row columns values
      pushRows schema (row + 1) columns' rows

/-- `Block::from_rows`. -/
def fromRows (rows : List SerializedRow) (schema : List (String × ChType)) : Result Block := do
  let columns ← pushRows schema 0 (emptyColumns schema) rows
  .ok {
    info := BlockInfo.initial
    rows := UInt64.ofNat rows.length
    columnTypes := schema
    columnData := columns.flatMap Prod.snd }

/-! ## To rows -/

/-- `BlockRowValueIter`: the columns, each with the values that are left. -/
abbrev RowValueIter := List (String × ChType × List Value)

/-- The columns, each with the next `rows` values of the data. -/
def takeColumns (rows : Nat) : List (String × ChType) → List Value → Result RowValueIter
  | [], _ => .ok []
  | (name, t) :: columns, data =>
      -- `drain(..rows)` is out of range.
      if data.length < rows then .panic .indexOutOfBounds
      else do
        let rest ← takeColumns rows columns (data.drop rows)
        .ok ((name, t.stripLowCardinality, data.take rows) :: rest)

/-- `take_iter_rows`. -/
def takeIterRows (b : Block) : Result RowValueIter :=
  takeColumns b.rows.toNat b.columnTypes b.columnData

namespace RowValueIter

/-- The next value of every column. -/
def popEach : RowValueIter → Option (List (String × ChType × Value) × RowValueIter)
  | [] => some ([], [])
  | (_, _, []) :: _ => none
  | (name, t, value :: values) :: columns =>
      (popEach columns).map fun popped =>
        ((name, t, value) :: popped.1, (name, t, values) :: popped.2)

/-- `next`. -/
def next (iter : RowValueIter) : Option (List (String × ChType × Value) × RowValueIter) :=
  if iter.isEmpty then none else popEach iter

/-- The rows that the iterator gives before it ends. -/
inductive Yields : RowValueIter → List (List (String × ChType × Value)) → Prop
  | done {iter : RowValueIter} (h : iter.next = none) : Yields iter []
  | more {iter iter' : RowValueIter} {row : List (String × ChType × Value)}
      {rows : List (List (String × ChType × Value))} (h : iter.next = some (row, iter'))
      (hrest : Yields iter' rows) : Yields iter (row :: rows)

end RowValueIter

/-! ## What is promised -/

/-- The values that a row gives for a column. -/
def given (row : SerializedRow) (name : String) : List Value :=
  match row with
  | .ok values => (values.filter fun v => v.1 = name).map Prod.snd
  | .error _ => []

/-- The cells of a row, in the order of the schema. -/
def Cells (schema : List (String × ChType)) (row : SerializedRow)
    (cells : List (String × ChType × Value)) : Prop :=
  List.Forall₂ (fun column cell => cell.1 = column.1 ∧ cell.2.1 = column.2.stripLowCardinality ∧
    given row column.1 = [cell.2.2]) schema cells

/-- The block holds the rows, gives them back, and can be written. -/
structure KeepsRows (schema : List (String × ChType)) (rows : List SerializedRow) (b : Block) :
    Prop where
  length_eq : b.columnData.length = rows.length * schema.length
  entry : ∀ c column, schema[c]? = some column → ∀ i row, rows[i]? = some row →
    ∃ v, given row column.1 = [v] ∧ b.columnData[c * rows.length + i]? = some v
  iterates : ∃ iter out, b.takeIterRows = .ok iter ∧ RowValueIter.Yields iter out ∧
    List.Forall₂ (Cells schema) rows out
  writes : ∀ revision, (b.write revision).NoPanic

/-- Rows become a block that keeps them, or are refused. -/
def RowsBecomeColumns (schema : List (String × ChType)) (rows : List SerializedRow) : Prop :=
  (∃ e, fromRows rows schema = .fail e) ∨
    ∃ b, fromRows rows schema = .ok b ∧ KeepsRows schema rows b

/-! ## The columns -/

/-- The row is serialized, and its values are accepted by the columns they name. -/
def Accepted (schema : List (String × ChType)) (row : SerializedRow) : Prop :=
  ∃ values, row = .ok values ∧
    ∀ v ∈ values, ∃ t, (v.1, t) ∈ schema ∧ t.validateValue v.2 = .ok ()

/-- The columns of the schema with the values that each name has. -/
def columnsWith (schema : List (String × ChType)) (values : String → List Value) :
    List (String × List Value) :=
  schema.map fun column => (column.1, values column.1)

/-- A value is accepted or refused with an error. -/
theorem validate_noPanic (t : ChType) : t.validate.NoPanic := by
  have hscale : ∀ scale max msg, (ChType.checkScale scale max msg).NoPanic := fun _ _ _ =>
    Outcome.NoPanic.ite (fun _ => .fail _) fun _ => .ok _
  induction t using ChType.inductionOn with
  | hleaf t hflat =>
      cases t with
      | nullable | lowCardinality | array | tuple | map => cases hflat
      | decimal32 | decimal64 | decimal128 | decimal256 | dateTime64 => exact hscale _ _ _
      | _ => exact Outcome.NoPanic.ok _
  | hnullable inner ih => exact Outcome.NoPanic.ite (fun _ => .fail _) fun _ => ih
  | hlowCardinality inner _ ih => exact Outcome.NoPanic.ite (fun _ => ih) fun _ => .fail _
  | harray inner ih => exact ih
  | htuple items ih =>
      show (ChType.validate.validateAll items).NoPanic
      induction items with
      | nil => exact Outcome.NoPanic.ok _
      | cons t ts ihs =>
          exact (ih t List.mem_cons_self).bind fun _ =>
            ihs fun u hu => ih u (List.mem_cons_of_mem t hu)
  | hmap key value ihkey ihvalue =>
      exact Outcome.NoPanic.ite (fun _ => ihkey.bind fun _ => ihvalue) fun _ => .fail _

theorem validateValue_noPanic (t : ChType) (value : Value) : (t.validateValue value).NoPanic :=
  (validate_noPanic t).bind fun _ => .ite (fun _ => .ok _) fun _ => .fail _

section Columns

variable {schema : List (String × ChType)} (hnames : (schema.map Prod.fst).Nodup)

include hnames

theorem emptyColumns_eq : emptyColumns schema = columnsWith schema fun _ => [] := by
  induction schema with
  | nil => rfl
  | cons column schema ih =>
      rw [List.map_cons, List.nodup_cons] at hnames
      rw [emptyColumns, ih hnames.2, List.filter_eq_self.mpr]
      · rfl
      · intro other hother
        obtain ⟨column', hcolumn', rfl⟩ := List.mem_map.mp hother
        rw [decide_eq_true_eq]
        intro heq
        exact hnames.1 (heq ▸ List.mem_map_of_mem hcolumn')

theorem pushColumn_eq {key : String} (value : Value) (hkey : key ∈ schema.map Prod.fst)
    (values : String → List Value) :
    pushColumn key value (columnsWith schema values) =
      some (columnsWith schema fun name =>
        values name ++ if key = name then [value] else []) := by
  induction schema with
  | nil => cases hkey
  | cons column schema ih =>
      rw [List.map_cons, List.nodup_cons] at hnames
      show (if column.1 = key then _ else (pushColumn key value (columnsWith schema values)).map _) = _
      split_ifs with hname
      · subst hname
        have hothers : columnsWith schema (fun name =>
            values name ++ if column.1 = name then [value] else []) = columnsWith schema values := by
          refine List.map_congr_left fun other hother => ?_
          have hne : column.1 ≠ other.1 := fun heq => hnames.1 (heq ▸ List.mem_map_of_mem hother)
          show (other.1, values other.1 ++ if column.1 = other.1 then [value] else []) = _
          rw [if_neg hne, List.append_nil]
        rw [columnsWith, List.map_cons, if_pos rfl]
        exact congrArg (fun rest => some (_ :: rest)) hothers.symm
      · rcases List.mem_cons.mp hkey with rfl | hkey
        · exact absurd rfl hname
        · rw [ih hnames.2 hkey]
          show some _ = some _
          rw [columnsWith, columnsWith, List.map_cons, if_neg (Ne.symm hname), List.append_nil]

theorem find_column {key : String} {t : ChType} (hmem : (key, t) ∈ schema) :
    (schema.find? fun column => column.1 = key) = some (key, t) := by
  induction schema with
  | nil => cases hmem
  | cons column schema ih =>
      rw [List.map_cons, List.nodup_cons] at hnames
      rcases List.mem_cons.mp hmem with rfl | hmem
      · rw [List.find?_cons_of_pos (by simp)]
      · have hne : column.1 ≠ key := fun heq => hnames.1 (heq ▸ List.mem_map_of_mem hmem)
        rw [List.find?_cons_of_neg (by simpa using hne)]
        exact ih hnames.2 hmem

/-- The values of a row go to the columns they name, or one of them is refused. -/
theorem pushValues_end (row : Nat) (values : String → List Value) (named : List (String × Value)) :
    (∀ v ∈ named, ∃ t, (v.1, t) ∈ schema ∧ t.validateValue v.2 = .ok ()) ∧
        pushValues schema row (columnsWith schema values) named =
          .ok (columnsWith schema fun name => values name ++ given (.ok named) name) ∨
      (¬ ∀ v ∈ named, ∃ t, (v.1, t) ∈ schema ∧ t.validateValue v.2 = .ok ()) ∧
        ∃ e, pushValues schema row (columnsWith schema values) named = .fail e := by
  induction named generalizing values with
  | nil =>
      refine .inl ⟨fun v hv => (List.not_mem_nil hv).elim, ?_⟩
      show Except.ok _ = _
      simp [given]
  | cons v named ih =>
      obtain ⟨key, value⟩ := v
      rw [List.forall_mem_cons, pushValues]
      -- The first value that is refused ends the row, and what is pushed before stays.
      by_cases hhead : ∃ t, (key, t) ∈ schema ∧ t.validateValue value = .ok ()
      · obtain ⟨t, hmem, hvalid⟩ := hhead
        have hkey : key ∈ schema.map Prod.fst := List.mem_map_of_mem hmem
        rw [find_column hnames hmem]
        simp only [hvalid, Outcome.ok_bind, pushColumn_eq hnames value hkey]
        rcases ih (fun name => values name ++ if key = name then [value] else []) with
          ⟨htail, hpush⟩ | ⟨htail, e, hpush⟩
        · refine .inl ⟨⟨⟨t, hmem, hvalid⟩, htail⟩, ?_⟩
          rw [hpush]
          refine congrArg (fun f => Except.ok (columnsWith schema f)) (funext fun name => ?_)
          rw [List.append_assoc]
          congr 1
          by_cases hname : key = name
          · simp [given, hname]
          · simp [given, hname]
        · exact .inr ⟨fun h => htail h.2, e, hpush⟩
      · refine .inr ⟨fun h => hhead h.1, ?_⟩
        cases hfind : schema.find? fun column => column.1 = key with
        | none => exact ⟨_, rfl⟩
        | some column =>
            have hname : column.1 = key := by simpa using List.find?_some hfind
            have hmem : (key, column.2) ∈ schema := hname ▸ List.mem_of_find?_eq_some hfind
            have hcalm := validateValue_noPanic column.2 value
            cases hvalid : column.2.validateValue value with
            | ok u => exact absurd ⟨column.2, hmem, hvalid⟩ hhead
            | error fault =>
                cases fault with
                | error e =>
                    refine ⟨e, ?_⟩
                    simp only [hvalid]
                    rfl
                | panic p => exact absurd hvalid (hcalm p)

theorem pushRows_end (row : Nat) (values : String → List Value) (rows : List SerializedRow) :
    (∀ r ∈ rows, Accepted schema r) ∧
        pushRows schema row (columnsWith schema values) rows =
          .ok (columnsWith schema fun name => values name ++ rows.flatMap (given · name)) ∨
      (¬ ∀ r ∈ rows, Accepted schema r) ∧
        ∃ e, pushRows schema row (columnsWith schema values) rows = .fail e := by
  induction rows generalizing row values with
  | nil =>
      refine .inl ⟨fun r hr => (List.not_mem_nil hr).elim, ?_⟩
      show Except.ok _ = _
      simp
  | cons r rows ih =>
      rw [List.forall_mem_cons]
      cases r with
      | error e =>
          refine .inr ⟨fun h => ?_, e, rfl⟩
          obtain ⟨named, hnamed, -⟩ := h.1
          cases hnamed
      | ok named =>
          rw [pushRows]
          rcases pushValues_end hnames row values named with ⟨hhead, hpush⟩ | ⟨hhead, e, hpush⟩
          · rw [hpush, Outcome.ok_bind]
            rcases ih (row + 1) (fun name => values name ++ given (.ok named) name) with
              ⟨htail, hpush⟩ | ⟨htail, e, hpush⟩
            · refine .inl ⟨⟨⟨named, rfl, hhead⟩, htail⟩, ?_⟩
              rw [hpush]
              simp only [List.flatMap_cons, List.append_assoc]
            · exact .inr ⟨fun h => htail h.2, e, hpush⟩
          · refine .inr ⟨fun h => ?_, e, by rw [hpush]; rfl⟩
            obtain ⟨named', hnamed, haccepted⟩ := h.1
            obtain rfl := Except.ok.inj hnamed
            exact hhead haccepted

/-- **What `from_rows` returns.** -/
theorem fromRows_end (rows : List SerializedRow) :
    (∀ r ∈ rows, Accepted schema r) ∧
        fromRows rows schema = .ok ⟨BlockInfo.initial, UInt64.ofNat rows.length, schema,
          (schema.map fun column => rows.flatMap (given · column.1)).flatten⟩ ∨
      (¬ ∀ r ∈ rows, Accepted schema r) ∧ ∃ e, fromRows rows schema = .fail e := by
  rw [fromRows, emptyColumns_eq hnames]
  rcases pushRows_end hnames 0 (fun _ => []) rows with ⟨haccepted, hpush⟩ | ⟨hrefused, e, hpush⟩
  · refine .inl ⟨haccepted, ?_⟩
    rw [hpush, Outcome.ok_bind, columnsWith, List.flatMap_map]
    simp only [List.nil_append, List.flatMap_def]
  · exact .inr ⟨hrefused, e, by rw [hpush]; rfl⟩

end Columns

/-! ## Complete rows -/

/-- Every row has one value for every column. -/
def Complete (schema : List (String × ChType)) (rows : List SerializedRow) : Prop :=
  ∀ row ∈ rows, ∀ column ∈ schema, (given row column.1).length = 1

theorem Complete.given_eq {schema : List (String × ChType)} {rows : List SerializedRow}
    (h : Complete schema rows) {row : SerializedRow} (hrow : row ∈ rows) {column : String × ChType}
    (hcolumn : column ∈ schema) : ∃ v, given row column.1 = [v] :=
  List.length_eq_one_iff.mp (h row hrow column hcolumn)

theorem length_flatMap_one {α β : Type} {f : α → List β} {as : List α}
    (h : ∀ a ∈ as, (f a).length = 1) : (as.flatMap f).length = as.length := by
  induction as with
  | nil => rfl
  | cons a as ih =>
      rw [List.flatMap_cons, List.length_append, h a List.mem_cons_self,
        ih fun b hb => h b (List.mem_cons_of_mem a hb), List.length_cons, Nat.add_comm]

theorem getElem?_flatMap_one {α β : Type} {f : α → List β} {as : List α}
    (h : ∀ a ∈ as, (f a).length = 1) (i : Nat) :
    (as.flatMap f)[i]? = as[i]?.bind fun a => (f a)[0]? := by
  induction as generalizing i with
  | nil => rfl
  | cons a as ih =>
      obtain ⟨b, hb⟩ := List.length_eq_one_iff.mp (h a List.mem_cons_self)
      rw [List.flatMap_cons, hb]
      cases i with
      | zero => simp [hb]
      | succ i =>
          show (as.flatMap f)[i]? = _
          rw [ih fun c hc => h c (List.mem_cons_of_mem a hc)]
          rfl

/-- Lists of one length, one after the other. -/
theorem getElem?_flatten_of_length {α : Type} {ls : List (List α)} {n : Nat}
    (h : ∀ l ∈ ls, l.length = n) {i : Nat} (hi : i < n) (c : Nat) :
    ls.flatten[c * n + i]? = ls[c]?.bind fun l => l[i]? := by
  induction ls generalizing c with
  | nil => rfl
  | cons l ls ih =>
      have hl := h l List.mem_cons_self
      rw [List.flatten_cons]
      cases c with
      | zero => rw [Nat.zero_mul, Nat.zero_add, List.getElem?_append_left (by omega)]; rfl
      | succ c =>
          have hindex : (c + 1) * n + i - l.length = c * n + i := by
            rw [hl, Nat.succ_mul]
            omega
          rw [List.getElem?_append_right (by rw [hl, Nat.succ_mul]; omega), hindex,
            ih fun l' hl' => h l' (List.mem_cons_of_mem l hl')]
          rfl

section Complete

variable {schema : List (String × ChType)} {rows : List SerializedRow} (h : Complete schema rows)

include h

theorem length_column {column : String × ChType} (hcolumn : column ∈ schema) :
    (rows.flatMap (given · column.1)).length = rows.length :=
  length_flatMap_one fun row hrow => h row hrow column hcolumn

theorem length_data :
    (schema.map fun column => rows.flatMap (given · column.1)).flatten.length =
      rows.length * schema.length := by
  rw [List.length_flatten, List.map_map, Nat.mul_comm]
  have hall : schema.map (List.length ∘ fun column => rows.flatMap (given · column.1)) =
      List.replicate schema.length rows.length := by
    refine List.eq_replicate_iff.mpr ⟨List.length_map _, fun n hn => ?_⟩
    obtain ⟨column, hcolumn, rfl⟩ := List.mem_map.mp hn
    exact length_column h hcolumn
  rw [hall, List.sum_replicate_nat]

theorem entry_data {c i : Nat} {column : String × ChType} {row : SerializedRow}
    (hcolumn : schema[c]? = some column) (hrow : rows[i]? = some row) :
    ∃ v, given row column.1 = [v] ∧
      (schema.map fun column => rows.flatMap (given · column.1)).flatten[c * rows.length + i]? =
        some v := by
  have hmem := List.mem_of_getElem? hcolumn
  obtain ⟨v, hv⟩ := h.given_eq (List.mem_of_getElem? hrow) hmem
  refine ⟨v, hv, ?_⟩
  have hlengths : ∀ l ∈ schema.map (fun column => rows.flatMap (given · column.1)),
      l.length = rows.length := by
    intro l hl
    obtain ⟨other, hother, rfl⟩ := List.mem_map.mp hl
    exact length_column h hother
  have hi := (List.getElem?_eq_some_iff.mp hrow).1
  rw [getElem?_flatten_of_length hlengths hi, List.getElem?_map, hcolumn]
  show (rows.flatMap (given · column.1))[i]? = some v
  rw [getElem?_flatMap_one fun row hrow => h row hrow column hmem, hrow]
  show (given row column.1)[0]? = some v
  rw [hv]
  rfl

end Complete

/-! ## Giving the rows back -/

/-- The iterator of complete rows. -/
def iterOf (schema : List (String × ChType)) (rows : List SerializedRow) : RowValueIter :=
  schema.map fun column =>
    (column.1, column.2.stripLowCardinality, rows.flatMap (given · column.1))

theorem takeColumns_eq {schema : List (String × ChType)} {rows : List SerializedRow}
    (h : Complete schema rows) :
    takeColumns rows.length schema
        (schema.map fun column => rows.flatMap (given · column.1)).flatten =
      .ok (iterOf schema rows) := by
  induction schema with
  | nil => rfl
  | cons column schema ih =>
      have hlen := length_column h List.mem_cons_self
      have hrest : Complete schema rows := fun row hrow other hother =>
        h row hrow other (List.mem_cons_of_mem column hother)
      rw [List.map_cons, List.flatten_cons, takeColumns, if_neg (by rw [List.length_append]; omega),
        List.drop_left' hlen, List.take_left' hlen, ih hrest]
      rfl

theorem popEach_iterOf {schema : List (String × ChType)} {row : SerializedRow}
    {rows : List SerializedRow} (h : Complete schema (row :: rows)) :
    ∃ cells, RowValueIter.popEach (iterOf schema (row :: rows)) = some (cells, iterOf schema rows) ∧
      Cells schema row cells := by
  induction schema with
  | nil => exact ⟨[], rfl, .nil⟩
  | cons column schema ih =>
      obtain ⟨v, hv⟩ := h.given_eq List.mem_cons_self List.mem_cons_self
      obtain ⟨cells, hpop, hcells⟩ := ih fun row hrow other hother =>
        h row hrow other (List.mem_cons_of_mem column hother)
      refine ⟨(column.1, column.2.stripLowCardinality, v) :: cells, ?_, .cons ⟨rfl, rfl, hv⟩ hcells⟩
      rw [iterOf, List.map_cons, List.flatMap_cons, hv]
      show (RowValueIter.popEach (iterOf schema (row :: rows))).map _ = _
      rw [hpop]
      rfl

/-- The rows come back in order; a schema without columns has no row to give. -/
theorem iterOf_yields {schema : List (String × ChType)} {rows : List SerializedRow}
    (h : Complete schema rows) (hschema : schema = [] → rows = []) :
    ∃ out, RowValueIter.Yields (iterOf schema rows) out ∧ List.Forall₂ (Cells schema) rows out := by
  cases schema with
  | nil =>
      obtain rfl := hschema rfl
      exact ⟨[], .done rfl, .nil⟩
  | cons column schema =>
      clear hschema
      induction rows with
      | nil => exact ⟨[], .done rfl, .nil⟩
      | cons row rows ih =>
          obtain ⟨cells, hpop, hcells⟩ := popEach_iterOf h
          obtain ⟨out, hyields, hout⟩ := ih fun r hr => h r (List.mem_cons_of_mem row hr)
          exact ⟨cells :: out, .more hpop hyields, .cons hcells hout⟩

/-! ## Writing the block -/

/-- The type and the values of an accepted column. -/
theorem accepted_column {schema : List (String × ChType)} (hnames : (schema.map Prod.fst).Nodup)
    {rows : List SerializedRow} (haccepted : ∀ r ∈ rows, Accepted schema r)
    {column : String × ChType} (hcolumn : column ∈ schema) :
    ∀ v ∈ rows.flatMap (given · column.1), column.2.validateValue v = .ok () := by
  intro v hv
  obtain ⟨row, hrow, hgiven⟩ := List.mem_flatMap.mp hv
  obtain ⟨named, rfl, hnamed⟩ := haccepted row hrow
  obtain ⟨entry, hentry, rfl⟩ := List.mem_map.mp hgiven
  obtain ⟨hmem, hname⟩ := List.mem_filter.mp hentry
  obtain ⟨t, ht, hvalid⟩ := hnamed entry hmem
  -- The names are distinct, so the type found by the name is the column's own.
  have hsame := find_column hnames ht
  rw [of_decide_eq_true hname, find_column hnames hcolumn] at hsame
  rwa [← (Prod.mk.inj (Option.some.inj hsame)).2] at hvalid

/-- The first null of a geo column, column after column. -/
def firstGeoNull (schema : List (String × ChType)) (rows : List SerializedRow) : Option GeoNull :=
  ChType.geoNull.geoNulls (schema.map Prod.snd)
    (schema.map fun column => rows.flatMap (given · column.1))

theorem writeColumns_none (revision : Nat) (schema : List (String × ChType)) :
    ∃ bytes, writeColumns revision 0 schema [] = .ok bytes := by
  induction schema with
  | nil => exact ⟨[], rfl⟩
  | cons column schema ih =>
      obtain ⟨bytes, hbytes⟩ := ih
      rw [writeColumns, if_neg (Nat.not_lt_zero _), List.drop_nil, hbytes]
      exact ⟨_, rfl⟩

theorem writeColumns_end (revision : Nat) {schema : List (String × ChType)}
    {rows : List SerializedRow} (hrows : 0 < rows.length) (h : Complete schema rows)
    (hvalid : ∀ column ∈ schema, ∀ v ∈ rows.flatMap (given · column.1),
      column.2.validateValue v = .ok ()) :
    ColumnEnd (firstGeoNull schema rows)
      (writeColumns revision rows.length schema
        (schema.map fun column => rows.flatMap (given · column.1)).flatten) := by
  induction schema with
  | nil => exact .written []
  | cons column schema ih =>
      have hlen := length_column h List.mem_cons_self
      have hhead := hvalid column List.mem_cons_self
      have hcolumn : ColumnEnd (column.2.geoNull (rows.flatMap (given · column.1)))
          (column.2.serializeColumn (rows.flatMap (given · column.1))) := by
        obtain ⟨v, hv⟩ : ∃ v, v ∈ rows.flatMap (given · column.1) :=
          List.exists_mem_of_length_pos (by rw [hlen]; exact hrows)
        exact ChType.serializeColumn_end column.2 (ChType.validateValue_eq_ok.mp (hhead v hv)).1 _
          fun v hv => (ChType.validateValue_eq_ok.mp (hhead v hv)).2
      have hrest := ih
        (fun row hrow other hother => h row hrow other (List.mem_cons_of_mem column hother))
        fun other hother => hvalid other (List.mem_cons_of_mem column hother)
      rw [firstGeoNull, List.map_cons, List.map_cons, ChType.geoNull.geoNulls, List.flatten_cons,
        writeColumns, if_neg (by rw [List.length_append]; omega), List.take_left' hlen,
        List.drop_left' hlen, writeBody, if_pos hrows]
      exact (hcolumn.bind_written _).bind fun body => hrest.bind_written _

theorem write_noPanic_iff {schema : List (String × ChType)} {rows : List SerializedRow}
    (hcount : rows.length < 2 ^ 64) (h : Complete schema rows)
    (hvalid : ∀ column ∈ schema, ∀ v ∈ rows.flatMap (given · column.1),
      column.2.validateValue v = .ok ()) (revision : Nat) :
    (write ⟨BlockInfo.initial, UInt64.ofNat rows.length, schema,
        (schema.map fun column => rows.flatMap (given · column.1)).flatten⟩ revision).NoPanic ↔
      firstGeoNull schema rows ≠ some .unreachable := by
  have hrows : (UInt64.ofNat rows.length).toNat = rows.length :=
    UInt64.toNat_ofNat_of_lt' hcount
  have hend : ColumnEnd (firstGeoNull schema rows) (writeColumns revision rows.length schema
      (schema.map fun column => rows.flatMap (given · column.1)).flatten) := by
    rcases Nat.eq_zero_or_pos rows.length with hzero | hpos
    · obtain rfl := List.length_eq_zero_iff.mp hzero
      have hnone : firstGeoNull schema [] = none := by
        have hempty : (schema.map fun column => List.flatMap (given · column.1) []) =
            List.replicate schema.length [] :=
          List.eq_replicate_iff.mpr ⟨List.length_map _, by simp⟩
        rw [firstGeoNull, hempty]
        exact ChType.geoNulls_nil _ (fun t _ => t.geoNull_nil) _
      have hflat : (schema.map fun column => List.flatMap (given · column.1) []).flatten = [] :=
        List.flatten_eq_nil_iff.mpr (by simp)
      obtain ⟨bytes, hbytes⟩ := writeColumns_none revision schema
      rw [hnone, hflat]
      show ColumnEnd none (writeColumns revision 0 schema [])
      rw [hbytes]
      exact .written bytes
    · exact writeColumns_end revision hpos h hvalid
  rw [write, hrows]
  exact (hend.bind_written _).noPanic_iff

/-! ## The contract -/

theorem keepsRows_complete {schema : List (String × ChType)} {rows : List SerializedRow} {b : Block}
    (h : KeepsRows schema rows b) : Complete schema rows := by
  intro row hrow column hcolumn
  obtain ⟨i, hi⟩ := List.getElem?_of_mem hrow
  obtain ⟨c, hc⟩ := List.getElem?_of_mem hcolumn
  obtain ⟨v, hv, -⟩ := h.entry c column hc i row hi
  rw [hv]
  rfl

/-- **Rows become columns exactly when they are complete.**  They are refused where one of them
is not accepted.  Else every row must have one value for every column; without columns there
must be no rows, and no null may stand among points. -/
theorem rowsBecomeColumns_iff {schema : List (String × ChType)} {rows : List SerializedRow}
    (hnames : (schema.map Prod.fst).Nodup) (hcount : rows.length < 2 ^ 64) :
    RowsBecomeColumns schema rows ↔
      (∃ row ∈ rows, ¬ Accepted schema row) ∨
        Complete schema rows ∧ (schema = [] → rows = []) ∧
          firstGeoNull schema rows ≠ some .unreachable := by
  rcases fromRows_end hnames rows with ⟨haccepted, hfrom⟩ | ⟨hrefused, hfails⟩
  · have hvalid : ∀ column ∈ schema, ∀ v ∈ rows.flatMap (given · column.1),
        column.2.validateValue v = .ok () := fun column hcolumn =>
      accepted_column hnames haccepted hcolumn
    constructor
    · rintro (⟨e, hfail⟩ | ⟨b, hblock, hkeeps⟩)
      · rw [hfrom] at hfail
        cases hfail
      · have hcomplete := keepsRows_complete hkeeps
        obtain rfl := Except.ok.inj (hfrom.symm.trans hblock)
        refine .inr ⟨hcomplete, fun hschema => ?_, ?_⟩
        · subst hschema
          -- Without columns the iterator yields nothing, so there were no rows.
          obtain ⟨iter, out, hiter, hyields, hout⟩ := hkeeps.iterates
          obtain rfl := Except.ok.inj hiter
          cases hyields with
          | done => exact List.forall₂_nil_right_iff.mp hout
          | more hnext => cases hnext
        · exact (write_noPanic_iff hcount hcomplete hvalid 0).mp (hkeeps.writes 0)
    · rintro (⟨row, hrow, hnot⟩ | ⟨hcomplete, hschema, hwrites⟩)
      · exact absurd (haccepted row hrow) hnot
      · obtain ⟨out, hyields, hout⟩ := iterOf_yields hcomplete hschema
        refine .inr ⟨_, hfrom, length_data hcomplete,
          fun c column hcolumn i row hrow => entry_data hcomplete hcolumn hrow,
          ⟨iterOf schema rows, out, ?_, hyields, hout⟩,
          fun revision => (write_noPanic_iff hcount hcomplete hvalid revision).mpr hwrites⟩
        rw [takeIterRows, UInt64.toNat_ofNat_of_lt' hcount]
        exact takeColumns_eq hcomplete
  · refine iff_of_true (.inl hfails) (.inl ?_)
    by_contra hall
    exact hrefused fun row hrow => by_contra fun hnot => hall ⟨row, hrow, hnot⟩

/-- Two rows of two columns, the second with its values in the other order. -/
theorem rowsBecomeColumns_sample :
    RowsBecomeColumns [("a", .uint8), ("b", .string)]
      [.ok [("a", .uint8 1), ("b", .string [104])], .ok [("b", .string [105]), ("a", .uint8 2)]] := by
  refine (rowsBecomeColumns_iff (by decide) (by decide)).mpr (.inr ⟨?_, ?_, by decide⟩)
  · intro row hrow column hcolumn
    simp only [List.mem_cons, List.not_mem_nil, or_false] at hrow hcolumn
    rcases hrow with rfl | rfl <;> rcases hcolumn with rfl | rfl <;> rfl
  · intro h
    cases h

/-- A row that omits a column, one that gives it twice, and a null among points. -/
theorem not_rowsBecomeColumns_samples :
    ¬ RowsBecomeColumns [("a", .uint8), ("b", .uint8)]
        [.ok [("a", .uint8 1), ("b", .uint8 2)], .ok [("a", .uint8 3)]] ∧
      ¬ RowsBecomeColumns [("a", .uint8)] [.ok [("a", .uint8 1), ("a", .uint8 2)]] ∧
      ¬ RowsBecomeColumns [("a", .nullable .point)] [.ok [("a", .null)]] := by
  refine ⟨?_, ?_, ?_⟩
  · rintro (⟨e, hfail⟩ | ⟨b, hblock, hkeeps⟩)
    · cases hfail
    · obtain ⟨v, hv, -⟩ := hkeeps.entry 1 ("b", .uint8) rfl 1 _ rfl
      cases hv
  · rintro (⟨e, hfail⟩ | ⟨b, hblock, hkeeps⟩)
    · cases hfail
    · obtain ⟨v, hv, -⟩ := hkeeps.entry 0 ("a", .uint8) rfl 0 _ rfl
      cases hv
  · rintro (⟨e, hfail⟩ | ⟨b, hblock, hkeeps⟩)
    · cases hfail
    · obtain rfl := Except.ok.inj hblock
      exact hkeeps.writes 0 _ rfl

end Block

end ClickhouseArrow
