import ClickhouseArrow.Arrow.ColumnReads
import ClickhouseArrow.Arrow.Dictionaries

/-!
# Which arrays fill the column that is created for their type

`arrow_to_ch_type` names a `ClickHouse` type for an Arrow type, and the serializers take the
arrays of some Arrow types for each `ClickHouse` type.  The two do not meet everywhere.  The
condition under which an array is written follows the array into its parts, as far as the
serializers go into them.
-/

namespace ClickhouseArrow

open Wire

namespace Arrow

/-! ## Arrays and their values -/

namespace ArrowArray

mutual

/-- At every depth a fixed size is not negative, and the number of values of a list of a fixed
size fits a length. -/
def Sized : ArrowArray → Prop
  | .fixedSizeBinary size _ _ => 0 ≤ size.toInt
  | .list _ _ _ values _ | .listView _ _ _ _ values _ => values.Sized
  | .fixedSizeList _ size n values _ =>
      0 ≤ size.toInt ∧ size.toInt.toNat * n < 2 ^ 64 ∧ values.Sized
  | .struct _ columns _ _ => AllSized columns
  | .map _ _ _ keys values _ => keys.Sized ∧ values.Sized
  | .dictionary _ _ _ values => values.Sized
  | _ => True

def AllSized : List ArrowArray → Prop
  | [] => True
  | a :: columns => a.Sized ∧ AllSized columns

end

end ArrowArray

/-- The value is in the range of the type. -/
def InRangeOf : ChType → (p : PrimitiveType) → p.Native → Prop
  | .decimal32 _, .decimal128 _ _, v => -(10 ^ 9) < BitVec.toInt v ∧ BitVec.toInt v < 10 ^ 9
  | .decimal64 _, .decimal128 _ _, v => -(10 ^ 18) < BitVec.toInt v ∧ BitVec.toInt v < 10 ^ 18
  | .date, .date32, v => 0 ≤ Int32.toInt v ∧ Int32.toInt v ≤ 65535
  | .date32, .date32, v => Int32.toInt v + 25567 < 2 ^ 31
  | .dateTime _, .timestamp .second _, v => 0 ≤ Int64.toInt v ∧ Int64.toInt v < 2 ^ 32
  | _, _, _ => True

section Options

variable (lex : Lexicon) (options : Option ArrowOptions)

mutual

/-- At every depth the values are in the range of the type that is created for them. -/
def InRange : ArrowArray → Prop
  | .primitive p values nulls =>
      ∀ t, primitiveChType lex options p = .ok t → ∀ v, some v ∈ slots values nulls →
        InRangeOf t p v
  | .list _ _ _ values _ | .listView _ _ _ _ values _ | .fixedSizeList _ _ _ values _ =>
      InRange values
  | .struct _ columns _ _ => AllInRange columns
  | .map _ _ _ keys values _ => InRange keys ∧ InRange values
  | .dictionary _ _ _ values => InRange values
  | _ => True

def AllInRange : List ArrowArray → Prop
  | [] => True
  | a :: columns => InRange a ∧ AllInRange columns

end

end Options

/-! ## The condition -/

/-- The writer of the type that is created takes the arrays of this one. -/
def PrimitiveType.hasWriter : PrimitiveType → Bool
  | .decimal32 _ _ | .decimal64 _ _ | .date64 | .time32 _ | .time64 _ | .duration _
  | .interval _ => false
  | _ => true

/-- The type that is created has nine digits behind the second: its default has more bytes than
`put_slice` finds. -/
def PrimitiveType.isNanoseconds : PrimitiveType → Bool
  | .timestamp .nanosecond _ | .time32 .nanosecond | .time64 .nanosecond
  | .duration .nanosecond => true
  | _ => false

mutual

/-- The default of the type that is created cannot be written. -/
def DataType.lacksDefault : DataType → Bool
  | .primitive p => p.isNanoseconds
  | .fixedSizeBinary size => decide (size.toInt < 0)
  | .struct fields => fieldsLackDefault fields
  | .dictionary _ value => value.lacksDefault
  | _ => false

def fieldsLackDefault : List Field → Bool
  | [] => false
  | ⟨_, d, _⟩ :: fields => d.lacksDefault || fieldsLackDefault fields

end

/-- The type that is created for a nullable field is a `Nullable`. -/
def DataType.takesNullable : DataType → Bool
  | .primitive _ | .boolean | .fixedSizeBinary _ | .bytes _ | .struct _ => true
  | _ => false

mutual

/-- The array, of a nullable field or not, is one that the serializers write.  Behind a
dictionary without rows nothing is looked at. -/
def ArrowArray.Writable (nullable : Bool) : ArrowArray → Prop
  | .primitive p _ _ => p.hasWriter = true
  | .list _ item _ values _ | .fixedSizeList item _ _ values _ => values.Writable item.nullable
  | .listView _ item offsets _ values _ => offsets ≠ [] ∧ values.Writable item.nullable
  | .struct fields columns _ _ => AllWritable fields columns
  | .map ⟨_, .struct (keyField :: valueField :: _), _⟩ _ _ keys values _ =>
      keys.Writable keyField.nullable ∧ values.Writable valueField.nullable
  | .dictionary _ keys _ values =>
      keys = [] ∨ (values.Writable nullable ∧
        ¬ (nullable = true ∧ values.nullCount = 0 ∧ values.dataType.takesNullable = true ∧
          values.dataType.lacksDefault = true))
  | _ => True

def AllWritable : List Field → List ArrowArray → Prop
  | f :: fields, a :: columns => a.Writable f.nullable ∧ AllWritable fields columns
  | _, _ => True

end

/-! ## Leaves -/

/-- The computation ends with a value. -/
def Succeeds {α : Type} (o : ArrowResult α) : Prop := ∃ a, o = .ok a

theorem succeeds_ok {α : Type} (a : α) : Succeeds (.ok a : ArrowResult α) := ⟨a, rfl⟩

theorem not_succeeds_fail {α : Type} (e : ArrowError) :
    ¬ Succeeds (.fail e : ArrowResult α) := by
  rintro ⟨a, ha⟩
  cases ha

theorem not_succeeds_panic {α : Type} (p : Panic) : ¬ Succeeds (.panic p : ArrowResult α) := by
  rintro ⟨a, ha⟩
  cases ha

/-- Two steps succeed where the first one does and the second one does on every value. -/
theorem succeeds_bind {α β : Type} {o : ArrowResult α} {f : α → ArrowResult β} {P : Prop}
    (hf : ∀ a, Succeeds (f a) ↔ P) : Succeeds (o >>= f) ↔ Succeeds o ∧ P := by
  constructor
  · rintro ⟨b, hb⟩
    obtain ⟨a, ha, hfa⟩ := Outcome.bind_eq_ok.mp hb
    exact ⟨⟨a, ha⟩, (hf a).mp ⟨b, hfa⟩⟩
  · rintro ⟨⟨a, rfl⟩, hP⟩
    exact (hf a).mpr hP

theorem succeeds_emit {α : Type} {f : α → ArrowResult Bytes} {as : List α}
    (h : ∀ a ∈ as, Succeeds (f a)) : Succeeds (Outcome.emit f as) := by
  induction as with
  | nil => exact succeeds_ok []
  | cons a as ih =>
    obtain ⟨bytes, hbytes⟩ := h a List.mem_cons_self
    obtain ⟨rest, hrest⟩ := ih fun b hb => h b (List.mem_cons_of_mem a hb)
    exact ⟨bytes ++ rest, by rw [Outcome.emit, hbytes, Outcome.ok_bind, hrest, Outcome.ok_bind]⟩

theorem succeeds_writeRows {α β : Type} {default : β} {coerce : α → ArrowResult β}
    {write : β → Bytes} {rows : List (Option α)}
    (h : ∀ v, some v ∈ rows → Succeeds (coerce v)) :
    Succeeds (Primitive.writeRows default coerce write rows) := by
  refine succeeds_emit fun row hrow => ?_
  cases row with
  | none => exact succeeds_ok _
  | some v =>
    obtain ⟨x, hx⟩ := h v hrow
    exact ⟨write x, by simp only [hx, Outcome.ok_bind]⟩

section Leaves

variable {lex : Lexicon} {options : Option ArrowOptions}

theorem succeeds_dateOfDays {v : Int32} (h : 0 ≤ v.toInt ∧ v.toInt ≤ 65535) :
    Succeeds (Primitive.dateOfDays v) := by
  have hlow : v < 0 ↔ v.toInt < 0 := Int32.lt_iff_toInt_lt
  have hhigh : 65535 < v ↔ 65535 < v.toInt := Int32.lt_iff_toInt_lt
  rw [Primitive.dateOfDays, if_neg (by rw [hlow, hhigh]; omega)]
  exact succeeds_ok _

theorem succeeds_addI32 {v : Int32} (h : v.toInt + 25567 < 2 ^ 31) :
    Succeeds (addI32 v Primitive.days1900To1970) := by
  have hlow := Int32.le_toInt v
  have hdays : Primitive.days1900To1970.toInt = 25567 := by decide
  simp only [addI32, hdays]
  rw [if_pos (by omega)]
  exact succeeds_ok _

theorem succeeds_dateTimeOfSeconds {v : Int64} (h : v.toInt < 2 ^ 32) :
    Succeeds (Primitive.dateTimeOfSeconds v) := by
  have hhigh : 4294967295 < v ↔ 4294967295 < v.toInt := Int64.lt_iff_toInt_lt
  rw [Primitive.dateTimeOfSeconds, if_neg (by rw [hhigh]; omega)]
  exact succeeds_ok _

theorem succeeds_inDigits (name : String) (digits : Nat) {v : BitVec 128}
    (h : -(10 ^ digits : Int) < v.toInt ∧ v.toInt < 10 ^ digits) :
    Succeeds (Primitive.inDigits name digits v) := by
  rw [Primitive.inDigits, if_pos h]
  exact succeeds_ok _

/-- The values of a leaf are written where their class has a writer. -/
theorem succeeds_primitive {p : PrimitiveType} {values : List p.Native} {nulls : Nulls}
    {b : ChType} (hb : primitiveChType lex options p = .ok b)
    (hrange : ∀ v, some v ∈ slots values nulls → InRangeOf b p v) (isNull : Bool) :
    Succeeds (serializeAsyncOf isNull b (.primitive p values nulls) (.primitive p)) ↔
      p.hasWriter = true := by
  -- One case for each class: with a writer the rows are within its range, and without one the type
  -- has no arm for it.
  cases p with
  | int8 =>
    cases hb
    exact iff_of_true (succeeds_writeRows fun v _ => succeeds_ok v) rfl
  | int16 =>
    cases hb
    exact iff_of_true (succeeds_writeRows fun v _ => succeeds_ok v) rfl
  | int32 =>
    cases hb
    exact iff_of_true (succeeds_writeRows fun v _ => succeeds_ok v) rfl
  | int64 =>
    cases hb
    exact iff_of_true (succeeds_writeRows fun v _ => succeeds_ok v) rfl
  | uint8 =>
    cases hb
    refine iff_of_true ?_ rfl
    have hwrite : serializeAsyncOf isNull .uint8 (.primitive .uint8 values nulls)
        (.primitive .uint8) = Primitive.writeU8Values (.primitive .uint8 values nulls) := by
      simp [serializeAsyncOf, Primitive.serializeAsync]
    rw [hwrite]
    exact succeeds_writeRows fun v _ => succeeds_ok v
  | uint16 =>
    cases hb
    exact iff_of_true (succeeds_writeRows fun v _ => succeeds_ok v) rfl
  | uint32 =>
    cases hb
    exact iff_of_true (succeeds_writeRows fun v _ => succeeds_ok v) rfl
  | uint64 =>
    cases hb
    exact iff_of_true (succeeds_writeRows fun v _ => succeeds_ok v) rfl
  | float16 => cases hb
  | float32 =>
    cases hb
    exact iff_of_true (succeeds_writeRows fun v _ => succeeds_ok v) rfl
  | float64 =>
    cases hb
    exact iff_of_true (succeeds_writeRows fun v _ => succeeds_ok v) rfl
  | decimal32 digits s =>
    cases hb
    exact iff_of_false (not_succeeds_fail _) (by simp [PrimitiveType.hasWriter])
  | decimal64 digits s =>
    cases hb
    exact iff_of_false (not_succeeds_fail _) (by simp [PrimitiveType.hasWriter])
  | decimal128 digits s =>
    refine iff_of_true ?_ rfl
    simp only [primitiveChType] at hb
    split_ifs at hb <;> cases hb
    · refine succeeds_writeRows fun v hv => ?_
      -- By the digits the type is one of four decimals, and the two narrow ones check the digits.
      obtain ⟨n, hn⟩ := succeeds_inDigits "Decimal32" 9 (hrange v hv)
      exact ⟨Int32.ofInt n, by rw [hn]; rfl⟩
    · refine succeeds_writeRows fun v hv => ?_
      obtain ⟨n, hn⟩ := succeeds_inDigits "Decimal64" 18 (hrange v hv)
      exact ⟨Int64.ofInt n, by rw [hn]; rfl⟩
    · exact succeeds_writeRows fun v _ => succeeds_ok v
    · exact succeeds_writeRows fun v _ => succeeds_ok _
  | decimal256 digits s =>
    cases hb
    exact iff_of_true (succeeds_writeRows fun v _ => succeeds_ok _) rfl
  | date32 =>
    refine iff_of_true ?_ rfl
    simp only [primitiveChType] at hb
    split_ifs at hb <;> cases hb
    · exact succeeds_writeRows fun v hv => succeeds_addI32 (hrange v hv)
    · exact succeeds_writeRows fun v hv => succeeds_dateOfDays (hrange v hv)
  | date64 =>
    cases hb
    exact iff_of_false (not_succeeds_fail _) (by simp [PrimitiveType.hasWriter])
  | time32 unit =>
    refine iff_of_false ?_ (by simp [PrimitiveType.hasWriter])
    cases unit <;> cases hb <;> exact not_succeeds_fail _
  | time64 unit =>
    refine iff_of_false ?_ (by simp [PrimitiveType.hasWriter])
    cases unit <;> cases hb <;> exact not_succeeds_fail _
  | duration unit =>
    refine iff_of_false ?_ (by simp [PrimitiveType.hasWriter])
    cases unit <;> cases hb <;> exact not_succeeds_fail _
  | interval unit =>
    cases hb
    exact iff_of_false (not_succeeds_fail _) (by simp [PrimitiveType.hasWriter])
  | timestamp unit tz =>
    refine iff_of_true ?_ rfl
    cases unit with
    | second =>
      cases hb
      exact succeeds_writeRows fun v hv => succeeds_dateTimeOfSeconds (hrange v hv).2
    | _ =>
      cases hb
      exact succeeds_writeRows fun v _ => succeeds_ok _

theorem succeeds_boolean (values : List Bool) (nulls : Nulls) (isNull : Bool) :
    Succeeds (serializeAsyncOf isNull .uint8 (.boolean values nulls) .boolean) := by
  have hwrite : serializeAsyncOf isNull .uint8 (.boolean values nulls) .boolean =
      Primitive.writeBoolValues (.boolean values nulls) := by
    simp [serializeAsyncOf, Primitive.serializeAsync]
  rw [hwrite]
  exact succeeds_writeRows fun v _ => succeeds_ok _

/-- A size can be allocated if it is not negative. -/
theorem succeeds_zeroed_iff {size : Int32} :
    Succeeds (zeroed (usizeOfInt size.toInt)) ↔ 0 ≤ size.toInt := by
  have hlow := Int32.le_toInt size
  have hhigh := Int32.toInt_lt size
  unfold zeroed usizeOfInt isizeMax
  split
  · exact iff_of_false (not_succeeds_panic _) (by omega)
  · exact iff_of_true (succeeds_ok _) (by omega)

theorem succeeds_fixedSizeBinary {size : Int32} (hsize : 0 ≤ size.toInt) (values : List Bytes)
    (nulls : Nulls) (isNull : Bool) :
    Succeeds (serializeAsyncOf isNull (.fixedSizedBinary (usizeOfInt size.toInt))
      (.fixedSizeBinary size values nulls) (.fixedSizeBinary size)) := by
  obtain ⟨zeros, hzeros⟩ := succeeds_zeroed_iff.mpr hsize
  refine succeeds_emit fun row _ => ?_
  cases row with
  | none => exact ⟨zeros, hzeros⟩
  | some value =>
    rw [Binary.writeFixed]
    split
    · rw [hzeros]
      exact succeeds_ok _
    · exact succeeds_ok _

theorem succeeds_bytes (t : BytesType) (values : List Bytes) (nulls : Nulls) (isNull : Bool) :
    Succeeds (serializeAsyncOf isNull (if t.isUtf8 then .string else .binary)
      (.bytes t values nulls) (.bytes t)) := by
  cases t.isUtf8
  · exact succeeds_ok _
  · exact succeeds_ok _

/-! ## Nullable columns -/

/-- The array is written for the type, and for what stands in its `Nullable`, where the
condition holds. -/
def WrittenIff (t : ChType) (a : ArrowArray) (P : Prop) : Prop :=
  (Succeeds (serializeAsyncOf false t a a.dataType) ↔ P) ∧
    (Succeeds (serializeAsyncOf false t.stripNull a a.dataType) ↔ P)

/-- The nulls are written before the values and never fail. -/
theorem writtenIff_withNullability {b : ChType} {a : ArrowArray} {P : Prop} (nullable : Bool)
    (hb : b.stripNull = b)
    (h : ∀ isNull, Succeeds (serializeAsyncOf isNull b a a.dataType) ↔ P) :
    WrittenIff (withNullability nullable b) a P := by
  have hplain : WrittenIff b a P := ⟨h false, by rw [hb]; exact h false⟩
  have hnull : WrittenIff (.nullable b) a P := by
    refine ⟨?_, h false⟩
    have htwo : serializeAsyncOf false (.nullable b) a a.dataType =
        (serializeAsyncOf true b a a.dataType >>= fun body =>
          .ok (Null.serializeNullsAsync b a ++ body)) := rfl
    rw [htwo, succeeds_bind (P := True) fun _ => iff_true_intro (succeeds_ok _), and_true]
    exact h true
  unfold withNullability
  split
  · exact hplain
  · exact hplain
  · cases nullable
    · exact hplain
    · exact hnull

end Leaves

/-! ## The types that are created -/

section Created

variable {lex : Lexicon} {options : Option ArrowOptions} {nullable : Bool} {t : ChType}

theorem stripNull_primitiveChType {p : PrimitiveType} {b : ChType}
    (h : primitiveChType lex options p = .ok b) : b.stripNull = b := by
  cases p with
  | decimal128 =>
    simp only [primitiveChType] at h
    split_ifs at h <;> cases h <;> rfl
  | date32 =>
    simp only [primitiveChType] at h
    split_ifs at h <;> cases h <;> rfl
  | float16 => cases h
  | time32 unit => cases unit <;> cases h <;> rfl
  | time64 unit => cases unit <;> cases h <;> rfl
  | duration unit => cases unit <;> cases h <;> rfl
  | timestamp unit => cases unit <;> cases h <;> rfl
  | _ =>
    cases h
    rfl

theorem created_primitive {p : PrimitiveType}
    (h : arrowToChType lex options (.primitive p) nullable = .ok t) :
    ∃ b, primitiveChType lex options p = .ok b ∧ t = withNullability nullable b := by
  simp only [arrowToChType] at h
  cases hb : primitiveChType lex options p with
  | ok b =>
    rw [hb] at h
    exact ⟨b, rfl, (Except.ok.inj h).symm⟩
  | error e =>
    rw [hb] at h
    cases h

/-- A list of any kind becomes an array. -/
theorem created_items {d : DataType} {item : Field}
    (hd : (∃ large, d = .list large item) ∨ (∃ large, d = .listView large item) ∨
      ∃ size, d = .fixedSizeList item size)
    (h : arrowToChType lex options d nullable = .ok t) :
    ∃ inner, arrowToChType lex options item.dataType item.nullable = .ok inner ∧
      t = .array inner := by
  obtain ⟨name, d', itemNullable⟩ := item
  have hitems : (if nullable && refusesNullableArray options then
      Outcome.fail (.typeConversion [.text "ClickHouse does not support nullable Lists"])
    else arrowToChType lex options d' itemNullable >>= fun inner => .ok (ChType.array inner)) =
      Except.ok t := by
    rcases hd with ⟨large, rfl⟩ | ⟨large, rfl⟩ | ⟨size, rfl⟩
    · exact h
    · exact h
    · exact h
  split at hitems
  · cases hitems
  · obtain ⟨inner, hinner, ht⟩ := Outcome.bind_eq_ok.mp hitems
    exact ⟨inner, hinner, (Except.ok.inj ht).symm⟩

theorem created_struct {fields : List Field}
    (h : arrowToChType lex options (.struct fields) nullable = .ok t) :
    ∃ types, arrowFieldsToChTypes lex options fields = .ok types ∧
      t = withNullability nullable (.tuple types) := by
  simp only [arrowToChType] at h
  obtain ⟨types, htypes, ht⟩ := Outcome.bind_eq_ok.mp h
  exact ⟨types, htypes, (Except.ok.inj ht).symm⟩

theorem created_fields_cons {f : Field} {fields : List Field} {types : List ChType}
    (h : arrowFieldsToChTypes lex options (f :: fields) = .ok types) :
    ∃ u us, arrowToChType lex options f.dataType f.nullable = .ok u ∧
      arrowFieldsToChTypes lex options fields = .ok us ∧ types = u :: us := by
  simp only [arrowFieldsToChTypes] at h
  obtain ⟨u, hu, h⟩ := Outcome.bind_eq_ok.mp h
  obtain ⟨us, hus, h⟩ := Outcome.bind_eq_ok.mp h
  exact ⟨u, us, hu, hus, (Except.ok.inj h).symm⟩

theorem created_map {entries : Field} {sorted : Bool} {keyField valueField : Field}
    (hentries : entries.dataType = .struct [keyField, valueField])
    (h : arrowToChType lex options (.map entries sorted) nullable = .ok t) :
    ∃ k v, arrowToChType lex options keyField.dataType keyField.nullable = .ok k ∧
      arrowToChType lex options valueField.dataType valueField.nullable = .ok v ∧
        t = .map k v := by
  obtain ⟨name, d, entriesNullable⟩ := entries
  obtain rfl : d = _ := hentries
  simp only [arrowToChType] at h
  obtain ⟨k, hk, h⟩ := Outcome.bind_eq_ok.mp h
  obtain ⟨v, hv, h⟩ := Outcome.bind_eq_ok.mp h
  exact ⟨k, v, hk, hv, (Except.ok.inj h).symm⟩

theorem exists_map_created {entries : Field} {sorted : Bool}
    (h : arrowToChType lex options (.map entries sorted) nullable = .ok t) :
    ∃ k v, t = .map k v := by
  obtain ⟨name, d, entriesNullable⟩ := entries
  cases d with
  | struct fields =>
    match fields with
    | [] | [_] => cases h
    | keyField :: valueField :: rest =>
      obtain ⟨k, -, h⟩ := Outcome.bind_eq_ok.mp h
      obtain ⟨v, -, h⟩ := Outcome.bind_eq_ok.mp h
      exact ⟨k, v, (Except.ok.inj h).symm⟩
  | _ => cases h

theorem created_dictionary {key value : DataType}
    (h : arrowToChType lex options (.dictionary key value) nullable = .ok t) :
    ∃ inner, arrowToChType lex options value nullable = .ok inner ∧
      t = .lowCardinality inner := by
  simp only [arrowToChType] at h
  split at h
  · cases h
  · obtain ⟨inner, hinner, ht⟩ := Outcome.bind_eq_ok.mp h
    exact ⟨inner, hinner, (Except.ok.inj ht).symm⟩

/-- A type that is neither a `Nullable` nor an array nor a map. -/
def canBeNullable : ChType → Bool
  | .nullable _ | .array _ | .map _ _ => false
  | _ => true

theorem canBeNullable_primitiveChType {p : PrimitiveType} {b : ChType}
    (h : primitiveChType lex options p = .ok b) : canBeNullable b = true := by
  have hleaf : ∀ {c : ChType}, (Except.ok c : ArrowResult ChType) = .ok b →
      canBeNullable c = true → canBeNullable b = true :=
    fun hc hplain => Except.ok.inj hc ▸ hplain
  cases p with
  | decimal128 =>
    simp only [primitiveChType] at h
    split_ifs at h <;> exact hleaf h rfl
  | date32 =>
    simp only [primitiveChType] at h
    split_ifs at h <;> exact hleaf h rfl
  | float16 => cases h
  | time32 unit => cases unit <;> exact hleaf h rfl
  | time64 unit => cases unit <;> exact hleaf h rfl
  | duration unit => cases unit <;> exact hleaf h rfl
  | timestamp unit => cases unit <;> exact hleaf h rfl
  | _ => exact hleaf h rfl

theorem withNullability_plain {b : ChType} (hb : canBeNullable b = true) :
    withNullability nullable b = if nullable then .nullable b else b := by
  cases b <;> first | rfl | simp [canBeNullable] at hb

theorem isNullable_withNullability {b : ChType} (hb : canBeNullable b = true) :
    (withNullability nullable b).isNullable = nullable := by
  rw [withNullability_plain hb]
  cases nullable
  · cases b <;> first | rfl | simp [canBeNullable] at hb
  · rfl

/-- Which types a nullable field becomes a `Nullable` of. -/
theorem isNullable_created {d : DataType} (h : arrowToChType lex options d nullable = .ok t) :
    t.isNullable = (nullable && d.takesNullable) := by
  -- Lists, dictionaries and maps drop the flag of the field.
  cases d with
  | primitive p =>
    obtain ⟨b, hb, rfl⟩ := created_primitive h
    rw [isNullable_withNullability (canBeNullable_primitiveChType hb), DataType.takesNullable,
      Bool.and_true]
  | boolean =>
    cases h
    rw [isNullable_withNullability rfl, DataType.takesNullable, Bool.and_true]
  | fixedSizeBinary size =>
    cases h
    rw [isNullable_withNullability rfl, DataType.takesNullable, Bool.and_true]
  | bytes bt =>
    cases h
    rw [isNullable_withNullability, DataType.takesNullable, Bool.and_true]
    cases bt.isUtf8 <;> exact rfl
  | struct fields =>
    obtain ⟨types, -, rfl⟩ := created_struct h
    rw [isNullable_withNullability rfl, DataType.takesNullable, Bool.and_true]
  | list large item =>
    obtain ⟨inner, -, rfl⟩ := created_items (.inl ⟨large, rfl⟩) h
    simp [ChType.isNullable, DataType.takesNullable]
  | listView large item =>
    obtain ⟨inner, -, rfl⟩ := created_items (.inr (.inl ⟨large, rfl⟩)) h
    simp [ChType.isNullable, DataType.takesNullable]
  | fixedSizeList item size =>
    obtain ⟨inner, -, rfl⟩ := created_items (.inr (.inr ⟨size, rfl⟩)) h
    simp [ChType.isNullable, DataType.takesNullable]
  | dictionary key value =>
    obtain ⟨inner, -, rfl⟩ := created_dictionary h
    simp [ChType.isNullable, DataType.takesNullable]
  | map entries sorted =>
    obtain ⟨k, v, rfl⟩ := exists_map_created h
    simp [ChType.isNullable, DataType.takesNullable]
  | null => cases h
  | union fields => cases h
  | runEndEncoded runEnds values => cases h

/-! ## Defaults -/

theorem succeeds_default_primitive {p : PrimitiveType} {b : ChType}
    (h : primitiveChType lex options p = .ok b) (isNull : Bool) :
    Succeeds (writeDefaultOf isNull b) ↔ p.isNanoseconds = false := by
  have hleaf : ∀ {c : ChType}, (Except.ok c : ArrowResult ChType) = .ok b →
      Succeeds (writeDefaultOf isNull c) → Succeeds (writeDefaultOf isNull b) :=
    fun hc hplain => Except.ok.inj hc ▸ hplain
  have hnano : ∀ {tz}, (Except.ok (.dateTime64 9 tz) : ArrowResult ChType) = .ok b →
      ¬ Succeeds (writeDefaultOf isNull b) :=
    fun hc => Except.ok.inj hc ▸ not_succeeds_panic _
  cases p with
  | decimal128 =>
    simp only [primitiveChType] at h
    split_ifs at h <;> exact iff_of_true (hleaf h (succeeds_ok _)) rfl
  | date32 =>
    simp only [primitiveChType] at h
    split_ifs at h <;> exact iff_of_true (hleaf h (succeeds_ok _)) rfl
  | float16 => cases h
  | time32 unit =>
    cases unit with
    | nanosecond => exact iff_of_false (hnano h) (by simp [PrimitiveType.isNanoseconds])
    | _ => exact iff_of_true (hleaf h (succeeds_ok _)) rfl
  | time64 unit =>
    cases unit with
    | nanosecond => exact iff_of_false (hnano h) (by simp [PrimitiveType.isNanoseconds])
    | _ => exact iff_of_true (hleaf h (succeeds_ok _)) rfl
  | duration unit =>
    cases unit with
    | nanosecond => exact iff_of_false (hnano h) (by simp [PrimitiveType.isNanoseconds])
    | _ => exact iff_of_true (hleaf h (succeeds_ok _)) rfl
  | timestamp unit =>
    cases unit with
    | nanosecond => exact iff_of_false (hnano h) (by simp [PrimitiveType.isNanoseconds])
    | _ => exact iff_of_true (hleaf h (succeeds_ok _)) rfl
  | _ => exact iff_of_true (hleaf h (succeeds_ok _)) rfl

theorem succeeds_default_withNullability {b : ChType} {P : Prop} (hb : canBeNullable b = true)
    (h : ∀ isNull, Succeeds (writeDefaultOf isNull b) ↔ P) :
    Succeeds (writeDefaultOf false (withNullability nullable b)) ↔ P := by
  rw [withNullability_plain hb]
  cases nullable
  · exact h false
  · exact h true

mutual

/-- Where the default of the type that is created can be written. -/
theorem succeeds_default : ∀ {d : DataType} {nullable : Bool} {t : ChType},
    arrowToChType lex options d nullable = .ok t →
      (Succeeds (writeDefaultOf false t) ↔ d.lacksDefault = false)
  | .primitive p, nullable, t, h => by
    obtain ⟨b, hb, rfl⟩ := created_primitive h
    exact succeeds_default_withNullability (canBeNullable_primitiveChType hb)
      (succeeds_default_primitive hb)
  | .boolean, nullable, t, h => by
    cases h
    exact succeeds_default_withNullability rfl
      fun _ => iff_of_true (succeeds_ok _) rfl
  | .fixedSizeBinary size, nullable, t, h => by
    cases h
    refine succeeds_default_withNullability rfl fun _ => ?_
    -- The zeroes of a negative size are more than can be allocated.
    have hdefault : (DataType.fixedSizeBinary size).lacksDefault = decide (size.toInt < 0) := rfl
    rw [hdefault, decide_eq_false_iff_not, Int.not_lt]
    exact succeeds_zeroed_iff
  | .bytes bt, nullable, t, h => by
    cases h
    refine succeeds_default_withNullability ?_ fun _ => iff_of_true ?_ rfl
    · cases bt.isUtf8 <;> rfl
    · cases bt.isUtf8 <;> exact succeeds_ok _
  | .list large item, nullable, t, h => by
    obtain ⟨inner, -, rfl⟩ := created_items (.inl ⟨large, rfl⟩) h
    exact iff_of_true (succeeds_ok _) rfl
  | .listView large item, nullable, t, h => by
    obtain ⟨inner, -, rfl⟩ := created_items (.inr (.inl ⟨large, rfl⟩)) h
    exact iff_of_true (succeeds_ok _) rfl
  | .fixedSizeList item size, nullable, t, h => by
    obtain ⟨inner, -, rfl⟩ := created_items (.inr (.inr ⟨size, rfl⟩)) h
    exact iff_of_true (succeeds_ok _) rfl
  | .struct fields, nullable, t, h => by
    obtain ⟨types, htypes, rfl⟩ := created_struct h
    exact succeeds_default_withNullability rfl fun _ => succeeds_defaults htypes
  | .map entries sorted, nullable, t, h => by
    obtain ⟨k, v, rfl⟩ := exists_map_created h
    exact iff_of_true (succeeds_ok _) rfl
  | .dictionary key value, nullable, t, h => by
    obtain ⟨inner, hinner, rfl⟩ := created_dictionary h
    -- The default of a dictionary is that of its values.
    have hdefault : Succeeds (writeDefaultOf false inner) ↔ value.lacksDefault = false :=
      succeeds_default hinner
    exact hdefault

theorem succeeds_defaults : ∀ {fields : List Field} {types : List ChType},
    arrowFieldsToChTypes lex options fields = .ok types →
      (Succeeds (writeDefaults types) ↔ fieldsLackDefault fields = false)
  | [], types, h => by
    cases h
    exact iff_of_true (succeeds_ok _) rfl
  | ⟨name, d, nullable⟩ :: fields, types, h => by
    obtain ⟨u, us, hu, hus, rfl⟩ := created_fields_cons h
    have htail : ∀ bytes, Succeeds (writeDefaults us >>= fun rest =>
        (.ok (bytes ++ rest) : ArrowResult Bytes)) ↔ fieldsLackDefault fields = false := by
      intro bytes
      rw [succeeds_bind (P := True) fun _ => iff_true_intro (succeeds_ok _), and_true]
      exact succeeds_defaults hus
    rw [writeDefaults, succeeds_bind htail, succeeds_default hu, fieldsLackDefault,
      Bool.or_eq_false_iff]

end

end Created

/-! ## Lists, structs and maps -/

section Nested

variable {lex : Lexicon} {options : Option ArrowOptions}

/-- The ends of the rows of a list of a fixed size do not overflow. -/
theorem succeeds_fixedOffsets {size : Int32} {n : Nat} (hsize : 0 ≤ size.toInt)
    (hbound : size.toInt.toNat * n < 2 ^ 64) : Succeeds (Lists.fixedOffsets size n) := by
  have hhigh := Int32.toInt_lt size
  have husize : usizeOfInt size.toInt = size.toInt.toNat := by
    unfold usizeOfInt
    omega
  refine ⟨_, Outcome.traverse_eq_ok_map (g := fun i => size.toInt.toNat * (i + 1)) ?_⟩
  intro i hi
  have hle : size.toInt.toNat * (i + 1) ≤ size.toInt.toNat * n :=
    Nat.mul_le_mul_left _ (List.mem_range.mp hi)
  simp only [husize]
  rw [if_pos (by omega)]

/-- A list is written where there is an offset before its rows and its values are written. -/
theorem succeeds_writeListArray {serialize : ArrowArray → DataType → ArrowResult Bytes}
    {d innerDt : DataType} (hd : Lists.unwrapArrayDataType d = .ok innerDt) (offsets : List Nat)
    (values : ArrowArray) :
    Succeeds (Lists.writeListArray serialize d offsets values) ↔
      offsets ≠ [] ∧ Succeeds (serialize values innerDt) := by
  have hsecond : ∀ tail : List Nat, Succeeds (serialize values innerDt >>= fun body =>
      (.ok (tail.flatMap putUsize ++ body) : ArrowResult Bytes)) ↔
        Succeeds (serialize values innerDt) := by
    intro tail
    rw [succeeds_bind (P := True) fun _ => iff_true_intro (succeeds_ok _), and_true]
  rw [Lists.writeListArray, hd, Outcome.ok_bind, succeeds_bind hsecond]
  refine and_congr_left' ?_
  cases offsets with
  | nil => exact iff_of_false (not_succeeds_panic _) (by simp)
  | cons offset offsets => exact iff_of_true (succeeds_ok _) (by simp)

theorem writtenIff_array {inner : ChType} {a : ArrowArray} {P : Prop}
    (h : Succeeds (Lists.serializeAsync inner (serializeAsyncOf false inner) a a.dataType) ↔ P) :
    WrittenIff (.array inner) a P :=
  ⟨h, h⟩

/-- The columns of a struct are written one after another. -/
theorem succeeds_columns {fields : List Field} {columns : List ArrowArray} {types : List ChType}
    (htypes : arrowFieldsToChTypes lex options fields = .ok types)
    (hdata : fields.map FieldOf.dataType = columns.map ArrowArray.dataType)
    (hwritten : ∀ a ∈ columns, ∀ (nullable : Bool) (t : ChType),
      arrowToChType lex options a.dataType nullable = .ok t → a.Sized → InRange lex options a →
        WrittenIff t a (a.Writable nullable))
    (hsized : ArrowArray.AllSized columns) (hrange : AllInRange lex options columns) :
    types.length = fields.length ∧
      (Succeeds (serializeColumnsAsync types fields columns) ↔ AllWritable fields columns) := by
  induction columns generalizing fields types with
  | nil =>
    obtain rfl : fields = [] := List.map_eq_nil_iff.mp hdata
    cases htypes
    exact ⟨rfl, iff_of_true (succeeds_ok _) trivial⟩
  | cons a columns ih =>
    match fields with
    | [] => cases hdata
    | f :: fields =>
      obtain ⟨u, us, hu, hus, rfl⟩ := created_fields_cons htypes
      obtain ⟨hhead, htail⟩ := List.cons.inj hdata
      obtain ⟨hlength, hrest⟩ := ih hus htail
        (fun b hb => hwritten b (List.mem_cons_of_mem a hb)) hsized.2 hrange.2
      have hfirst := (hwritten a List.mem_cons_self f.nullable u (hhead ▸ hu) hsized.1 hrange.1).1
      refine ⟨by rw [List.length_cons, List.length_cons, hlength], ?_⟩
      -- The columns behind the first one do not depend on its bytes.
      have hsecond : ∀ bytes : Bytes, Succeeds (serializeColumnsAsync us fields columns >>=
          fun rest => (.ok (bytes ++ rest) : ArrowResult Bytes)) ↔ AllWritable fields columns := by
        intro bytes
        rw [succeeds_bind (P := True) fun _ => iff_true_intro (succeeds_ok _), and_true]
        exact hrest
      have hboth : serializeColumnsAsync (u :: us) (f :: fields) (a :: columns) =
          (serializeAsyncOf false u a f.dataType >>= fun bytes =>
            serializeColumnsAsync us fields columns >>= fun rest => .ok (bytes ++ rest)) := by
        rw [serializeColumnsAsync]
        rfl
      rw [hboth, succeeds_bind hsecond, hhead, hfirst]
      exact Iff.rfl

/-- The default that stands before the values of a dictionary, where one does. -/
theorem succeeds_default_dictionary {nullable : Bool} {inner : ChType} {dictionary : ArrowArray}
    (hinner : arrowToChType lex options dictionary.dataType nullable = .ok inner) :
    Succeeds (if LowCardinality.modifier inner dictionary = 1 then writeDefault inner
        else .ok [] : ArrowResult Bytes) ↔
      ¬ (nullable = true ∧ dictionary.nullCount = 0 ∧ dictionary.dataType.takesNullable = true ∧
        dictionary.dataType.lacksDefault = true) := by
  -- The default stands there where the values are nullable and none of them is null.
  have hmodifier : LowCardinality.modifier inner dictionary = 1 ↔
      nullable = true ∧ dictionary.nullCount = 0 ∧
        dictionary.dataType.takesNullable = true := by
    rw [LowCardinality.modifier, isNullable_created hinner]
    cases nullable <;> cases dictionary.dataType.takesNullable <;> simp
  split_ifs with hif
  · obtain ⟨hnullable, hnulls, htakes⟩ := hmodifier.mp hif
    have hdefault : Succeeds (writeDefault inner) ↔ dictionary.dataType.lacksDefault = false :=
      succeeds_default hinner
    rw [hdefault]
    simp [hnullable, hnulls, htakes]
  · refine iff_of_true (succeeds_ok _) ?_
    rintro ⟨hnullable, hnulls, htakes, -⟩
    exact hif (hmodifier.mpr ⟨hnullable, hnulls, htakes⟩)

theorem keyTypeOf_primitive (key : KeyType) :
    LowCardinality.keyTypeOf (.primitive key.primitive) = some key := by
  cases key <;> rfl

theorem writtenIff_dictionary {key : KeyType} {keys : List Nat} {nulls : Nulls}
    {values : ArrowArray} {nullable : Bool} {inner : ChType}
    (hfit : nulls.Fit keys.length)
    (hinner : arrowToChType lex options values.dataType nullable = .ok inner)
    (hvalues : WrittenIff inner values (values.Writable nullable)) :
    WrittenIff (.lowCardinality inner) (.dictionary key keys nulls values)
      ((ArrowArray.dictionary key keys nulls values).Writable nullable) := by
  suffices h : Succeeds (serializeAsyncOf false (.lowCardinality inner)
      (.dictionary key keys nulls values)
      (ArrowArray.dictionary key keys nulls values).dataType) ↔
        (ArrowArray.dictionary key keys nulls values).Writable nullable from ⟨h, h⟩
  rw [serializeAsyncOf_lowCardinality, ArrowArray.Writable]
  -- Without rows the values are not looked at.
  by_cases hkeys : keys = []
  · subst hkeys
    rw [LowCardinality.serializeAsync_empty _ _ _ _ rfl]
    exact iff_of_true (succeeds_ok _) (.inl rfl)
  · have hwrite : LowCardinality.serializeAsync inner false
        (serializeAsyncOf false inner.stripNull) (.dictionary key keys nulls values)
        (ArrowArray.dictionary key keys nulls values).dataType =
          LowCardinality.writeValues key inner (serializeAsyncOf false inner.stripNull)
            (.dictionary key keys nulls values) := by
      unfold LowCardinality.serializeAsync
      rw [if_neg (by simpa [ArrowArray.len] using hkeys)]
      simp only [ArrowArray.dataType, keyTypeOf_primitive]
    have hbody : ∀ default : Bytes, Succeeds (serializeAsyncOf false inner.stripNull values
        values.dataType >>= fun body => (.ok (LowCardinality.blockBytes
          (LowCardinality.keyTypeFlag (values.len + LowCardinality.modifier inner values))
          (values.len + LowCardinality.modifier inner values) (default ++ body)
          ((slots keys nulls).map
            (LowCardinality.writtenIndex (LowCardinality.modifier inner values)))) :
              ArrowResult Bytes)) ↔ values.Writable nullable := by
      intro default
      rw [succeeds_bind (P := True) fun _ => iff_true_intro (succeeds_ok _), and_true]
      exact hvalues.2
    rw [hwrite, LowCardinality.writeValues_dictionary key inner _ hkeys hfit, succeeds_bind hbody,
      succeeds_default_dictionary hinner]
    simp only [hkeys, false_or]
    exact and_comm

theorem succeeds_serializeMap {key value : ArrowArray → DataType → ArrowResult Bytes}
    {entries keyField valueField : Field} {sorted : Bool} {offsets : List Nat}
    {keys values : ArrowArray} {nulls : Nulls}
    (hentries : entries.dataType = .struct [keyField, valueField]) :
    Succeeds (Maps.serializeAsync key value (.map entries sorted offsets keys values nulls)
        (.map entries sorted)) ↔
      Succeeds (key keys keyField.dataType) ∧ Succeeds (value values valueField.dataType) := by
  have hvalue : ∀ keyBytes : Bytes, Succeeds (value values valueField.dataType >>=
      fun valueBytes => (.ok ((Maps.totalLengths 0 offsets).flatMap putUsize ++ keyBytes ++
        valueBytes) : ArrowResult Bytes)) ↔ Succeeds (value values valueField.dataType) := by
    intro keyBytes
    rw [succeeds_bind (P := True) fun _ => iff_true_intro (succeeds_ok _), and_true]
  unfold Maps.serializeAsync
  simp only [hentries]
  exact succeeds_bind hvalue

/-- An array is written for the type that is created for it where it is writable. -/
theorem writtenIff_of_created {a : ArrowArray} (hshaped : a.Shaped) :
    ∀ {nullable : Bool} {t : ChType}, arrowToChType lex options a.dataType nullable = .ok t →
      a.Sized → InRange lex options a → WrittenIff t a (a.Writable nullable) := by
  -- By the shape: the parts of an array are written where they are writable themselves.
  induction hshaped with
  | null n =>
    intro nullable t h
    cases h
  | union fields n =>
    intro nullable t h
    cases h
  | runEndEncoded runEnds values n =>
    intro nullable t h
    cases h
  | boolean hfit =>
    intro nullable t h hsized hrange
    cases h
    exact writtenIff_withNullability nullable rfl
      fun isNull => iff_of_true (succeeds_boolean _ _ isNull) trivial
  | primitive hfit =>
    intro nullable t h hsized hrange
    obtain ⟨b, hb, rfl⟩ := created_primitive h
    exact writtenIff_withNullability nullable (stripNull_primitiveChType hb)
      fun isNull => succeeds_primitive hb (hrange b hb) isNull
  | fixedSizeBinary hfit =>
    intro nullable t h hsized hrange
    cases h
    exact writtenIff_withNullability nullable rfl
      fun isNull => iff_of_true (succeeds_fixedSizeBinary hsized _ _ isNull) trivial
  | @bytes bt values nulls hfit =>
    intro nullable t h hsized hrange
    cases h
    refine writtenIff_withNullability nullable ?_
      fun isNull => iff_of_true (succeeds_bytes bt values nulls isNull) trivial
    cases bt.isUtf8 <;> rfl
  | @list large item offsets values nulls hoffsets hitem hvalues hfit ih =>
    intro nullable t h hsized hrange
    obtain ⟨inner, hinner, rfl⟩ := created_items (.inl ⟨large, rfl⟩) h
    have hwritten := (ih (hitem ▸ hinner) hsized hrange).1
    refine writtenIff_array ((succeeds_writeListArray rfl offsets values).trans ?_)
    rw [hitem, hwritten]
    exact and_iff_right hoffsets
  | @listView large item offsets sizes values nulls hsizes hitem hvalues hfit ih =>
    intro nullable t h hsized hrange
    obtain ⟨inner, hinner, rfl⟩ := created_items (.inr (.inl ⟨large, rfl⟩)) h
    have hwritten := (ih (hitem ▸ hinner) hsized hrange).1
    refine writtenIff_array ((succeeds_writeListArray rfl offsets values).trans ?_)
    rw [hitem, hwritten]
    exact Iff.rfl
  | @fixedSizeList item size n values nulls hitem hvalues hfit ih =>
    intro nullable t h hsized hrange
    obtain ⟨inner, hinner, rfl⟩ := created_items (.inr (.inr ⟨size, rfl⟩)) h
    obtain ⟨hsize, hbound, hsized⟩ := hsized
    have hwritten := (ih (hitem ▸ hinner) hsized hrange).1
    -- The offsets are made up from the size, since the array has none.
    have hbody : ∀ offsets : List Nat, Succeeds (serializeAsyncOf false inner values
        item.dataType >>= fun body => (.ok (offsets.flatMap putUsize ++ body) :
          ArrowResult Bytes)) ↔ values.Writable item.nullable := by
      intro offsets
      rw [succeeds_bind (P := True) fun _ => iff_true_intro (succeeds_ok _), and_true, hitem]
      exact hwritten
    refine writtenIff_array ((succeeds_bind hbody).trans ?_)
    exact and_iff_right (succeeds_fixedOffsets hsize hbound)
  | @struct fields columns n nulls hdata hlen hcolumns hfit ih =>
    intro nullable t h hsized hrange
    obtain ⟨types, htypes, rfl⟩ := created_struct h
    obtain ⟨hlength, hwritten⟩ := succeeds_columns htypes hdata
      (fun a ha nullable t => ih a ha) hsized hrange
    refine writtenIff_withNullability nullable rfl fun isNull => ?_
    -- A struct has as many types as columns, so the check of the arity passes.
    have hcolumns : serializeAsyncOf isNull (.tuple types) (.struct fields columns n nulls)
        (.struct fields) = serializeColumnsAsync types fields columns := by
      rw [serializeAsyncOf, Tuples.serializeAsync, if_neg (by rw [hlength]; exact fun h => h rfl)]
    rw [ArrowArray.dataType, hcolumns]
    exact hwritten
  | @map entries sorted offsets keys values nulls keyField valueField hoffsets hentries hkey
      hvalue hkeys hvalues hfit ihkeys ihvalues =>
    intro nullable t h hsized hrange
    obtain ⟨k, v, hk, hv, rfl⟩ := created_map hentries h
    have hkeysWritten := (ihkeys (hkey ▸ hk) hsized.1 hrange.1).1
    have hvaluesWritten := (ihvalues (hvalue ▸ hv) hsized.2 hrange.2).1
    have hwritable : (ArrowArray.map entries sorted offsets keys values nulls).Writable nullable ↔
        keys.Writable keyField.nullable ∧ values.Writable valueField.nullable := by
      obtain ⟨name, d, entriesNullable⟩ := entries
      obtain rfl : d = _ := hentries
      exact Iff.rfl
    have hboth : Succeeds (Maps.serializeAsync (serializeAsyncOf false k)
        (serializeAsyncOf false v) (.map entries sorted offsets keys values nulls)
        (.map entries sorted)) ↔
          Succeeds (serializeAsyncOf false k keys keyField.dataType) ∧
            Succeeds (serializeAsyncOf false v values valueField.dataType) :=
      succeeds_serializeMap hentries
    rw [hkey, hvalue, hkeysWritten, hvaluesWritten, ← hwritable] at hboth
    exact ⟨hboth, hboth⟩
  | dictionary hfit hvalues ih =>
    intro nullable t h hsized hrange
    obtain ⟨inner, hinner, rfl⟩ := created_dictionary h
    exact writtenIff_dictionary hfit hinner (ih hinner hsized hrange)

end Nested

/-! ## The columns that are created -/

section Columns

variable (lex : Lexicon) (options : Option ArrowOptions)

/-- Every array of the data type, with values in the range of the type that is created for it, is
written under that type by both serializers. -/
def Fills (d : DataType) (nullable : Bool) : Prop :=
  ∀ t, arrowToChType lex options d nullable = .ok t →
    ∀ a : ArrowArray, a.dataType = d → a.Shaped → a.Sized → InRange lex options a →
      ∀ m : Mode, ∃ bytes, serializeBy m t a d = .ok bytes

/-- An array of the data type is written where it is writable. -/
theorem serialize_iff_writable {d : DataType} {nullable : Bool} {t : ChType}
    (ht : arrowToChType lex options d nullable = .ok t) {a : ArrowArray} (hd : a.dataType = d)
    (hshaped : a.Shaped) (hsized : a.Sized) (hrange : InRange lex options a) (m : Mode) :
    (∃ bytes, serializeBy m t a d = .ok bytes) ↔ a.Writable nullable := by
  subst hd
  rw [serializeBy_eq]
  exact (writtenIff_of_created hshaped ht hsized hrange).1

theorem fit_none (len : Nat) : Nulls.Fit len none := fun _ hnulls => by cases hnulls

/-- A list of the two integers 1 and 2. -/
def twoIntegers : ArrowArray :=
  .list false ⟨"item", .primitive .int32, true⟩ [0, 2]
    (.primitive .int32 ([1, 2] : List Int32) none) none

theorem serialize_iff_writable_twoIntegers :
    (∃ bytes, serializeBy .sync (.array (.nullable .int32)) twoIntegers twoIntegers.dataType =
      .ok bytes) ↔ twoIntegers.Writable false :=
  serialize_iff_writable Lexicon.ascii none rfl rfl
    (.list (by simp) rfl (.primitive (fit_none _)) (fit_none _)) trivial
    (fun t ht v hv => by cases ht; exact trivial) .sync

/-- `Date64` becomes a `DateTime64(3)`, of which no writer takes a `Date64Array`. -/
theorem not_fills_date64 : ¬ Fills Lexicon.ascii none (.primitive .date64) false := by
  intro h
  have hrange : InRange Lexicon.ascii none (.primitive .date64 [(0 : Int64)] none) := by
    intro t ht v hv
    cases ht
    exact trivial
  obtain ⟨bytes, hbytes⟩ := h (.dateTime64 3 FromStr.utc) rfl
    (.primitive .date64 [(0 : Int64)] none) rfl (.primitive (fit_none 1)) trivial hrange .async
  cases hbytes

end Columns

end Arrow

end ClickhouseArrow
