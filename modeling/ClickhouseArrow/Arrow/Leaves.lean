import ClickhouseArrow.Arrow.StringDictionaries
import ClickhouseArrow.Arrow.Timestamps

/-!
# The cells of a flat column

A column without parts is written cell by cell.  The module says which arrays a type is written
from, which of their cells its writer takes, and which bytes stand for a cell.
-/

namespace ClickhouseArrow

open Wire

namespace Arrow

/-! ## Cells -/

/-- What a cell holds: a number, which for a float is its bit pattern, or bytes. -/
inductive Leaf
  | number (value : Int)
  | bytes (value : Bytes)
  deriving DecidableEq

/-- What a value of a primitive array is. -/
def leafOf : (p : PrimitiveType) → p.Native → Leaf
  | .int8, v => .number (Int8.toInt v)
  | .int16, v => .number (Int16.toInt v)
  | .int32, v | .decimal32 _ _, v | .date32, v | .time32 _, v | .interval .yearMonth, v =>
      .number (Int32.toInt v)
  | .int64, v | .decimal64 _ _, v | .date64, v | .time64 _, v | .duration _, v
  | .timestamp _ _, v => .number (Int64.toInt v)
  | .uint8, v => .number (UInt8.toNat v)
  | .uint16, v | .float16, v => .number (UInt16.toNat v)
  | .uint32, v | .float32, v => .number (UInt32.toNat v)
  | .uint64, v | .float64, v => .number (UInt64.toNat v)
  | .decimal128 _ _, v => .number (BitVec.toInt v)
  | .decimal256 _ _, v | .interval .dayTime, v | .interval .monthDayNano, v => .bytes v.bytes

/-- The rows of an array without parts. -/
def leafRows : ArrowArray → List (Option Leaf)
  | .boolean values nulls =>
      (slots values nulls).map (Option.map fun b => .number (if b then 1 else 0))
  | .primitive p values nulls => (slots values nulls).map (Option.map (leafOf p))
  | .fixedSizeBinary _ values nulls | .bytes _ values nulls =>
      (slots values nulls).map (Option.map .bytes)
  | _ => []

/-- Values of one length. -/
def OfLength (n : Nat) (size : Int32) (values : List Bytes) : Prop :=
  size.toInt = n ∧ ∀ v ∈ values, v.length = n

/-- The text of an array of strings is UTF-8. -/
def IsText (t : BytesType) (values : List Bytes) : Prop :=
  t.isUtf8 = true → ∀ v ∈ values, ∃ s : String, v = utf8Bytes s

/-- The arrays of a type without parts: those of its announced type, and those that it is created
for.  Arrays of `Date64`, `Time32`, `Time64`, `Duration`, `Interval`, `Decimal32` and `Decimal64`
are left out. -/
inductive LeafColumn : ChType → ArrowArray → Prop
  | int8 {values nulls} : LeafColumn .int8 (.primitive .int8 values nulls)
  | int16 {values nulls} : LeafColumn .int16 (.primitive .int16 values nulls)
  | int32 {values nulls} : LeafColumn .int32 (.primitive .int32 values nulls)
  | int64 {values nulls} : LeafColumn .int64 (.primitive .int64 values nulls)
  | uint8 {values nulls} : LeafColumn .uint8 (.primitive .uint8 values nulls)
  | boolean {values nulls} : LeafColumn .uint8 (.boolean values nulls)
  | uint16 {values nulls} : LeafColumn .uint16 (.primitive .uint16 values nulls)
  | uint32 {values nulls} : LeafColumn .uint32 (.primitive .uint32 values nulls)
  | uint64 {values nulls} : LeafColumn .uint64 (.primitive .uint64 values nulls)
  | float32 {values nulls} : LeafColumn .float32 (.primitive .float32 values nulls)
  | float64 {values nulls} : LeafColumn .float64 (.primitive .float64 values nulls)
  | decimal32 {s p s' values nulls} : s ≤ 9 →
      LeafColumn (.decimal32 s) (.primitive (.decimal128 p s') values nulls)
  | decimal64 {s p s' values nulls} : s ≤ 18 →
      LeafColumn (.decimal64 s) (.primitive (.decimal128 p s') values nulls)
  | decimal128 {s p s' values nulls} : s ≤ 38 →
      LeafColumn (.decimal128 s) (.primitive (.decimal128 p s') values nulls)
  | decimal256 {s p s' values nulls} : s ≤ 76 →
      LeafColumn (.decimal256 s) (.primitive (.decimal256 p s') values nulls)
  | date {values nulls} : LeafColumn .date (.primitive .date32 values nulls)
  | date32 {values nulls} : LeafColumn .date32 (.primitive .date32 values nulls)
  | dateTime {tz zone values nulls} :
      LeafColumn (.dateTime tz) (.primitive (.timestamp .second zone) values nulls)
  | dateTime64 {p tz zone values nulls} : p ≤ 9 →
      LeafColumn (.dateTime64 p tz) (.primitive (.timestamp (unitOf p) zone) values nulls)
  | string {t values nulls} : IsText t values → LeafColumn .string (.bytes t values nulls)
  | binary {t values nulls} : IsText t values → LeafColumn .binary (.bytes t values nulls)
  | fixedSizedString {n size values nulls} : OfLength n size values →
      LeafColumn (.fixedSizedString n) (.fixedSizeBinary size values nulls)
  | fixedSizedBinary {n size values nulls} : OfLength n size values →
      LeafColumn (.fixedSizedBinary n) (.fixedSizeBinary size values nulls)
  | ipv4 {size values nulls} : OfLength 4 size values →
      LeafColumn .ipv4 (.fixedSizeBinary size values nulls)
  | ipv6 {size values nulls} : OfLength 16 size values →
      LeafColumn .ipv6 (.fixedSizeBinary size values nulls)
  | uuid {size values nulls} : OfLength 16 size values →
      LeafColumn .uuid (.fixedSizeBinary size values nulls)
  | int128 {size values nulls} : OfLength 16 size values →
      LeafColumn .int128 (.fixedSizeBinary size values nulls)
  | uint128 {size values nulls} : OfLength 16 size values →
      LeafColumn .uint128 (.fixedSizeBinary size values nulls)
  | int256 {size values nulls} : OfLength 32 size values →
      LeafColumn .int256 (.fixedSizeBinary size values nulls)
  | uint256 {size values nulls} : OfLength 32 size values →
      LeafColumn .uint256 (.fixedSizeBinary size values nulls)

/-! ## What is written of a cell -/

/-- The writer of the type takes the cell. -/
def Passes : ChType → Leaf → Prop
  | .decimal32 _, .number i => -(10 ^ 9) < i ∧ i < 10 ^ 9
  | .decimal64 _, .number i => -(10 ^ 18) < i ∧ i < 10 ^ 18
  | .date, .number i => 0 ≤ i ∧ i ≤ 65535
  | .date32, .number i => i + 25567 < 2 ^ 31
  | .dateTime _, .number i => i < 2 ^ 32
  | _, _ => True

/-- The bytes of a cell that the writer takes. -/
def wireOf : ChType → Leaf → Bytes
  | .int8, .number i => putLe (Int8.ofInt i)
  | .int16, .number i => putLe (Int16.ofInt i)
  | .int32, .number i | .decimal32 _, .number i => putLe (Int32.ofInt i)
  | .int64, .number i | .decimal64 _, .number i => putLe (Int64.ofInt i)
  | .uint8, .number i => putLe (UInt8.ofNat i.toNat)
  | .uint16, .number i | .date, .number i => putLe (UInt16.ofNat i.toNat)
  | .uint32, .number i | .float32, .number i => putLe (UInt32.ofNat i.toNat)
  | .uint64, .number i | .float64, .number i => putLe (UInt64.ofNat i.toNat)
  | .decimal128 _, .number i => putLe (BitVec.ofInt 128 i)
  | .date32, .number i => putLe (Int32.ofInt (i + 25567))
  | .dateTime _, .number i => putLe (Int64.ofInt i).toUInt64.toUInt32
  | .dateTime64 _ _, .number i => putLe (Int64.ofInt i).toUInt64
  | .uuid, .bytes b => b.drop 8 ++ b.take 8
  | .decimal256 _, .bytes b | .int256, .bytes b | .uint256, .bytes b => b.reverse
  | _, .bytes b => b
  | _, _ => []

/-- The bytes of a value of the type have this length, if they always have one. -/
def lengthOf : ChType → Option Nat
  | .int8 | .uint8 => some 1
  | .int16 | .uint16 | .date => some 2
  | .int32 | .uint32 | .float32 | .decimal32 _ | .date32 | .dateTime _ | .ipv4 => some 4
  | .int64 | .uint64 | .float64 | .decimal64 _ | .dateTime64 _ _ => some 8
  | .int128 | .uint128 | .decimal128 _ | .ipv6 | .uuid => some 16
  | .int256 | .uint256 | .decimal256 _ => some 32
  | .fixedSizedString n | .fixedSizedBinary n => some n
  | _ => none

/-- A null is written as zeros, or as the empty string. -/
def payload (t : ChType) (row : Option Leaf) : Bytes :=
  row.elim (List.replicate ((lengthOf t).getD 0) 0) (wireOf t)

/-- A string has its length before it. -/
def framed (t : ChType) (cell : Bytes) : Bytes :=
  if (lengthOf t).isSome then cell else writeString cell

/-- The writer takes exactly the rows whose cells pass, and writes their bytes. -/
def Writes (t : ChType) (rows : List (Option Leaf)) (o : ArrowResult Bytes) : Prop :=
  ∀ bytes, o = .ok bytes ↔
    (∀ v, some v ∈ rows → Passes t v) ∧ bytes = (rows.map (payload t)).flatMap (framed t)

theorem emit_eq_ok_iff {α : Type} {f : α → ArrowResult Bytes} {P : α → Prop} {w : α → Bytes}
    {as : List α} (h : ∀ a ∈ as, ∀ cell, f a = .ok cell ↔ P a ∧ cell = w a) (bytes : Bytes) :
    Outcome.emit f as = .ok bytes ↔ (∀ a ∈ as, P a) ∧ bytes = as.flatMap w := by
  induction as generalizing bytes with
  | nil =>
    rw [Outcome.emit, Except.ok.injEq]
    simp [eq_comm]
  | cons a as ih =>
    have hhead := h a List.mem_cons_self
    have htail := ih fun b hb => h b (List.mem_cons_of_mem a hb)
    rw [Outcome.emit, Outcome.bind_eq_ok, List.forall_mem_cons]
    constructor
    · rintro ⟨cell, hcell, hrest⟩
      obtain ⟨rest, hemit, hbytes⟩ := Outcome.bind_eq_ok.mp hrest
      obtain ⟨ha, rfl⟩ := (hhead cell).mp hcell
      obtain ⟨has, rfl⟩ := (htail rest).mp hemit
      exact ⟨⟨ha, has⟩, (Except.ok.inj hbytes).symm⟩
    · rintro ⟨⟨ha, has⟩, rfl⟩
      refine ⟨w a, (hhead _).mpr ⟨ha, rfl⟩, ?_⟩
      rw [(htail _).mpr ⟨has, rfl⟩, Outcome.ok_bind]
      rfl

/-- A writer that goes from cell to cell. -/
theorem writes_emit {α : Type} {t : ChType} {leaf : α → Leaf} {f : Option α → ArrowResult Bytes}
    {rows : List (Option α)} (hnull : f none = .ok (framed t (payload t none)))
    (hsome : ∀ v, some v ∈ rows → ∀ cell, f (some v) = .ok cell ↔
      Passes t (leaf v) ∧ cell = framed t (wireOf t (leaf v))) :
    Writes t (rows.map (Option.map leaf)) (Outcome.emit f rows) := by
  have hstep : ∀ row ∈ rows, ∀ cell, f row = .ok cell ↔
      (∀ v, row = some v → Passes t (leaf v)) ∧
        cell = framed t (payload t (row.map leaf)) := by
    intro row hrow cell
    cases row with
    | none =>
      rw [hnull, Except.ok.injEq]
      simp [eq_comm]
    | some v =>
      rw [hsome v hrow]
      simp [payload]
  intro bytes
  rw [emit_eq_ok_iff hstep, List.map_map, List.flatMap_map]
  refine and_congr ?_ Iff.rfl
  constructor
  · intro h v hv
    obtain ⟨row, hrow, hleaf⟩ := List.mem_map.mp hv
    obtain ⟨x, rfl, rfl⟩ := Option.map_eq_some_iff.mp hleaf
    exact h (some x) hrow x rfl
  · rintro h row hrow v rfl
    exact h (leaf v) (List.mem_map.mpr ⟨some v, hrow, rfl⟩)

section Rows

variable {α β : Type} {t : ChType} {leaf : α → Leaf} {default : β} {write : β → Bytes}
  {rows : List (Option α)}

/-- The writers of fixed-width values. -/
theorem writes_rows {coerce : α → ArrowResult β} (hnull : write default = framed t (payload t none))
    (hsome : ∀ v, some v ∈ rows → ∀ cell, (write <$> coerce v : ArrowResult Bytes) = .ok cell ↔
      Passes t (leaf v) ∧ cell = framed t (wireOf t (leaf v))) :
    Writes t (rows.map (Option.map leaf)) (Primitive.writeRows default coerce write rows) := by
  refine writes_emit ?_ fun v hv cell => ?_
  · rw [hnull]
  · rw [← hsome v hv]
    show (coerce v >>= fun x => Except.ok (write x)) = Except.ok cell ↔ _
    cases coerce v <;> exact Iff.rfl

/-- Values every one of which is written. -/
theorem writes_plain (coerce : α → β) (hnull : write default = framed t (payload t none))
    (hpasses : ∀ v, Passes t (leaf v))
    (hwire : ∀ v, some v ∈ rows → write (coerce v) = framed t (wireOf t (leaf v))) :
    Writes t (rows.map (Option.map leaf))
      (Primitive.writeRows default (fun v => .ok (coerce v)) write rows) := by
  refine writes_rows hnull fun v hv cell => ?_
  rw [← hwire v hv]
  show Except.ok (write (coerce v)) = Except.ok cell ↔ _
  rw [Except.ok.injEq, and_iff_right (hpasses v), eq_comm]

end Rows

theorem mem_of_slots {α : Type} {values : List α} {nulls : Nulls} {v : α}
    (h : some v ∈ slots values nulls) : v ∈ values := by
  unfold slots at h
  split at h
  · obtain ⟨w, hw, hsome⟩ := List.mem_map.mp h
    exact Option.some.inj hsome ▸ hw
  · obtain ⟨i, hi, heq⟩ := List.mem_iff_getElem.mp h
    rw [List.getElem_zipWith] at heq
    split_ifs at heq
    exact Option.some.inj heq ▸ List.getElem_mem _

/-- The writers that take values of 16 bytes. -/
theorem from128_eq (complaint : String) {v : Bytes} (hv : v.length = 16) :
    (putLe <$> Primitive.from128 complaint v : ArrowResult Bytes) = .ok v := by
  rw [Primitive.from128, Primitive.exactly, if_pos hv]
  exact congrArg Except.ok (putLe_ofNat full_bitVec128 hv)

/-- A cell that is always written. -/
theorem written_iff {o : ArrowResult Bytes} {P : Prop} {w : Bytes} (ho : o = .ok w) (hP : P)
    (cell : Bytes) : o = .ok cell ↔ P ∧ cell = w := by
  rw [ho, Except.ok.injEq, and_iff_right hP, eq_comm]

/-- A cell that is written under a condition. -/
theorem written_iff_of {β : Type} {o : ArrowResult β} {P : Prop} {x : β} {write : β → Bytes}
    (hpass : P → o = .ok x) (hstop : ¬ P → ∀ y, o ≠ .ok y) (cell : Bytes) :
    (write <$> o : ArrowResult Bytes) = .ok cell ↔ P ∧ cell = write x := by
  by_cases hP : P
  · exact written_iff (by rw [hpass hP]; rfl) hP cell
  · refine iff_of_false ?_ fun h => hP h.1
    have hne := hstop hP
    cases ho : o with
    | ok y => exact absurd ho (hne y)
    | error e => exact fun h => by cases h

section Writers

variable (isNull : Bool) {nulls : Nulls}

theorem inDigits_writes {α : Type} [Word α] (name : String) (digits : Nat) (ofInt : Int → α)
    (v : BitVec 128) (cell : Bytes) :
    (putLe <$> (ofInt <$> Primitive.inDigits name digits v) : ArrowResult Bytes) = .ok cell ↔
      (-(10 ^ digits : Int) < v.toInt ∧ v.toInt < 10 ^ digits) ∧ cell = putLe (ofInt v.toInt) := by
  refine written_iff_of (fun h => ?_) (fun h y hy => ?_) cell
  · rw [Primitive.inDigits, if_pos h]
    rfl
  · rw [Primitive.inDigits, if_neg h] at hy
    cases hy

theorem dateOfDays_writes (v : Int32) (cell : Bytes) :
    (putLe <$> Primitive.dateOfDays v : ArrowResult Bytes) = .ok cell ↔
      (0 ≤ v.toInt ∧ v.toInt ≤ 65535) ∧ cell = putLe (UInt16.ofNat v.toInt.toNat) := by
  have hlow : v < 0 ↔ v.toInt < 0 := Int32.lt_iff_toInt_lt
  have hhigh : 65535 < v ↔ 65535 < v.toInt := Int32.lt_iff_toInt_lt
  refine written_iff_of (fun h => ?_) (fun h y hy => ?_) cell
  · rw [Primitive.dateOfDays, if_neg (by rw [hlow, hhigh]; omega)]
  · rw [Primitive.dateOfDays, if_pos (by rw [hlow, hhigh]; omega)] at hy
    cases hy

theorem date32_writes (v : Int32) (cell : Bytes) :
    (putLe <$> addI32 v Primitive.days1900To1970 : ArrowResult Bytes) = .ok cell ↔
      v.toInt + 25567 < 2 ^ 31 ∧ cell = putLe (Int32.ofInt (v.toInt + 25567)) := by
  have hlow := Int32.le_toInt v
  have hdays : Primitive.days1900To1970.toInt = 25567 := by decide
  refine written_iff_of (fun h => ?_) (fun h y hy => ?_) cell
  · simp only [addI32, hdays]
    rw [if_pos (by omega)]
  · simp only [addI32, hdays] at hy
    rw [if_neg (by omega)] at hy
    cases hy

theorem dateTime_writes (v : Int64) (cell : Bytes) :
    (putLe <$> Primitive.dateTimeOfSeconds v : ArrowResult Bytes) = .ok cell ↔
      v.toInt < 2 ^ 32 ∧ cell = putLe v.toUInt64.toUInt32 := by
  have hhigh : 4294967295 < v ↔ 4294967295 < v.toInt := Int64.lt_iff_toInt_lt
  refine written_iff_of (fun h => ?_) (fun h y hy => ?_) cell
  · rw [Primitive.dateTimeOfSeconds, if_neg (by rw [hhigh]; omega)]
  · rw [Primitive.dateTimeOfSeconds, if_pos (by rw [hhigh]; omega)] at hy
    cases hy

/-- The ticks are written as they are in the unit that they are announced in. -/
theorem serializeAsync_ticks {p : Nat} (hp : p ≤ 9) (tz : Tz) (zone : Option String)
    (values : List Int64) (d : DataType) :
    Primitive.serializeAsync (.dateTime64 p tz)
        (.primitive (.timestamp (unitOf p) zone) values nulls) d =
      Primitive.writeRows (0 : UInt64) (fun v : Int64 => .ok v.toUInt64) putLe
        (slots values nulls) := by
  show (if p = 0 then _ else _) = _
  by_cases hsecond : p = 0
  · subst hsecond
    rfl
  by_cases hmilli : p ≤ 3
  · rw [unitOf, if_neg hsecond, if_pos hmilli, if_neg hsecond, if_pos hmilli]
    rfl
  by_cases hmicro : p ≤ 6
  · rw [unitOf, if_neg hsecond, if_neg hmilli, if_pos hmicro, if_neg hsecond, if_neg hmilli,
      if_pos hmicro]
    rfl
  · rw [unitOf, if_neg hsecond, if_neg hmilli, if_neg hmicro, if_neg hsecond, if_neg hmilli,
      if_neg hmicro, if_pos hp]
    rfl

theorem ticks_writes {p : Nat} (hp : p ≤ 9) (tz : Tz) (zone : Option String)
    (values : List Int64) :
    Writes (.dateTime64 p tz) (leafRows (.primitive (.timestamp (unitOf p) zone) values nulls))
      (serializeAsyncOf isNull (.dateTime64 p tz)
        (.primitive (.timestamp (unitOf p) zone) values nulls)
        (.primitive (.timestamp (unitOf p) zone))) := by
  have hwrite : serializeAsyncOf isNull (.dateTime64 p tz) =
      Primitive.serializeAsync (.dateTime64 p tz) := rfl
  rw [hwrite, serializeAsync_ticks hp tz]
  exact writes_plain (fun v : Int64 => v.toUInt64) rfl (fun _ => trivial)
    fun v _ => congrArg (fun w : Int64 => putLe w.toUInt64) (Int64.ofInt_toInt v).symm

/-- A value of the length of the type is written as it is, and a null as zeros. -/
theorem writeFixed_writes (t : ChType) {n : Nat} {size : Int32} {values : List Bytes}
    (hlength : lengthOf t = some n) (hpasses : ∀ b, Passes t (.bytes b))
    (hwire : ∀ b, wireOf t (.bytes b) = b) (h : OfLength n size values) :
    Writes t (leafRows (.fixedSizeBinary size values nulls))
      (Outcome.emit (Binary.writeFixed n) (slots values nulls)) := by
  have hsize := Int32.toInt_lt size
  have hframed : ∀ cell, framed t cell = cell := fun cell => by rw [framed, hlength]; rfl
  refine writes_emit ?_ fun v hv cell => ?_
  · rw [Binary.writeFixed, zeroed, if_neg, hframed, payload, Option.elim_none, hlength]
    · rfl
    · have hn := h.1
      unfold isizeMax
      omega
  · refine written_iff ?_ (hpasses v) cell
    rw [Binary.writeFixed, if_neg, hframed, hwire]
    exact not_not.mpr (h.2 v (mem_of_slots hv))

theorem writeVariable_writes (t : ChType) (hlength : lengthOf t = none)
    (hpasses : ∀ b, Passes t (.bytes b)) (hwire : ∀ b, wireOf t (.bytes b) = b) (bt : BytesType)
    (values : List Bytes) :
    Writes t (leafRows (.bytes bt values nulls))
      (.ok (Binary.writeVariable (slots values nulls))) := by
  have hframed : ∀ cell, framed t cell = writeString cell := fun cell => by
    rw [framed, hlength]
    rfl
  intro bytes
  have hrows : ∀ v, some v ∈ leafRows (.bytes bt values nulls) → Passes t v := by
    intro v hv
    obtain ⟨row, -, hrow⟩ := List.mem_map.mp hv
    obtain ⟨b, -, rfl⟩ := Option.map_eq_some_iff.mp hrow
    exact hpasses b
  rw [Except.ok.injEq, and_iff_right hrows, leafRows, List.map_map, List.flatMap_map,
    Binary.writeVariable, eq_comm]
  have hrow : ∀ row : Option Bytes, writeString (row.getD []) =
      framed t ((payload t ∘ Option.map Leaf.bytes) row) := by
    intro row
    rw [hframed]
    cases row with
    | none => rw [Function.comp_apply, Option.map_none, payload, Option.elim_none, hlength]; rfl
    | some b => rw [Function.comp_apply, Option.map_some, payload, Option.elim_some, hwire]; rfl
  simp only [hrow]

end Writers

/-- Every array of the type is written cell by cell. -/
theorem writes_of_leafColumn {t : ChType} {a : ArrowArray} (h : LeafColumn t a) (isNull : Bool) :
    Writes t (leafRows a) (serializeAsyncOf isNull t a a.dataType) := by
  cases h with
  | int8 =>
    exact writes_plain (fun v : Int8 => v) rfl (fun _ => trivial)
      fun v _ => congrArg putLe (Int8.ofInt_toInt v).symm
  | int16 =>
    exact writes_plain (fun v : Int16 => v) rfl (fun _ => trivial)
      fun v _ => congrArg putLe (Int16.ofInt_toInt v).symm
  | int32 =>
    exact writes_plain (fun v : Int32 => v) rfl (fun _ => trivial)
      fun v _ => congrArg putLe (Int32.ofInt_toInt v).symm
  | int64 =>
    exact writes_plain (fun v : Int64 => v) rfl (fun _ => trivial)
      fun v _ => congrArg putLe (Int64.ofInt_toInt v).symm
  | uint8 =>
    exact writes_plain (fun v : UInt8 => v) rfl (fun _ => trivial)
      fun v _ => congrArg putLe (UInt8.ofNat_toNat (x := v)).symm
  | boolean =>
    exact writes_plain (fun b : Bool => if b then (1 : UInt8) else 0) rfl (fun _ => trivial)
      fun b _ => by cases b <;> rfl
  | uint16 =>
    exact writes_plain (fun v : UInt16 => v) rfl (fun _ => trivial)
      fun v _ => congrArg putLe (UInt16.ofNat_toNat (x := v)).symm
  | uint32 =>
    exact writes_plain (fun v : UInt32 => v) rfl (fun _ => trivial)
      fun v _ => congrArg putLe (UInt32.ofNat_toNat (x := v)).symm
  | uint64 =>
    exact writes_plain (fun v : UInt64 => v) rfl (fun _ => trivial)
      fun v _ => congrArg putLe (UInt64.ofNat_toNat (x := v)).symm
  | float32 =>
    exact writes_plain (fun v : UInt32 => v) rfl (fun _ => trivial)
      fun v _ => congrArg putLe (UInt32.ofNat_toNat (x := v)).symm
  | float64 =>
    exact writes_plain (fun v : UInt64 => v) rfl (fun _ => trivial)
      fun v _ => congrArg putLe (UInt64.ofNat_toNat (x := v)).symm
  -- A narrow decimal is refused where its digits are too many.
  | decimal32 _ =>
    exact writes_rows rfl fun v _ => inDigits_writes "Decimal32" 9 Int32.ofInt v
  | decimal64 _ =>
    exact writes_rows rfl fun v _ => inDigits_writes "Decimal64" 18 Int64.ofInt v
  | decimal128 _ =>
    exact writes_plain (fun v : BitVec 128 => v) rfl (fun _ => trivial)
      fun v _ => congrArg putLe (BitVec.ofInt_toInt (x := v)).symm
  | decimal256 _ =>
    exact writes_plain (fun v : Octets 32 => Primitive.swapEndian256 v.bytes) rfl
      (fun _ => trivial) fun v _ => rfl
  | date => exact writes_rows rfl fun v _ => dateOfDays_writes v
  | date32 => exact writes_rows rfl fun v _ => date32_writes v
  | dateTime =>
    refine writes_rows rfl fun v _ cell => ?_
    have hback : Int64.ofInt (Int64.toInt v) = v := Int64.ofInt_toInt v
    show _ ↔ _ ∧ cell = putLe (Int64.ofInt (Int64.toInt v)).toUInt64.toUInt32
    rw [hback]
    exact dateTime_writes v cell
  | dateTime64 hp => exact ticks_writes isNull hp _ _ _
  | string => exact writeVariable_writes .string rfl (fun _ => trivial) (fun _ => rfl) _ _
  | binary => exact writeVariable_writes .binary rfl (fun _ => trivial) (fun _ => rfl) _ _
  | fixedSizedString h =>
    exact writeFixed_writes (.fixedSizedString _) rfl (fun _ => trivial) (fun _ => rfl) h
  | fixedSizedBinary h =>
    exact writeFixed_writes (.fixedSizedBinary _) rfl (fun _ => trivial) (fun _ => rfl) h
  -- From here on each row is copied, once it has the size of the type.
  | ipv4 h =>
    refine writes_rows rfl fun v hv => written_iff ?_ (show Passes .ipv4 (.bytes v) from trivial)
    have hv := h.2 v (mem_of_slots hv)
    rw [Primitive.exactly, if_pos hv]
    exact congrArg Except.ok (putLe_ofNat full_uint32 hv)
  | ipv6 h =>
    refine writes_rows rfl fun v hv => written_iff ?_ (show Passes .ipv6 (.bytes v) from trivial)
    rw [Primitive.exactly, if_pos (h.2 v (mem_of_slots hv))]
    rfl
  | @uuid size values nulls h =>
    -- The halves of a UUID are swapped.
    show Writes .uuid _ (Primitive.writeRows (List.replicate 16 0)
      (Primitive.exactly 16 "UUID must be 16 bytes") (fun bytes => bytes.drop 8 ++ bytes.take 8)
      (slots values nulls))
    refine writes_rows rfl fun v hv => written_iff ?_ (show Passes .uuid (.bytes v) from trivial)
    rw [Primitive.exactly, if_pos (h.2 v (mem_of_slots hv))]
    rfl
  | int128 h =>
    exact writes_rows rfl fun v hv =>
      written_iff (from128_eq _ (h.2 v (mem_of_slots hv)))
        (show Passes .int128 (.bytes v) from trivial)
  | uint128 h =>
    exact writes_rows rfl fun v hv =>
      written_iff (from128_eq _ (h.2 v (mem_of_slots hv)))
        (show Passes .uint128 (.bytes v) from trivial)
  | int256 h =>
    refine writes_rows rfl fun v hv => written_iff ?_ (show Passes .int256 (.bytes v) from trivial)
    rw [Primitive.exactly, if_pos (h.2 v (mem_of_slots hv))]
    rfl
  | uint256 h =>
    refine writes_rows rfl fun v hv => written_iff ?_ (show Passes .uint256 (.bytes v) from trivial)
    rw [Primitive.exactly, if_pos (h.2 v (mem_of_slots hv))]
    rfl

end Arrow

end ClickhouseArrow
