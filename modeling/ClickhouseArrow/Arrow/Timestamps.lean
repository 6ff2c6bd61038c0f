import ClickhouseArrow.Arrow.ColumnReads
import Mathlib.Data.List.Forall2
import Mathlib.Data.Option.Basic
import Mathlib.Tactic.IntervalCases

/-!
# The instants of a `DateTime64` column

A tick of a `DateTime64(p)` is a `10 ^ p`-th of a second.  The data type, the builder and the
decoder each choose one of the four units of Arrow for it, and the ticks are taken over as they
are.
-/

namespace ClickhouseArrow

open Wire

namespace Arrow

/-- How many ticks of the unit make a second. -/
def TimeUnit.perSecond : TimeUnit → Nat
  | .second => 1
  | .millisecond => 10 ^ 3
  | .microsecond => 10 ^ 6
  | .nanosecond => 10 ^ 9

/-- A tick of a `10 ^ p`-th of a second and a tick of the unit denote the same number of
seconds. -/
def SameInstant (p : Nat) (unit : TimeUnit) (tick value : Int64) : Prop :=
  value.toInt * (10 : Int) ^ p = tick.toInt * (unit.perSecond : Int)

/-- The type of a column with a null mask, and of one without. -/
def instantsType (p : Nat) (tz : Tz) : Option Bytes → ChType
  | none => .dateTime64 p tz
  | some _ => .nullable (.dateTime64 p tz)

/-- The bytes of the column: the mask, and a tick for every row. -/
def instantsBytes (mask : Option Bytes) (ticks : List Int64) : Bytes :=
  mask.getD [] ++ ticks.flatMap putLe

/-- The ticks that the mask leaves. -/
def instantsOf (mask : Option Bytes) (ticks : List Int64) : List (Option Int64) :=
  masked (mask.getD []) ticks

/-- The unit and the rows of a timestamp array. -/
def timestampRows : ArrowArray → Option (TimeUnit × List (Option Int64))
  | .primitive (.timestamp unit _) values nulls => some (unit, slots (α := Int64) values nulls)
  | _ => none

theorem timestampRows_finished (unit : TimeUnit) (zone : Option String)
    (rows : List (Option Int64)) :
    timestampRows (finishPrimitive (.timestamp unit zone) rows) = some (unit, rows) :=
  congrArg (fun slots => some (unit, slots)) (slots_finished (0 : Int64) rows)

/-- The data type that is announced is a timestamp of some unit and has a builder, and the
decoders make of the column an array of this unit with the same instants and the same nulls;
they may return an error only where the unit cannot represent an instant. -/
def KeepsInstants (p : Nat) (tz : Tz) (mask : Option Bytes) (ticks : List Int64) : Prop :=
  ∀ (json : Bytes → Bytes) (m : Mode) (options : Option ArrowOptions) (rest : Bytes),
    ∃ unit zone nullable builder,
      chToArrowType (instantsType p tz mask) options =
        .ok (.primitive (.timestamp unit zone), nullable) ∧
      TypedBuilder.tryNew (instantsType p tz mask) (.primitive (.timestamp unit zone)) =
        .ok builder ∧
      ((∃ array rows, deserializeBy json m (instantsType p tz mask) builder
            (.primitive (.timestamp unit zone)) ticks.length [] (instantsBytes mask ticks ++ rest) =
              .ok (array, rest) ∧
          timestampRows array = some (unit, rows) ∧
          List.Forall₂ (Option.Rel (SameInstant p unit)) (instantsOf mask ticks) rows) ∨
        (∃ e, deserializeBy json m (instantsType p tz mask) builder
            (.primitive (.timestamp unit zone)) ticks.length [] (instantsBytes mask ticks ++ rest) =
              .error (.error e)) ∧
          ∃ tick, some tick ∈ instantsOf mask ticks ∧ ∀ value, ¬ SameInstant p unit tick value)

/-! ## The three tables -/

/-- The unit that the tables choose for a precision. -/
def unitOf (p : Nat) : TimeUnit :=
  if p = 0 then .second
  else if p ≤ 3 then .millisecond
  else if p ≤ 6 then .microsecond
  else .nanosecond

/-- The builder of the unit. -/
def instantBuilder (zone : Option String) : TimeUnit → TypedBuilder
  | .second => .dateTimeS zone
  | .millisecond => .dateTimeMs zone
  | .microsecond => .dateTimeMu zone
  | .nanosecond => .dateTimeNano zone

variable {p : Nat} {tz : Tz}

theorem arrowTypeOf_dateTime64 (hp : p ≤ 9) (options : Option ArrowOptions) (isNull : Bool) :
    arrowTypeOf options isNull (.dateTime64 p tz) =
      .ok (.primitive (.timestamp (unitOf p) (some tz.name)), isNull) := by
  rw [arrowTypeOf, unitOf]
  split_ifs <;> rfl

theorem typedBuild_dateTime64 (hp : p ≤ 9) (d : DataType) :
    typedBuild (.dateTime64 p tz) d = .ok (instantBuilder (builderZone d tz) (unitOf p)) := by
  show (if p = 0 then _ else _) = _
  rw [unitOf]
  split_ifs <;> rfl

theorem Primitive.deserializeAsync_instant (zone : Option String) (unit : TimeUnit) (rows : Nat)
    (nulls : Bytes) :
    Primitive.deserializeAsync (instantBuilder zone unit) rows nulls =
      finishPrimitive (.timestamp unit zone) <$> deserBulk .async Int64 rows nulls := by
  cases unit <;> rfl

/-! ## What is decoded -/

/-- The mask has a byte for every row. -/
def MaskFits (mask : Option Bytes) (rows : Nat) : Prop :=
  ∀ nulls, mask = some nulls → nulls.length = rows

/-- The ticks are taken over as they are. -/
theorem instants_reads (p : Nat) (tz : Tz) (json : Bytes → Bytes) (zone : Option String)
    (unit : TimeUnit) (d : DataType) {mask : Option Bytes} {ticks : List Int64}
    (hmask : MaskFits mask ticks.length)
    (hsize : ticks.length * 8 ≤ isizeMax) :
    Reads (deserializeArrowAsync json (instantsType p tz mask) (instantBuilder zone unit) d
        ticks.length [])
      (instantsBytes mask ticks)
      (finishPrimitive (.timestamp unit zone) (instantsOf mask ticks)) := by
  have hvalues (nulls : Bytes) (hcovers : Covers nulls ticks.length) :
      Reads (Primitive.deserializeAsync (instantBuilder zone unit) ticks.length nulls)
        (ticks.flatMap putLe) (finishPrimitive (.timestamp unit zone) (masked nulls ticks)) := by
    rw [Primitive.deserializeAsync_instant]
    exact (deserBulk_reads .async ticks hcovers hsize).map _
  cases mask with
  | none => exact hvalues [] (.inl rfl)
  | some nulls =>
      have hlength := hmask nulls rfl
      have hread : Reads (Null.readMaskAsync nulls.length) nulls nulls :=
        readMaskAsync_reads (by omega)
      rw [hlength] at hread
      exact hread.bind (hvalues nulls (.inr hlength))

/-- A column that no buffer can hold aborts the decoder. -/
theorem instants_too_long (p : Nat) (tz : Tz) (json : Bytes → Bytes) (zone : Option String)
    (unit : TimeUnit) (d : DataType) {mask : Option Bytes} {ticks : List Int64}
    (hmask : MaskFits mask ticks.length) (hsize : isizeMax < ticks.length * 8) (rest : Bytes) :
    deserializeArrowAsync json (instantsType p tz mask) (instantBuilder zone unit) d
      ticks.length [] (instantsBytes mask ticks ++ rest) = .error (.panic .capacityOverflow) := by
  have hrows : ticks.length ≠ 0 := by
    intro hzero
    rw [hzero] at hsize
    exact absurd hsize (by decide)
  have hvalues (nulls bytes : Bytes) :
      Primitive.deserializeAsync (instantBuilder zone unit) ticks.length nulls bytes =
        .error (.panic .capacityOverflow) := by
    have hbuffer : readBuffer .async (ticks.length * Word.width Int64) =
        Reader.panic .capacityOverflow := if_pos hsize
    rw [Primitive.deserializeAsync_instant, deserBulk, if_neg hrows, readBulk, hbuffer]
    rfl
  cases mask with
  | none => exact hvalues [] _
  | some nulls =>
      have hlength := hmask nulls rfl
      have hcolumn : deserializeArrowAsync json (instantsType p tz (some nulls))
          (instantBuilder zone unit) d ticks.length [] = (do
            let mask ← Null.readMaskAsync ticks.length
            Primitive.deserializeAsync (instantBuilder zone unit) ticks.length mask) := rfl
      rw [hcolumn, Reader.bind_apply]
      -- The mask stands in front of the ticks, and may be too long itself.
      by_cases hfits : nulls.length ≤ isizeMax
      · have hread := readMaskAsync_reads hfits (ticks.flatMap putLe ++ rest)
        rw [hlength] at hread
        rw [instantsBytes, Option.getD_some, List.append_assoc, hread, Outcome.ok_bind]
        exact hvalues nulls _
      · have hread : Null.readMaskAsync ticks.length = Reader.panic .capacityOverflow := by
          rw [Null.readMaskAsync, if_pos (Nat.pos_of_ne_zero hrows), readBuffer,
            if_pos (by omega)]
        rw [hread]
        rfl

theorem tryNew_instants (hp : p ≤ 9) (mask : Option Bytes) (d : DataType) :
    TypedBuilder.tryNew (instantsType p tz mask) d =
      .ok (instantBuilder (builderZone d tz) (unitOf p)) := by
  cases mask with
  | none => exact typedBuild_dateTime64 hp d
  | some nulls => exact typedBuild_dateTime64 hp d

/-! ## Where the unit is the precision -/

/-- The precision is that of its unit, or no instant but the first is there; and a buffer can
hold the ticks. -/
def TicksInUnit (p : Nat) (mask : Option Bytes) (ticks : List Int64) : Prop :=
  (p ∈ [0, 3, 6, 9] ∨ ∀ tick, some tick ∈ instantsOf mask ticks → tick = 0) ∧
    ticks.length * 8 ≤ isizeMax

theorem perSecond_unitOf (hp : p ≤ 9) : 10 ^ p = (unitOf p).perSecond ↔ p ∈ [0, 3, 6, 9] := by
  interval_cases p <;> decide

/-- A tick keeps its instant when it is taken over. -/
theorem sameInstant_self (hp : p ≤ 9) (tick : Int64) :
    SameInstant p (unitOf p) tick tick ↔ p ∈ [0, 3, 6, 9] ∨ tick = 0 := by
  have hzero : tick.toInt = 0 ↔ tick = 0 := by
    rw [← Int64.toInt_inj]
    rfl
  rw [SameInstant, ← perSecond_unitOf hp, ← hzero]
  constructor
  · intro h
    rcases eq_or_ne tick.toInt 0 with htick | htick
    · exact .inr htick
    · have hpow := mul_left_cancel₀ htick h
      exact .inl (by exact_mod_cast hpow)
  · rintro (hpow | htick)
    · rw [← hpow]
      push_cast
      rfl
    · rw [htick, Int.zero_mul, Int.zero_mul]

theorem rel_instants (hp : p ≤ 9) (mask : Option Bytes) (ticks : List Int64) :
    List.Forall₂ (Option.Rel (SameInstant p (unitOf p))) (instantsOf mask ticks)
        (instantsOf mask ticks) ↔
      p ∈ [0, 3, 6, 9] ∨ ∀ tick, some tick ∈ instantsOf mask ticks → tick = 0 := by
  rw [List.forall₂_same]
  constructor
  · intro h
    by_cases hunit : p ∈ [0, 3, 6, 9]
    · exact .inl hunit
    · refine .inr fun tick htick => ?_
      obtain ⟨hsame⟩ := h (some tick) htick
      exact ((sameInstant_self hp tick).mp hsame).resolve_left hunit
  · intro h entry hentry
    cases entry with
    | none => exact .none
    | some tick =>
        refine .some ((sameInstant_self hp tick).mpr ?_)
        exact h.imp id fun hzero => hzero tick hentry

theorem chToArrowType_instants (hp : p ≤ 9) (tz : Tz) (mask : Option Bytes)
    (options : Option ArrowOptions) :
    ∃ nullable, chToArrowType (instantsType p tz mask) options =
      .ok (.primitive (.timestamp (unitOf p) (some tz.name)), nullable) := by
  cases mask with
  | none => exact ⟨false, arrowTypeOf_dateTime64 hp options false⟩
  | some nulls => exact ⟨true, arrowTypeOf_dateTime64 hp options true⟩

/-- **A `DateTime64` column keeps its instants exactly where the unit is the precision**, or
where there is nothing to rescale. -/
theorem keepsInstants_iff_ticksInUnit (p : Nat) (hp : p ≤ 9) (tz : Tz) (mask : Option Bytes)
    (ticks : List Int64) (hmask : MaskFits mask ticks.length) :
    KeepsInstants p tz mask ticks ↔ TicksInUnit p mask ticks := by
  constructor
  · intro h
    obtain ⟨unit, zone, nullable, builder, hd, hb, hdecoded⟩ := h id .async none []
    obtain ⟨nullable', hannounced⟩ := chToArrowType_instants hp tz mask none
    rw [hannounced] at hd
    cases hd
    rw [tryNew_instants hp] at hb
    cases hb
    -- An abort is neither an array nor an error.
    have hsize : ticks.length * 8 ≤ isizeMax := by
      by_contra hlong
      have haborts := instants_too_long p tz id (some tz.name) (unitOf p)
        (.primitive (.timestamp (unitOf p) (some tz.name))) hmask (Nat.lt_of_not_le hlong) []
      rcases hdecoded with ⟨array, rows, hdecoded, -⟩ | ⟨⟨e, hdecoded⟩, -⟩
      · exact absurd (haborts.symm.trans hdecoded) (by simp)
      · exact absurd (haborts.symm.trans hdecoded) (by simp)
    have hreads := instants_reads p tz id (some tz.name) (unitOf p)
      (.primitive (.timestamp (unitOf p) (some tz.name))) hmask hsize []
    rcases hdecoded with ⟨array, rows, hdecoded, hrows, hall⟩ | ⟨⟨e, hdecoded⟩, -⟩
    · obtain rfl : finishPrimitive (.timestamp (unitOf p) (some tz.name))
          (instantsOf mask ticks) = array :=
        congrArg Prod.fst (Except.ok.inj (hreads.symm.trans hdecoded))
      rw [timestampRows_finished] at hrows
      cases hrows
      exact ⟨(rel_instants hp mask ticks).mp hall, hsize⟩
    · exact absurd (hreads.symm.trans hdecoded) (by simp)
  · rintro ⟨hunit, hsize⟩ json m options rest
    obtain ⟨nullable, hannounced⟩ := chToArrowType_instants hp tz mask options
    have hb : TypedBuilder.tryNew (instantsType p tz mask) _ = _ :=
      tryNew_instants hp mask (.primitive (.timestamp (unitOf p) (some tz.name)))
    have hreads := instants_reads p tz json (some tz.name) (unitOf p)
      (.primitive (.timestamp (unitOf p) (some tz.name))) hmask hsize rest
    have hdecoded := (deserializeBy_eq_ok m hb).mpr hreads
    have hrows := timestampRows_finished (unitOf p) (some tz.name) (instantsOf mask ticks)
    exact ⟨_, _, nullable, _, hannounced, hb,
      .inl ⟨_, _, hdecoded, hrows, (rel_instants hp mask ticks).mpr hunit⟩⟩

/-- A tenth of a second is read as a thousandth. -/
theorem not_keepsInstants_tenth : ¬ KeepsInstants 1 FromStr.utc none [5] := by
  intro h
  have hmask : MaskFits none [(5 : Int64)].length := fun _ hm => absurd hm (by simp)
  have hreads := instants_reads 1 FromStr.utc id (some FromStr.utc.name)
    .millisecond (.primitive (.timestamp .millisecond (some FromStr.utc.name))) hmask
    (by decide) []
  obtain ⟨unit, zone, nullable, builder, hd, hb, hdecoded⟩ := h id .async none []
  cases hd
  cases hb
  rcases hdecoded with ⟨array, rows, hdecoded, hrows, hall⟩ | ⟨⟨e, hdecoded⟩, -⟩
  · obtain rfl : finishPrimitive (.timestamp .millisecond (some FromStr.utc.name))
        (instantsOf none [5]) = array :=
      congrArg Prod.fst (Except.ok.inj (hreads.symm.trans hdecoded))
    rw [timestampRows_finished] at hrows
    cases hrows
    obtain ⟨hsame⟩ := (List.forall₂_cons.mp hall).1
    exact absurd hsame (by
      unfold SameInstant
      decide)
  · exact absurd (hreads.symm.trans hdecoded) (by simp)

/-- Milliseconds, one of them null. -/
theorem keepsInstants_iff_ticksInUnit_sample :
    KeepsInstants 3 FromStr.utc (some [0, 1]) [-5, 7] :=
  (keepsInstants_iff_ticksInUnit 3 (by decide) FromStr.utc (some [0, 1]) [-5, 7]
    (fun _ hm => by cases hm; rfl)).mpr ⟨.inl (by decide), by decide⟩

end Arrow

end ClickhouseArrow
