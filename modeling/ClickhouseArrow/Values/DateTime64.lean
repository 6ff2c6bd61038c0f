import ClickhouseArrow.Native.TypeNames
import ClickhouseArrow.Native.Validate
import Mathlib.Data.Rat.Floor
import Mathlib.Tactic.FieldSimp
import Mathlib.Tactic.Linarith
import Mathlib.Tactic.Positivity

/-!
# Times with a precision, and `chrono`

`DateTime64` and `DynDateTime64` of `native/values/date.rs`: ticks of `10^-p` seconds since the
epoch, and their conversions from and to `chrono::DateTime` in the zone of the time, in UTC and at a
fixed offset.  The conversions to `chrono` repeat one body, and so do those from it.

`chrono` is not part of the repository.  `Chrono` says what the conversions rely on: an instant is
made of every number of seconds up to the last one, and is the one that is asked for.
-/

namespace ClickhouseArrow

open Wire

/-! ## Instants -/

/-- What is read of a `chrono::DateTime`: the seconds since the epoch, and the nanoseconds since
that second, which are more than a second's in a leap second. -/
structure Reading (T : Type) where
  timestamp : T → Int
  timestampSubsecNanos : T → Nat
  timestamp_lt : ∀ t, timestamp t < 2 ^ 63

/-- The instant, in seconds since the epoch. -/
def Reading.instant {T : Type} (r : Reading T) (t : T) : ℚ :=
  r.timestamp t + (r.timestampSubsecNanos t : ℚ) / 10 ^ 9

/-- `chrono`: the times `T` of any zone, those in UTC, and those at a fixed offset. -/
structure Chrono (T U F : Type) where
  tz : Reading T
  utc : Reading U
  fixed : Reading F
  timezone : T → Tz
  timestampOpt : Tz → Int → Nat → Option T
  withTimezone : T → U
  fixedOffset : T → F
  /-- The last second of the calendar. -/
  maxSeconds : Int
  exists_timestampOpt : ∀ zone s n, 0 ≤ s → s ≤ maxSeconds → n < 10 ^ 9 →
    ∃ t, timestampOpt zone s n = some t
  of_timestampOpt : ∀ zone s n t, timestampOpt zone s n = some t →
    s ≤ maxSeconds ∧ tz.timestamp t = s ∧ tz.timestampSubsecNanos t = n
  utc_withTimezone : ∀ t, utc.instant (withTimezone t) = tz.instant t
  fixed_fixedOffset : ∀ t, fixed.instant (fixedOffset t) = tz.instant t

/-! ## Times with a precision -/

/-- `DateTime64<PRECISION>`. -/
structure DateTime64 (precision : Nat) where
  zone : Tz
  ticks : UInt64

/-- `DynDateTime64`. -/
structure DynDateTime64 where
  zone : Tz
  ticks : UInt64
  precision : Nat

/-- `std::num::TryFromIntError`. -/
inductive TryFromIntError
  | outOfRange

/-- The result of an operation on `u64`. -/
def checkedU64 {ε : Type} (p : Panic) (n : Nat) : Outcome ε Nat :=
  if n < 2 ^ 64 then .ok n else .panic p

/-- `9 - precision`, in `u32`. -/
def missingDigits {ε : Type} (precision : Nat) : Outcome ε Nat :=
  if precision ≤ 9 then .ok (9 - precision) else .panic .subtractOverflow

/-- `try_into`, to an integer type with so many values from zero. -/
def tryInto (bound : Nat) (n : Int) : Outcome TryFromIntError Nat :=
  if 0 ≤ n ∧ n < bound then .ok n.toNat else .fail .outOfRange

/-- `unwrap`. -/
def unwrap {ε α : Type} : Option α → Outcome ε α
  | some a => .ok a
  | none => .panic .unwrapNone

namespace Chrono

variable {T U F S : Type} (c : Chrono T U F)

/-! ## To an instant -/

/-- The body of the conversions to `chrono`. -/
def toChrono (zone : Tz) (ticks : UInt64) (precision : Nat) : Outcome TryFromIntError T := do
  let digits := precision % 2 ^ 32
  let power ← checkedU64 .mulOverflow (10 ^ digits)
  let missing ← missingDigits digits
  let factor ← checkedU64 .mulOverflow (10 ^ missing)
  let unitsNs ← checkedU64 .mulOverflow (ticks.toNat % power * factor)
  let seconds ← tryInto (2 ^ 63) (ticks.toNat / power : Nat)
  let nanos ← tryInto (2 ^ 32) unitsNs
  unwrap (c.timestampOpt zone seconds nanos)

/-- `TryFrom<DateTime64<PRECISION>> for chrono::DateTime<Tz>`. -/
def tzOfDateTime64 {p : Nat} (date : DateTime64 p) : Outcome TryFromIntError T :=
  c.toChrono date.zone date.ticks p

/-- `TryFrom<DynDateTime64> for chrono::DateTime<Tz>`. -/
def tzOfDyn (date : DynDateTime64) : Outcome TryFromIntError T :=
  c.toChrono date.zone date.ticks date.precision

/-- `TryFrom<DateTime64<PRECISION>> for chrono::DateTime<Utc>`. -/
def utcOfDateTime64 {p : Nat} (date : DateTime64 p) : Outcome TryFromIntError U :=
  c.withTimezone <$> c.toChrono date.zone date.ticks p

/-- `TryFrom<DynDateTime64> for chrono::DateTime<Utc>`. -/
def utcOfDyn (date : DynDateTime64) : Outcome TryFromIntError U :=
  c.withTimezone <$> c.toChrono date.zone date.ticks date.precision

/-- `TryFrom<DateTime64<PRECISION>> for chrono::DateTime<FixedOffset>`. -/
def fixedOfDateTime64 {p : Nat} (date : DateTime64 p) : Outcome TryFromIntError F :=
  c.fixedOffset <$> c.toChrono date.zone date.ticks p

/-- `TryFrom<DynDateTime64> for chrono::DateTime<FixedOffset>`. -/
def fixedOfDyn (date : DynDateTime64) : Outcome TryFromIntError F :=
  c.fixedOffset <$> c.toChrono date.zone date.ticks date.precision

/-- `TryFrom<DateTime> for chrono::DateTime<Tz>`. -/
def tzOfDateTime (zone : Tz) (seconds : UInt32) : Outcome TryFromIntError T :=
  unwrap (c.timestampOpt zone seconds.toNat 0)

/-- `map_err` with `failed to convert DateTime`. -/
def convertError {α : Type} : Outcome TryFromIntError α → Result α
  | .ok a => .ok a
  | .error (.error _) =>
      .fail (.deserializeError [.text "failed to convert DateTime: TryFromIntError(())"])
  | .error (.panic p) => .panic p

/-- The body of the two `FromSql`, which differ in the zone of what they make. -/
def fromSql (finish : T → S) (t : ChType) (value : Value) : Result S :=
  match t with
  | .dateTime64 _ _ | .dateTime _ =>
      match value with
      | .dateTime64 zone ticks precision =>
          finish <$> convertError (c.toChrono zone ticks precision)
      | .dateTime zone seconds => finish <$> convertError (c.tzOfDateTime zone seconds)
      -- `unimplemented!()`
      | _ => .panic .unreachable
  | _ => .fail (.deserializeError [.text "unexpected type: ", .type t])

/-- `FromSql for chrono::DateTime<Tz>`. -/
def tzFromSql (t : ChType) (value : Value) : Result T := c.fromSql id t value

/-- `FromSql for chrono::DateTime<Utc>`. -/
def utcFromSql (t : ChType) (value : Value) : Result U := c.fromSql c.withTimezone t value

/-! ## From an instant -/

/-- The body of the conversions from `chrono`. -/
def ticksOf (r : Reading S) (other : S) (precision : Nat) : Outcome TryFromIntError UInt64 := do
  let digits := precision % 2 ^ 32
  let seconds ← tryInto (2 ^ 64) (r.timestamp other)
  let power ← checkedU64 .mulOverflow (10 ^ digits)
  let whole ← checkedU64 .mulOverflow (seconds * power)
  let missing ← missingDigits digits
  let factor ← checkedU64 .mulOverflow (10 ^ missing)
  let total ← checkedU64 .addOverflow (whole + r.timestampSubsecNanos other / factor)
  .ok (UInt64.ofNat total)

/-- `TryFrom<chrono::DateTime<Utc>> for DateTime64<PRECISION>`. -/
def dateTime64OfUtc (p : Nat) (other : U) : Outcome TryFromIntError (DateTime64 p) := do
  let total ← ticksOf c.utc other p
  .ok ⟨FromStr.utc, total⟩

/-- `try_from_utc`. -/
def tryFromUtc (other : U) (precision : Nat) : Outcome TryFromIntError DynDateTime64 := do
  let total ← ticksOf c.utc other precision
  .ok ⟨FromStr.utc, total, precision⟩

/-- `TryFrom<chrono::DateTime<Tz>> for DateTime64<PRECISION>`. -/
def dateTime64OfTz (p : Nat) (other : T) : Outcome TryFromIntError (DateTime64 p) := do
  let total ← ticksOf c.tz other p
  .ok ⟨c.timezone other, total⟩

/-- `try_from_tz`. -/
def tryFromTz (other : T) (precision : Nat) : Outcome TryFromIntError DynDateTime64 := do
  let total ← ticksOf c.tz other precision
  .ok ⟨c.timezone other, total, precision⟩

/-! ## What the conversions are to do -/

/-- An error, or a result with the property; no panic. -/
def ErrOr {ε α : Type} (o : Outcome ε α) (P : α → Prop) : Prop :=
  (∃ e, o = .fail e) ∨ ∃ a, o = .ok a ∧ P a

/-- Every conversion to `chrono` gives the instant of the ticks. -/
structure GivesInstant (p : Nat) (zone : Tz) (ticks : UInt64) : Prop where
  tzOfDateTime64 : ErrOr (c.tzOfDateTime64 (⟨zone, ticks⟩ : DateTime64 p)) fun t =>
    c.tz.instant t = ticks.toNat / 10 ^ p
  tzOfDyn : ErrOr (c.tzOfDyn ⟨zone, ticks, p⟩) fun t => c.tz.instant t = ticks.toNat / 10 ^ p
  utcOfDateTime64 : ErrOr (c.utcOfDateTime64 (⟨zone, ticks⟩ : DateTime64 p)) fun u =>
    c.utc.instant u = ticks.toNat / 10 ^ p
  utcOfDyn : ErrOr (c.utcOfDyn ⟨zone, ticks, p⟩) fun u => c.utc.instant u = ticks.toNat / 10 ^ p
  fixedOfDateTime64 : ErrOr (c.fixedOfDateTime64 (⟨zone, ticks⟩ : DateTime64 p)) fun f =>
    c.fixed.instant f = ticks.toNat / 10 ^ p
  fixedOfDyn : ErrOr (c.fixedOfDyn ⟨zone, ticks, p⟩) fun f =>
    c.fixed.instant f = ticks.toNat / 10 ^ p
  tzFromSql : ∀ column, ErrOr (c.tzFromSql (.dateTime64 p column) (.dateTime64 zone ticks p))
    fun t => c.tz.instant t = ticks.toNat / 10 ^ p
  utcFromSql : ∀ column, ErrOr (c.utcFromSql (.dateTime64 p column) (.dateTime64 zone ticks p))
    fun u => c.utc.instant u = ticks.toNat / 10 ^ p

/-- A conversion from `chrono` takes the ticks that have passed at an instant, and the way back
gives an instant within the last of them. -/
structure TakesTicks {X : Type} (r : Reading S) (take : Outcome TryFromIntError X) (ticks : X → UInt64)
    (give : X → Outcome TryFromIntError S) (p : Nat) (other : S) : Prop where
  ticks_eq : ErrOr take fun x => ((ticks x).toNat : Int) = ⌊r.instant other * 10 ^ p⌋
  back : ErrOr (take >>= give) fun s => |r.instant s - r.instant other| < 1 / 10 ^ p

/-- Every conversion of an instant from the epoch on takes its ticks. -/
structure TakesInstants (p : Nat) (u : U) (t : T) : Prop where
  dateTime64OfUtc : 0 ≤ c.utc.timestamp u →
    TakesTicks c.utc (c.dateTime64OfUtc p u) (fun x => x.ticks) c.utcOfDateTime64 p u
  tryFromUtc : 0 ≤ c.utc.timestamp u →
    TakesTicks c.utc (c.tryFromUtc u p) (fun x => x.ticks) c.utcOfDyn p u
  dateTime64OfTz : 0 ≤ c.tz.timestamp t →
    TakesTicks c.tz (c.dateTime64OfTz p t) (fun x => x.ticks) c.tzOfDateTime64 p t
  tryFromTz : 0 ≤ c.tz.timestamp t →
    TakesTicks c.tz (c.tryFromTz t p) (fun x => x.ticks) c.tzOfDyn p t

/-- The digits are not too many, and the second of the ticks is none behind the calendar. -/
def Reaches (p : Nat) (ticks : Nat) : Prop := p ≤ 9 ∧ ((ticks / 10 ^ p : Nat) : Int) ≤ c.maxSeconds

/-- The ticks of an instant from the epoch on fit 64 bits, and its second is none behind the
calendar. -/
def FitsTicks (r : Reading S) (p : Nat) (other : S) : Prop :=
  0 ≤ r.timestamp other →
    ⌊r.instant other * 10 ^ p⌋ < 2 ^ 64 ∧ ⌊r.instant other⌋ ≤ c.maxSeconds

/-! ## Errors and results -/

section Outcomes

variable {ε α β : Type} {P : β → Prop}

theorem ErrOr.map_iff (o : Outcome ε α) (f : α → β) :
    ErrOr (f <$> o) P ↔ ErrOr o fun a => P (f a) := by
  cases o with
  | ok a =>
    constructor
    · rintro (⟨e, he⟩ | ⟨b, hb, hP⟩)
      · cases he
      · obtain rfl := Except.ok.inj hb
        exact .inr ⟨a, rfl, hP⟩
    · rintro (⟨e, he⟩ | ⟨a', ha, hP⟩)
      · cases he
      · obtain rfl := Except.ok.inj ha
        exact .inr ⟨f a, rfl, hP⟩
  | error fault =>
    constructor
    · rintro (⟨e, he⟩ | ⟨b, hb, -⟩)
      · cases he
        exact .inl ⟨e, rfl⟩
      · cases hb
    · rintro (⟨e, he⟩ | ⟨a', ha, -⟩)
      · cases he
        exact .inl ⟨e, rfl⟩
      · cases ha

theorem ErrOr.ok_iff {b : β} : ErrOr (.ok b : Outcome ε β) P ↔ P b := by
  constructor
  · rintro (⟨e, he⟩ | ⟨b', hb, hP⟩)
    · cases he
    · obtain rfl := Except.ok.inj hb
      exact hP
  · exact fun h => .inr ⟨b, rfl, h⟩

theorem ErrOr.not_panic {panic : Panic} : ¬ ErrOr (.panic panic : Outcome ε β) P := by
  rintro (⟨e, he⟩ | ⟨b, hb, -⟩)
  · cases he
  · cases hb

theorem ErrOr.convertError_iff (o : Outcome TryFromIntError β) :
    ErrOr (convertError o) P ↔ ErrOr o P := by
  cases o with
  | ok b => rw [convertError, ErrOr.ok_iff, ErrOr.ok_iff]
  | error fault =>
    cases fault with
    | error e =>
      constructor
      · exact fun _ => .inl ⟨e, rfl⟩
      · exact fun _ => .inl ⟨_, rfl⟩
    | panic panic =>
      constructor
      · exact fun h => absurd h ErrOr.not_panic
      · exact fun h => absurd h ErrOr.not_panic

end Outcomes

theorem checkedU64_of_lt {ε : Type} {n : Nat} (h : n < 2 ^ 64) (panic : Panic) :
    (checkedU64 panic n : Outcome ε Nat) = .ok n := if_pos h

theorem checkedU64_of_not_lt {ε : Type} {n : Nat} (h : ¬ n < 2 ^ 64) (panic : Panic) :
    (checkedU64 panic n : Outcome ε Nat) = .panic panic := if_neg h

theorem tryInto_of_lt {bound n : Nat} (h : n < bound) : tryInto bound n = .ok n := by
  rw [tryInto, if_pos ⟨by omega, by exact_mod_cast h⟩, Int.toNat_natCast]

theorem precision_of_validate {p : Nat} {zone : Tz}
    (h : (ChType.dateTime64 p zone).validate = .ok ()) : 1 ≤ p ∧ p ≤ 18 := by
  rw [ChType.validate, ChType.checkScale] at h
  split_ifs at h
  · cases h
  · omega

/-! ## To an instant -/

/-- The instant of so many ticks, as seconds and nanoseconds. -/
theorem div_add_mod_ticks {p : Nat} (hp : p ≤ 9) (ticks : Nat) :
    ((ticks / 10 ^ p : Nat) : ℚ) + ((ticks % 10 ^ p * 10 ^ (9 - p) : Nat) : ℚ) / 10 ^ 9 =
      (ticks : ℚ) / 10 ^ p := by
  have hsplit : (10 : ℚ) ^ 9 = 10 ^ p * 10 ^ (9 - p) := by
    rw [← pow_add, Nat.add_sub_cancel' hp]
  have hticks : (ticks : ℚ) = 10 ^ p * (ticks / 10 ^ p : Nat) + (ticks % 10 ^ p : Nat) := by
    exact_mod_cast (Nat.div_add_mod ticks (10 ^ p)).symm
  have hpos : (10 : ℚ) ^ p ≠ 0 := by positivity
  have hpos' : (10 : ℚ) ^ (9 - p) ≠ 0 := by positivity
  rw [hsplit, eq_div_iff hpos]
  push_cast
  conv_rhs => rw [hticks]
  field_simp

theorem power_lt {p : Nat} (hp : p ≤ 18) : 10 ^ p < 2 ^ 64 := by
  have hle : 10 ^ p ≤ 10 ^ 18 := Nat.pow_le_pow_right (by decide) hp
  omega

theorem nanos_lt {p : Nat} (hp : p ≤ 9) (ticks : Nat) :
    ticks % 10 ^ p * 10 ^ (9 - p) < 10 ^ 9 := by
  have hpos : 0 < 10 ^ (9 - p) := Nat.pow_pos (by decide)
  calc ticks % 10 ^ p * 10 ^ (9 - p) < 10 ^ p * 10 ^ (9 - p) :=
        Nat.mul_lt_mul_of_pos_right (Nat.mod_lt ticks (Nat.pow_pos (by decide))) hpos
    _ = 10 ^ 9 := by rw [← pow_add, Nat.add_sub_cancel' hp]

/-- Nine digits and more leave only the look-up of the instant. -/
theorem toChrono_eq {p : Nat} (hpos : 1 ≤ p) (hp : p ≤ 9) (zone : Tz) (ticks : UInt64) :
    c.toChrono zone ticks p = unwrap (c.timestampOpt zone (ticks.toNat / 10 ^ p : Nat)
      (ticks.toNat % 10 ^ p * 10 ^ (9 - p) : Nat)) := by
  have hlt := ticks.toNat_lt
  have hmod : p % 2 ^ 32 = p := by omega
  have hpower : 10 ^ p < 2 ^ 64 := power_lt (by omega)
  have hfactor : 10 ^ (9 - p) < 2 ^ 64 := power_lt (by omega)
  have hnanos := nanos_lt hp ticks.toNat
  have hten : 10 ≤ 10 ^ p := Nat.le_self_pow (by omega) 10
  have hseconds : ticks.toNat / 10 ^ p < 2 ^ 63 := by
    calc ticks.toNat / 10 ^ p ≤ ticks.toNat / 10 := Nat.div_le_div_left hten (by decide)
      _ < 2 ^ 63 := by omega
  have hmissing : (missingDigits p : Outcome TryFromIntError Nat) = .ok (9 - p) := if_pos hp
  have hunits : ticks.toNat % 10 ^ p * 10 ^ (9 - p) < 2 ^ 64 := by omega
  have hu32 : ticks.toNat % 10 ^ p * 10 ^ (9 - p) < 2 ^ 32 := by omega
  simp only [toChrono, hmod]
  rw [checkedU64_of_lt hpower, Outcome.ok_bind, hmissing, Outcome.ok_bind, checkedU64_of_lt hfactor,
    Outcome.ok_bind, checkedU64_of_lt hunits, Outcome.ok_bind, tryInto_of_lt hseconds,
    Outcome.ok_bind, tryInto_of_lt hu32, Outcome.ok_bind]

/-- More digits do not get there. -/
theorem toChrono_panics {p : Nat} (hnine : 9 < p) (hp : p ≤ 18) (zone : Tz) (ticks : UInt64) :
    c.toChrono zone ticks p = .panic .subtractOverflow := by
  have hmod : p % 2 ^ 32 = p := by omega
  have hmissing : (missingDigits p : Outcome TryFromIntError Nat) = .panic .subtractOverflow :=
    if_neg (by omega)
  simp only [toChrono, hmod, checkedU64_of_lt (power_lt hp), hmissing, Outcome.ok_bind,
    Outcome.panic_bind]

/-- The conversion gives the instant where there is one, and panics elsewhere. -/
theorem toChrono_cases {p : Nat} (hpos : 1 ≤ p) (hp : p ≤ 18) (zone : Tz) (ticks : UInt64) :
    (c.Reaches p ticks.toNat ∧
        ∃ t, c.toChrono zone ticks p = .ok t ∧ c.tz.instant t = (ticks.toNat : ℚ) / 10 ^ p) ∨
      (¬ c.Reaches p ticks.toNat ∧ ∃ panic, c.toChrono zone ticks p = .panic panic) := by
  by_cases hnine : p ≤ 9
  · rw [toChrono_eq c hpos hnine]
    cases hmade : c.timestampOpt zone (ticks.toNat / 10 ^ p : Nat)
        (ticks.toNat % 10 ^ p * 10 ^ (9 - p)) with
    | some t =>
      obtain ⟨hmax, hseconds, hnanos⟩ := c.of_timestampOpt _ _ _ _ hmade
      refine .inl ⟨⟨hnine, hmax⟩, t, rfl, ?_⟩
      rw [Reading.instant, hseconds, hnanos, Int.cast_natCast, div_add_mod_ticks hnine]
    | none =>
      refine .inr ⟨fun hreaches => ?_, .unwrapNone, rfl⟩
      obtain ⟨t, ht⟩ := c.exists_timestampOpt zone _ _ (Int.natCast_nonneg _) hreaches.2
        (nanos_lt hnine _)
      rw [hmade] at ht
      cases ht
  · exact .inr ⟨fun hreaches => hnine hreaches.1, _, toChrono_panics c (by omega) hp zone ticks⟩

theorem givesInstant_iff {p : Nat} (hpos : 1 ≤ p) (hp : p ≤ 18) (zone : Tz) (ticks : UInt64) :
    c.GivesInstant p zone ticks ↔ c.Reaches p ticks.toNat := by
  obtain ⟨hreaches, t, hok, hinstant⟩ | ⟨hnot, panic, hpanic⟩ :=
    toChrono_cases c hpos hp zone ticks
  · refine ⟨fun _ => hreaches, fun _ => ?_⟩
    have htz : ErrOr (c.toChrono zone ticks p)
        (fun t => c.tz.instant t = (ticks.toNat : ℚ) / 10 ^ p) := .inr ⟨t, hok, hinstant⟩
    have hutc : ErrOr (c.withTimezone <$> c.toChrono zone ticks p)
        (fun u => c.utc.instant u = (ticks.toNat : ℚ) / 10 ^ p) := by
      rw [ErrOr.map_iff]
      simpa only [c.utc_withTimezone] using htz
    have hfixed : ErrOr (c.fixedOffset <$> c.toChrono zone ticks p)
        (fun f => c.fixed.instant f = (ticks.toNat : ℚ) / 10 ^ p) := by
      rw [ErrOr.map_iff]
      simpa only [c.fixed_fixedOffset] using htz
    refine ⟨htz, htz, hutc, hutc, hfixed, hfixed, fun column => ?_, fun column => ?_⟩
    · rw [Chrono.tzFromSql, fromSql, ErrOr.map_iff, ErrOr.convertError_iff]
      exact htz
    · rw [Chrono.utcFromSql, fromSql, ErrOr.map_iff, ErrOr.convertError_iff]
      simpa only [c.utc_withTimezone] using htz
  · refine ⟨fun h => ?_, fun h => absurd h hnot⟩
    have htz : ErrOr (c.toChrono zone ticks p) _ := h.tzOfDyn
    rw [hpanic] at htz
    exact absurd htz ErrOr.not_panic

/-! ## From an instant -/

/-- The ticks of an instant from the epoch on. -/
theorem floor_instant_mul {p : Nat} (hp : p ≤ 9) (seconds nanos : Nat) :
    ⌊((seconds : ℚ) + (nanos : ℚ) / 10 ^ 9) * 10 ^ p⌋ =
      ((seconds * 10 ^ p + nanos / 10 ^ (9 - p) : Nat) : Int) := by
  have hsplit : (10 : ℚ) ^ 9 = 10 ^ p * 10 ^ (9 - p) := by
    rw [← pow_add, Nat.add_sub_cancel' hp]
  have hpos : (10 : ℚ) ^ p ≠ 0 := by positivity
  have hpos' : (10 : ℚ) ^ (9 - p) ≠ 0 := by positivity
  have hfraction : ((seconds : ℚ) + (nanos : ℚ) / 10 ^ 9) * 10 ^ p =
      ((seconds * 10 ^ p : Nat) : Int) + (nanos : ℚ) / ((10 ^ (9 - p) : Nat) : ℚ) := by
    rw [hsplit]
    push_cast
    field_simp
  rw [hfraction, Int.floor_intCast_add, Rat.floor_natCast_div_natCast]
  push_cast
  rfl

/-- Up to nine digits, the ticks are taken or do not fit. -/
theorem ticksOf_eq {p : Nat} (hp : p ≤ 9) (r : Reading S) (other : S) {seconds : Nat}
    (hbound : seconds < 2 ^ 64) (hseconds : r.timestamp other = seconds) :
    ∃ panic, ticksOf r other p =
      if seconds * 10 ^ p + r.timestampSubsecNanos other / 10 ^ (9 - p) < 2 ^ 64 then
        .ok (UInt64.ofNat (seconds * 10 ^ p + r.timestampSubsecNanos other / 10 ^ (9 - p)))
      else .panic panic := by
  have hmod : p % 2 ^ 32 = p := by omega
  have hpower : 10 ^ p < 2 ^ 64 := power_lt (by omega)
  have hfactor : 10 ^ (9 - p) < 2 ^ 64 := power_lt (by omega)
  have hmissing : (missingDigits p : Outcome TryFromIntError Nat) = .ok (9 - p) := if_pos hp
  simp only [ticksOf, hmod, hseconds, tryInto_of_lt hbound, checkedU64_of_lt hpower, hmissing,
    checkedU64_of_lt hfactor, Outcome.ok_bind]
  by_cases hwhole : seconds * 10 ^ p < 2 ^ 64
  · rw [checkedU64_of_lt hwhole, Outcome.ok_bind]
    by_cases htotal : seconds * 10 ^ p + r.timestampSubsecNanos other / 10 ^ (9 - p) < 2 ^ 64
    · rw [checkedU64_of_lt htotal, Outcome.ok_bind]
      exact ⟨.addOverflow, (if_pos htotal).symm⟩
    · rw [checkedU64_of_not_lt htotal, Outcome.panic_bind]
      exact ⟨.addOverflow, (if_neg htotal).symm⟩
  · have htotal : ¬ seconds * 10 ^ p + r.timestampSubsecNanos other / 10 ^ (9 - p) < 2 ^ 64 :=
      fun h => hwhole (lt_of_le_of_lt (Nat.le_add_right _ _) h)
    rw [checkedU64_of_not_lt hwhole, Outcome.panic_bind]
    exact ⟨.mulOverflow, (if_neg htotal).symm⟩

theorem ticksOf_panics {p : Nat} (hnine : 9 < p) (hp : p ≤ 18) (r : Reading S) (other : S)
    {seconds : Nat} (hbound : seconds < 2 ^ 64) (hseconds : r.timestamp other = seconds) :
    ∃ panic, ticksOf r other p = .panic panic := by
  have hmod : p % 2 ^ 32 = p := by omega
  have hmissing : (missingDigits p : Outcome TryFromIntError Nat) = .panic .subtractOverflow :=
    if_neg (by omega)
  simp only [ticksOf, hmod, hseconds, tryInto_of_lt hbound, checkedU64_of_lt (power_lt hp), hmissing,
    Outcome.ok_bind]
  by_cases hwhole : seconds * 10 ^ p < 2 ^ 64
  · rw [checkedU64_of_lt hwhole, Outcome.ok_bind]
    exact ⟨_, rfl⟩
  · rw [checkedU64_of_not_lt hwhole]
    exact ⟨_, rfl⟩

/-- The second of the ticks is that of the instant. -/
theorem floor_instant {p : Nat} (hp : p ≤ 9) (seconds nanos : Nat) :
    ⌊(seconds : ℚ) + (nanos : ℚ) / 10 ^ 9⌋ =
      (((seconds * 10 ^ p + nanos / 10 ^ (9 - p)) / 10 ^ p : Nat) : Int) := by
  have hwhole : ⌊(seconds : ℚ) + (nanos : ℚ) / 10 ^ 9⌋ = ((seconds + nanos / 10 ^ 9 : Nat) : Int) := by
    have hzero := floor_instant_mul (Nat.zero_le 9) seconds nanos
    rwa [pow_zero, mul_one, pow_zero, Nat.mul_one, Nat.sub_zero] at hzero
  have hpos : 0 < 10 ^ p := Nat.pow_pos (by decide)
  rw [hwhole, Nat.add_comm (seconds * 10 ^ p), Nat.add_mul_div_right _ _ hpos, Nat.div_div_eq_div_mul,
    ← pow_add, Nat.sub_add_cancel hp, Nat.add_comm]

/-- Ticks that have passed are less than one behind the instant. -/
theorem abs_floor_sub_lt (p : Nat) (q : ℚ) :
    |(⌊q * 10 ^ p⌋ : ℚ) / 10 ^ p - q| < 1 / 10 ^ p := by
  have hpos : (0 : ℚ) < 10 ^ p := by positivity
  have hlow := Int.floor_le (q * 10 ^ p)
  have hhigh := Int.lt_floor_add_one (q * 10 ^ p)
  have hq : q = q * 10 ^ p / 10 ^ p := (mul_div_cancel_right₀ q hpos.ne').symm
  have hdiff : (⌊q * 10 ^ p⌋ : ℚ) / 10 ^ p - q = ((⌊q * 10 ^ p⌋ : ℚ) - q * 10 ^ p) / 10 ^ p := by
    rw [sub_div, ← hq]
  rw [hdiff, abs_div, abs_of_pos hpos, div_lt_div_iff_of_pos_right hpos, abs_lt]
  constructor <;> linarith

/-- What a conversion makes of the ticks, and what the way back makes of that. -/
theorem takesTicks_iff {X : Type} {p : Nat} (hp : p ≤ 18) (r : Reading S)
    (make : UInt64 → X) (ticks : X → UInt64) (give : X → Outcome TryFromIntError S) {other : S}
    (hticks : ∀ n, ticks (make n) = n)
    (hgive : ∀ n : UInt64, (c.Reaches p n.toNat ∧
        ∃ s, give (make n) = .ok s ∧ r.instant s = (n.toNat : ℚ) / 10 ^ p) ∨
      (¬ c.Reaches p n.toNat ∧ ∃ panic, give (make n) = .panic panic))
    (h : 0 ≤ r.timestamp other) :
    TakesTicks r (ticksOf r other p >>= fun n => .ok (make n)) ticks give p other ↔
      p ≤ 9 ∧ ⌊r.instant other * 10 ^ p⌋ < 2 ^ 64 ∧ ⌊r.instant other⌋ ≤ c.maxSeconds := by
  obtain ⟨seconds, hseconds⟩ := Int.eq_ofNat_of_zero_le h
  have hlt := r.timestamp_lt other
  have hbound : seconds < 2 ^ 64 := by omega
  have hinstant : r.instant other = (seconds : ℚ) + (r.timestampSubsecNanos other : ℚ) / 10 ^ 9 := by
    rw [Reading.instant, hseconds, Int.cast_natCast]
  by_cases hnine : p ≤ 9
  · obtain ⟨panic, htake⟩ := ticksOf_eq hnine r other hbound hseconds
    have hfloor := floor_instant_mul hnine seconds (r.timestampSubsecNanos other)
    have hsecond := floor_instant hnine seconds (r.timestampSubsecNanos other)
    rw [← hinstant] at hfloor hsecond
    generalize seconds * 10 ^ p + r.timestampSubsecNanos other / 10 ^ (9 - p) = total at *
    by_cases hfits : total < 2 ^ 64
    · have hn : (UInt64.ofNat total).toNat = total := UInt64.toNat_ofNat_of_lt hfits
      rw [if_pos hfits] at htake
      rw [htake, Outcome.ok_bind, hfloor, hsecond]
      obtain ⟨hreaches, s, hs, hback⟩ | ⟨hnot, panic', hpanic⟩ := hgive (UInt64.ofNat total)
      · rw [hn] at hreaches hback
        refine ⟨fun _ => ⟨hnine, by exact_mod_cast hfits, hreaches.2⟩, fun _ => ⟨?_, ?_⟩⟩
        · rw [ErrOr.ok_iff, hticks, hn, hfloor]
        · have hclose := abs_floor_sub_lt p (r.instant other)
          rw [hfloor, Int.cast_natCast] at hclose
          rw [Outcome.ok_bind, hs, ErrOr.ok_iff, hback]
          exact hclose
      · rw [hn] at hnot
        refine ⟨fun htakes => ?_, fun hright => absurd ⟨hnine, hright.2.2⟩ hnot⟩
        have hback := htakes.back
        rw [Outcome.ok_bind, hpanic] at hback
        exact absurd hback ErrOr.not_panic
    · rw [if_neg hfits] at htake
      refine ⟨fun htakes => ?_, fun hright => ?_⟩
      · have hwrong := htakes.ticks_eq
        rw [htake] at hwrong
        exact absurd hwrong ErrOr.not_panic
      · rw [hfloor] at hright
        exact absurd (by exact_mod_cast hright.2.1) hfits
  · obtain ⟨panic, hpanic⟩ := ticksOf_panics (by omega) hp r other hbound hseconds
    refine ⟨fun htakes => ?_, fun hright => absurd hright.1 hnine⟩
    have hwrong := htakes.ticks_eq
    rw [hpanic] at hwrong
    exact absurd hwrong ErrOr.not_panic

theorem utc_cases {p : Nat} (hpos : 1 ≤ p) (hp : p ≤ 18) (zone : Tz) (ticks : UInt64) :
    (c.Reaches p ticks.toNat ∧ ∃ u, c.withTimezone <$> c.toChrono zone ticks p = .ok u ∧
        c.utc.instant u = (ticks.toNat : ℚ) / 10 ^ p) ∨
      (¬ c.Reaches p ticks.toNat ∧
        ∃ panic, c.withTimezone <$> c.toChrono zone ticks p = .panic panic) := by
  obtain ⟨hreaches, t, hok, hinstant⟩ | ⟨hnot, panic, hpanic⟩ :=
    toChrono_cases c hpos hp zone ticks
  · refine .inl ⟨hreaches, c.withTimezone t, ?_, ?_⟩
    · rw [hok]
      rfl
    · rw [c.utc_withTimezone, hinstant]
  · refine .inr ⟨hnot, panic, ?_⟩
    rw [hpanic]
    rfl

theorem takesInstants_iff {p : Nat} (hpos : 1 ≤ p) (hnine : p ≤ 9) (u : U) (t : T) :
    c.TakesInstants p u t ↔ c.FitsTicks c.utc p u ∧ c.FitsTicks c.tz p t := by
  have hp : p ≤ 18 := by omega
  constructor
  · intro htakes
    constructor
    · intro h
      exact ((takesTicks_iff c hp c.utc (fun n => DynDateTime64.mk FromStr.utc n p) DynDateTime64.ticks c.utcOfDyn
        (fun _ => rfl) (utc_cases c hpos hp FromStr.utc) h).mp (htakes.tryFromUtc h)).2
    · intro h
      exact ((takesTicks_iff c hp c.tz (fun n => DynDateTime64.mk (c.timezone t) n p) DynDateTime64.ticks c.tzOfDyn
        (fun _ => rfl) (toChrono_cases c hpos hp (c.timezone t)) h).mp (htakes.tryFromTz h)).2
  · rintro ⟨hutc, htz⟩
    constructor
    · intro h
      exact (takesTicks_iff c hp c.utc (@DateTime64.mk p FromStr.utc) DateTime64.ticks
        c.utcOfDateTime64 (fun _ => rfl) (utc_cases c hpos hp FromStr.utc) h).mpr ⟨hnine, hutc h⟩
    · intro h
      exact (takesTicks_iff c hp c.utc (fun n => DynDateTime64.mk FromStr.utc n p) DynDateTime64.ticks c.utcOfDyn
        (fun _ => rfl) (utc_cases c hpos hp FromStr.utc) h).mpr ⟨hnine, hutc h⟩
    · intro h
      exact (takesTicks_iff c hp c.tz (@DateTime64.mk p (c.timezone t)) DateTime64.ticks
        c.tzOfDateTime64 (fun _ => rfl) (toChrono_cases c hpos hp (c.timezone t)) h).mpr
        ⟨hnine, htz h⟩
    · intro h
      exact (takesTicks_iff c hp c.tz (fun n => DynDateTime64.mk (c.timezone t) n p) DynDateTime64.ticks c.tzOfDyn
        (fun _ => rfl) (toChrono_cases c hpos hp (c.timezone t)) h).mpr ⟨hnine, htz h⟩

/-- The conversions agree with `chrono`: on ticks, and on instants from the epoch on. -/
structure Agrees (p : Nat) (zone : Tz) (ticks : UInt64) (u : U) (t : T) : Prop where
  gives : c.GivesInstant p zone ticks
  takes : c.TakesInstants p u t

/-- **The conversions agree with `chrono` up to nine digits, for ticks within the calendar and
instants whose ticks fit.** -/
theorem agrees_iff {p : Nat} {zone : Tz} (h : (ChType.dateTime64 p zone).validate = .ok ())
    (ticks : UInt64) (u : U) (t : T) :
    c.Agrees p zone ticks u t ↔
      c.Reaches p ticks.toNat ∧ c.FitsTicks c.utc p u ∧ c.FitsTicks c.tz p t := by
  obtain ⟨hpos, hp⟩ := precision_of_validate h
  constructor
  · intro hagrees
    have hreaches := (givesInstant_iff c hpos hp zone ticks).mp hagrees.gives
    exact ⟨hreaches, (takesInstants_iff c hpos hreaches.1 u t).mp hagrees.takes⟩
  · rintro ⟨hreaches, hfits⟩
    exact ⟨(givesInstant_iff c hpos hp zone ticks).mpr hreaches,
      (takesInstants_iff c hpos hreaches.1 u t).mpr hfits⟩

/-- Instants as their zones, seconds and nanoseconds, in the calendar of `chrono`. -/
def ofParts : Chrono {t : Tz × Int × Nat // t.2.1 < 2 ^ 63} {t : Int × Nat // t.1 < 2 ^ 63}
    {t : Int × Nat // t.1 < 2 ^ 63} where
  tz := ⟨fun t => t.1.2.1, fun t => t.1.2.2, fun t => t.2⟩
  utc := ⟨fun t => t.1.1, fun t => t.1.2, fun t => t.2⟩
  fixed := ⟨fun t => t.1.1, fun t => t.1.2, fun t => t.2⟩
  timezone t := t.1.1
  timestampOpt zone s n :=
    if h : -8334601228800 ≤ s ∧ s ≤ 8210266876799 ∧ n < 10 ^ 9 then
      some ⟨(zone, s, n), lt_of_le_of_lt h.2.1 (by decide)⟩
    else none
  withTimezone t := ⟨t.1.2, t.2⟩
  fixedOffset t := ⟨t.1.2, t.2⟩
  maxSeconds := 8210266876799
  exists_timestampOpt zone s n hs hmax hn := ⟨_, dif_pos ⟨by omega, hmax, hn⟩⟩
  of_timestampOpt zone s n t h := by
    split_ifs at h with hrange
    obtain rfl := Option.some.inj h
    exact ⟨hrange.2.1, rfl, rfl⟩
  utc_withTimezone _ := rfl
  fixed_fixedOffset _ := rfl

/-- 1.5 seconds after the epoch, in milliseconds. -/
theorem agrees_sample :
    ofParts.Agrees 3 FromStr.utc 1500 ⟨(1, 500000000), by decide⟩
      ⟨(FromStr.utc, 1, 500000000), by decide⟩ := by
  have hticks : ⌊((1 : Int) + ((500000000 : Nat) : ℚ) / 10 ^ 9) * 10 ^ 3⌋ = 1500 := by
    norm_num
  have hsecond : ⌊((1 : Int) : ℚ) + ((500000000 : Nat) : ℚ) / 10 ^ 9⌋ = 1 := by
    norm_num [Int.floor_eq_iff]
  refine (agrees_iff ofParts rfl _ _ _).mpr ⟨⟨by decide, by decide⟩, fun _ => ?_, fun _ => ?_⟩
  · exact ⟨hticks.trans_lt (by decide), hsecond.trans_le (by decide)⟩
  · exact ⟨hticks.trans_lt (by decide), hsecond.trans_le (by decide)⟩

/-- Ten digits, and a second behind the calendar. -/
theorem not_agrees_samples :
    ¬ ofParts.Agrees 10 FromStr.utc 0 ⟨(0, 0), by decide⟩ ⟨(FromStr.utc, 0, 0), by decide⟩ ∧
      ¬ ofParts.Agrees 3 FromStr.utc 9000000000000000 ⟨(0, 0), by decide⟩
        ⟨(FromStr.utc, 0, 0), by decide⟩ := by
  constructor
  · intro h
    have hgives := h.gives.tzOfDyn
    rw [tzOfDyn, toChrono_panics ofParts (by decide) (by decide)] at hgives
    exact ErrOr.not_panic hgives
  · intro h
    have hticks : (9000000000000000 : UInt64).toNat = 9000000000000000 := rfl
    obtain ⟨hreaches, -⟩ | ⟨-, panic, hpanic⟩ := @toChrono_cases _ _ _ ofParts 3 (by decide)
      (by decide) FromStr.utc 9000000000000000
    · rw [hticks] at hreaches
      exact absurd hreaches.2 (by decide)
    · have hgives := h.gives.tzOfDyn
      rw [tzOfDyn, hpanic] at hgives
      exact ErrOr.not_panic hgives

end Chrono

end ClickhouseArrow
