import ClickhouseArrow.Values.DateTime64

/-!
# Days since 1900

`Date32` of `native/values/date.rs`: the days since 1900-01-01, from milliseconds since the epoch of
Unix, and from and to a `NaiveDate` of `chrono`.

A date of `chrono` is known by its day number, counted from 1970-01-01.  `Calendar` says what the
conversions rely on: the days run without a gap, and 1900-01-01 is 25 567 days before the first one.
-/

namespace ClickhouseArrow

open Wire

/-! ## Dates -/

/-- `chrono::NaiveDate`. -/
structure Calendar (D : Type) where
  /-- The days since 1970-01-01. -/
  day : D → Int
  fromYmdOpt : Int → Nat → Nat → Option D
  /-- `signed_duration_since(..).num_days()`. -/
  daysSince : D → D → Int
  /-- `+ Duration::days(..)`, which panics outside of the calendar. -/
  addDays : D → Int → Option D
  day_bounds : ∀ d, -2 ^ 27 < day d ∧ day d < 2 ^ 27
  daysSince_eq : ∀ d e, daysSince d e = day d - day e
  addDays_eq_some : ∀ d n e, addDays d n = some e ↔ day e = day d + n
  exists_1900 : ∃ d, fromYmdOpt 1900 1 1 = some d ∧ day d = -25567

/-- `Date32`. -/
structure Date32 where
  days : Int32
  deriving DecidableEq

namespace Date32

variable {D ε : Type} (c : Calendar D)

/-- `Date32::from_days`. -/
def fromDays (days : Int32) : Date32 := ⟨days⟩

/-- `Date32::from_millis`: a division that rounds towards zero, and the days that are cut to 32
bits. -/
def fromMillis (ms : Int64) : Date32 := ⟨Int32.ofInt (ms.toInt.tdiv 86400000 - 25567)⟩

/-- `From<NaiveDate> for Date32`. -/
def ofNaiveDate (other : D) : Outcome ε Date32 := do
  let first ← unwrap (c.fromYmdOpt 1900 1 1)
  .ok ⟨Int32.ofInt (c.daysSince other first)⟩

/-- `From<Date32> for NaiveDate`. -/
def toNaiveDate (date : Date32) : Outcome ε D := do
  let first ← unwrap (c.fromYmdOpt 1900 1 1)
  unwrap (c.addDays first date.days.toInt)

/-! ## One epoch -/

/-- The date is that of the milliseconds in UTC: days begin at their first millisecond. -/
def IsDateOf (date : D) (ms : Int64) : Prop := c.day date = ms.toInt / 86400000

/-- The days since 1900 fit 32 bits. -/
def DayFits (date : D) : Prop := -2 ^ 31 ≤ c.day date + 25567 ∧ c.day date + 25567 < 2 ^ 31

/-- The three conversions count from the same day: milliseconds give the date they lie in, what the
date gives too, and a date comes back. -/
structure SharesEpoch (ε : Type) (ms : Int64) (d : D) : Prop where
  civil : ∀ date, IsDateOf c date ms → (toNaiveDate c (fromMillis ms) : Outcome ε D) = .ok date
  same : ∀ date, IsDateOf c date ms → (ofNaiveDate c date : Outcome ε Date32) = .ok (fromMillis ms)
  back : DayFits c d → ((ofNaiveDate c d : Outcome ε Date32) >>= toNaiveDate c) = .ok d

theorem ofNaiveDate_eq (d : D) :
    (ofNaiveDate c d : Outcome ε Date32) = .ok ⟨Int32.ofInt (c.day d + 25567)⟩ := by
  obtain ⟨first, hfirst, hday⟩ := c.exists_1900
  rw [ofNaiveDate, hfirst, unwrap, Outcome.ok_bind, c.daysSince_eq, hday, sub_neg_eq_add]

theorem toNaiveDate_eq_ok_iff (x : Date32) (d : D) :
    (toNaiveDate c x : Outcome ε D) = .ok d ↔ c.day d = x.days.toInt - 25567 := by
  obtain ⟨first, hfirst, hday⟩ := c.exists_1900
  have hadd := c.addDays_eq_some first x.days.toInt d
  rw [hday, neg_add_eq_sub] at hadd
  rw [toNaiveDate, hfirst, unwrap, Outcome.ok_bind, ← hadd]
  cases c.addDays first x.days.toInt with
  | none => simp [unwrap, Outcome.panic]
  | some e => simp [unwrap]

/-- **A date comes back from its days since 1900.** -/
theorem naiveDate_back {d : D} (h : DayFits c d) :
    ((ofNaiveDate c d : Outcome ε Date32) >>= toNaiveDate c) = .ok d := by
  obtain ⟨hlow, hhigh⟩ := h
  rw [ofNaiveDate_eq, Outcome.ok_bind, toNaiveDate_eq_ok_iff,
    Int32.toInt_ofInt_of_le hlow hhigh, add_sub_cancel_right]

/-- The days of the milliseconds of a date are 51 134 days behind it, or one less. -/
theorem days_fromMillis {ms : Int64} {date : D} (h : IsDateOf c date ms) :
    (fromMillis ms).days.toInt = c.day date - 25567 ∨
      (fromMillis ms).days.toInt = c.day date - 25566 := by
  have hbounds := c.day_bounds date
  have hround : ms.toInt.tdiv 86400000 = c.day date ∨ ms.toInt.tdiv 86400000 = c.day date + 1 := by
    rw [h, Int.tdiv_eq_ediv]
    split_ifs
    · exact .inl (add_zero _)
    · exact .inr rfl
  rw [fromMillis, Int32.toInt_ofInt_of_le (by omega) (by omega)]
  omega

/-- **Milliseconds never share the epoch of the dates.**  Dates come back, so what is said of
milliseconds holds only where there is no date to give. -/
theorem sharesEpoch_iff (ms : Int64) (d : D) :
    SharesEpoch c ε ms d ↔ ¬ ∃ date, IsDateOf c date ms := by
  constructor
  · rintro h ⟨date, hdate⟩
    have hcivil := h.civil date hdate
    rw [toNaiveDate_eq_ok_iff] at hcivil
    have hdays := days_fromMillis c hdate
    omega
  · intro h
    exact ⟨fun date hdate => absurd ⟨date, hdate⟩ h, fun date hdate => absurd ⟨date, hdate⟩ h,
      naiveDate_back c⟩

/-- Day numbers, with 1900-01-01 as the one date that is known by its name. -/
def dayNumbers : Calendar {n : Int // -2 ^ 27 < n ∧ n < 2 ^ 27} where
  day d := d.1
  fromYmdOpt year month day :=
    if year = 1900 ∧ month = 1 ∧ day = 1 then some ⟨-25567, by decide⟩ else none
  daysSince d e := d.1 - e.1
  addDays d n := if h : -2 ^ 27 < d.1 + n ∧ d.1 + n < 2 ^ 27 then some ⟨d.1 + n, h⟩ else none
  day_bounds d := d.2
  daysSince_eq _ _ := rfl
  addDays_eq_some d n e := by
    split_ifs with h
    · rw [Option.some.injEq, ← Subtype.val_inj]
      exact eq_comm
    · have hbounds := e.2
      simp only [false_iff]
      omega
  exists_1900 := ⟨⟨-25567, by decide⟩, rfl, rfl⟩

/-- The first millisecond of the epoch becomes a day of the year 1830. -/
theorem not_sharesEpoch_sample : ¬ SharesEpoch dayNumbers Unit 0 ⟨0, by decide⟩ := by
  intro h
  have hmade : (toNaiveDate dayNumbers (fromMillis 0) : Outcome Unit _) =
      .ok ⟨-51134, by decide⟩ := rfl
  have hcivil := Except.ok.inj (hmade.symm.trans (h.civil ⟨0, by decide⟩ rfl))
  exact absurd (congrArg Subtype.val hcivil) (by decide)

end Date32

end ClickhouseArrow
