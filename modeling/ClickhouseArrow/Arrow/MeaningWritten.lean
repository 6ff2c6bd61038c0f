import ClickhouseArrow.Arrow.Meaning

/-!
# Which scalars are written with their meaning

For every serializer, what becomes of a value is what its fate says; from there the fates of the
rows decide about the whole array.
-/

namespace ClickhouseArrow

open Wire

namespace Arrow

/-! ## Numbers of bytes -/

theorem signed_putLe {α : Type} [Word α] (a : α) :
    signed (putLe a) =
      if 2 * Word.toNat a < 256 ^ Word.width α then (Word.toNat a : Int)
      else Word.toNat a - 256 ^ Word.width α := by
  rw [signed, ofLeBytes_putLe, putLe_length]

/-- The bytes of a word with a sign are its integer. -/
theorem signed_word {α : Type} [Word α] {v : α} {w : Nat} {b : BitVec w}
    (hpow : 256 ^ Word.width α = 2 ^ w) (hv : Word.toNat v = b.toNat) :
    signed (putLe v) = b.toInt := by
  have hcast : (256 : Int) ^ Word.width α = (2 ^ w : Nat) := by exact_mod_cast hpow
  rw [signed_putLe, hpow, hcast, hv]
  exact (BitVec.toInt_eq_toNat_cond b).symm

theorem signed_int8 (v : Int8) : signed (putLe v) = v.toInt := signed_word (by decide) rfl

theorem signed_int16 (v : Int16) : signed (putLe v) = v.toInt := signed_word (by decide) rfl

theorem signed_int32 (v : Int32) : signed (putLe v) = v.toInt := signed_word (by decide) rfl

theorem signed_int64 (v : Int64) : signed (putLe v) = v.toInt := signed_word (by decide) rfl

theorem signed_bitVec (v : BitVec 128) : signed (putLe v) = v.toInt := signed_word (by decide) rfl

/-- A word without a sign, taken for one with a sign. -/
theorem signed_uint64 (v : UInt64) :
    signed (putLe v) = if v.toNat < 2 ^ 63 then (v.toNat : Int) else v.toNat - 2 ^ 64 := by
  rw [signed_putLe]
  have hlt := v.toNat_lt
  show (if 2 * v.toNat < 256 ^ 8 then (v.toNat : Int) else v.toNat - 256 ^ 8) = _
  split_ifs <;> omega

/-- The word of an integer, without its sign. -/
theorem toNat_toUInt64 (v : Int64) :
    (v.toUInt64.toNat : Int) = if 0 ≤ v.toInt then v.toInt else v.toInt + 2 ^ 64 := by
  have hcond : v.toInt = if 2 * v.toUInt64.toNat < 2 ^ 64 then (v.toUInt64.toNat : Int)
      else v.toUInt64.toNat - (2 ^ 64 : Nat) := BitVec.toInt_eq_toNat_cond v.toBitVec
  have hlt := v.toUInt64.toNat_lt
  split_ifs at hcond ⊢ <;> omega

/-! ## Rows -/

section Rows

variable {order : Order256} {t : ChType} {pt : PrimitiveType} {v : pt.Native} {cell : Bytes}
  {meaning : Meaning}

theorem saysRow_some (hmeaning : meaningOf t pt v = some meaning) :
    SaysRow order t pt (some v) cell ↔ cell.length = widthOf t ∧ Denotes order t cell meaning := by
  constructor
  · rintro ⟨hlength, hsays⟩
    obtain ⟨meaning', hmeaning', hdenotes⟩ := hsays v rfl
    rw [hmeaning] at hmeaning'
    cases hmeaning'
    exact ⟨hlength, hdenotes⟩
  · rintro ⟨hlength, hdenotes⟩
    refine ⟨hlength, ?_⟩
    rintro v' ⟨⟩
    exact ⟨meaning, hmeaning, hdenotes⟩

/-- A value that is written as it is. -/
theorem describes_kept (hmeaning : meaningOf t pt v = some meaning)
    (hlength : cell.length = widthOf t) (h : Denotes order t cell meaning) :
    Fate.Describes (widthOf t) (SaysRow order t pt (some v)) .kept
      (.ok cell : ArrowResult Bytes) :=
  ⟨cell, rfl, (saysRow_some hmeaning).mpr ⟨hlength, h⟩⟩

/-- A value that is written as it is under a condition. -/
theorem describes_if {c : Prop} [Decidable c] (hmeaning : meaningOf t pt v = some meaning)
    (hlength : cell.length = widthOf t) (hc : c ↔ Denotes order t cell meaning) :
    Fate.Describes (widthOf t) (SaysRow order t pt (some v)) (if c then .kept else .changed)
      (.ok cell : ArrowResult Bytes) := by
  refine Fate.describes_ok rfl hlength (hc.trans ?_)
  rw [saysRow_some hmeaning]
  exact ⟨fun h => ⟨hlength, h⟩, And.right⟩

/-- The rows of a macro: every value as its fate has it, and a null as the default. -/
theorem tells_writeRows (order : Order256) (t : ChType) (pt : PrimitiveType) {α : Type} (default : α)
    (coerce : pt.Native → ArrowResult α) (write : α → Bytes) (hnull : (write default).length = widthOf t)
    (hkept : rowFate order t pt none = .kept)
    (hvalue : ∀ v, (valueFate order t pt v).Describes (widthOf t) (SaysRow order t pt (some v))
      (do
        let x ← coerce v
        .ok (write x)))
    (rows : List (Option pt.Native)) :
    Tells (SaysRow order t pt) rows (Primitive.writeRows default coerce write rows) ↔
      Fate.Fare (rows.map (rowFate order t pt)) := by
  refine tells_emit_iff (fun row cell h => h.1) (fun row => ?_) rows
  cases row with
  | none =>
    rw [hkept]
    exact ⟨write default, rfl, hnull, fun v hv => absurd hv (by simp)⟩
  | some v => exact hvalue v

theorem rowFate_none (order : Order256) (t : ChType) (pt : PrimitiveType) :
    rowFate order t pt none = .kept ∨ rowFate order t pt none = .refused := by
  cases t with
  | enum8 pairs =>
    show (if _ then _ else _) = _ ∨ (if _ then _ else _) = _
    split_ifs
    · exact .inl rfl
    · exact .inr rfl
  | enum16 pairs =>
    show (if _ then _ else _) = _ ∨ (if _ then _ else _) = _
    split_ifs
    · exact .inl rfl
    · exact .inr rfl
  | _ => exact .inl rfl

theorem fare_of_refused (hfate : ∀ v, valueFate order t pt v = .refused)
    (rows : List (Option pt.Native)) : Fate.Fare (rows.map (rowFate order t pt)) := by
  induction rows with
  | nil => exact .inr (by simp)
  | cons row rows ih =>
    rw [List.map_cons]
    have hrow : rowFate order t pt row = .kept ∨ rowFate order t pt row = .refused := by
      cases row with
      | none => exact rowFate_none order t pt
      | some v => exact .inr (hfate v)
    rcases hrow with hkept | hrefused
    · rw [hkept]
      rcases ih with hstop | hall
      · exact .inl hstop
      · exact .inr (List.forall_mem_cons.mpr ⟨rfl, hall⟩)
    · rw [hrefused]
      exact .inl trivial

/-- An array that the serializer does not take. -/
theorem tells_refused {o : ArrowResult Bytes} {e : ArrowError} (ho : o = .fail e)
    (hfate : ∀ v, valueFate order t pt v = .refused) (rows : List (Option pt.Native)) :
    Tells (SaysRow order t pt) rows o ↔ Fate.Fare (rows.map (rowFate order t pt)) :=
  ⟨fun _ => fare_of_refused hfate rows, fun _ => .inl ⟨e, ho⟩⟩

/-- The fates of the rows decide what the serializer tells of a column of the type. -/
def FatesDecide (order : Order256) (t : ChType) : Prop :=
  ∀ (pt : PrimitiveType) (values : List pt.Native) (nulls : Nulls),
    Tells (SaysRow order t pt) (slots values nulls)
        (serializeAsync t (.primitive pt values nulls) (.primitive pt)) ↔
      Fate.Fare ((slots values nulls).map (rowFate order t pt))

end Rows

/-! ## Days -/

section Days

variable {order : Order256}

theorem dateOfDays_describes (v : Int32) :
    (dateFate v.toInt).Describes 2 (SaysRow order .date .date32 (some v))
      (do
        let x ← Primitive.dateOfDays v
        .ok (putLe x) : ArrowResult Bytes) := by
  have hlow : v < 0 ↔ v.toInt < 0 := Int32.lt_iff_toInt_lt
  have hhigh : 65535 < v ↔ 65535 < v.toInt := Int32.lt_iff_toInt_lt
  unfold dateFate Primitive.dateOfDays
  simp only [hlow, hhigh]
  by_cases h : v.toInt < 0 ∨ 65535 < v.toInt
  · rw [if_pos h, if_pos h]
    exact ⟨_, rfl⟩
  · rw [if_neg h, if_neg h]
    have hmeaning : meaningOf .date .date32 v = some (.day v.toInt) := rfl
    refine describes_kept hmeaning rfl ?_
    show (ofLeBytes (putLe (UInt16.ofNat v.toInt.toNat)) : Int) = v.toInt
    rw [ofLeBytes_putLe]
    show ((UInt16.ofNat v.toInt.toNat).toNat : Int) = v.toInt
    rw [UInt16.toNat_ofNat']
    omega

/-- The sum overflows exactly in the last days. -/
theorem addI32_describes (v : Int32) :
    (date32Fate v.toInt).Describes 4 (SaysRow order .date32 .date32 (some v))
      (do
        let x ← addI32 v Primitive.days1900To1970
        .ok (putLe x) : ArrowResult Bytes) := by
  have hlow := Int32.le_toInt v
  have hhigh := Int32.toInt_lt v
  have hdays : Primitive.days1900To1970.toInt = 25567 := by decide
  unfold date32Fate addI32
  simp only [hdays]
  by_cases h : 2 ^ 31 ≤ v.toInt + 25567
  · rw [if_pos h, if_neg (by omega)]
    exact ⟨_, rfl⟩
  · rw [if_neg h, if_pos (by omega)]
    have hmeaning : meaningOf .date32 .date32 v = some (.day v.toInt) := rfl
    refine describes_kept hmeaning rfl ?_
    show signed (putLe (Int32.ofInt (v.toInt + 25567))) - 25567 = v.toInt
    rw [signed_int32, Int32.toInt_ofInt_of_le (by omega) (by omega)]
    omega

theorem date_decided : FatesDecide order .date := by
  intro pt values nulls
  cases pt with
  | date32 =>
    exact tells_writeRows order .date .date32 0 Primitive.dateOfDays putLe rfl rfl
      dateOfDays_describes _
  | _ => exact tells_refused rfl (fun _ => rfl) _

theorem date32_decided : FatesDecide order .date32 := by
  intro pt values nulls
  cases pt with
  | date32 =>
    exact tells_writeRows order .date32 .date32 0 (fun v => addI32 v Primitive.days1900To1970) putLe
      rfl rfl addI32_describes _
  | _ => exact tells_refused rfl (fun _ => rfl) _

end Days

/-! ## Instants -/

section Instants

variable {order : Order256}

theorem dateTimeOfSeconds_describes (tz : Tz) (zone : Option String) (v : Int64) :
    (secondsFate v.toInt).Describes 4
      (SaysRow order (.dateTime tz) (.timestamp .second zone) (some v))
      (do
        let x ← Primitive.dateTimeOfSeconds v
        .ok (putLe x) : ArrowResult Bytes) := by
  have hhigh : 4294967295 < v ↔ 4294967295 < v.toInt := Int64.lt_iff_toInt_lt
  have hword := toNat_toUInt64 v
  unfold secondsFate Primitive.dateTimeOfSeconds
  simp only [hhigh]
  by_cases h : 4294967295 < v.toInt
  · rw [if_pos (by omega), if_pos h]
    exact ⟨_, rfl⟩
  · rw [if_neg (by omega), if_neg h]
    have hmeaning : meaningOf (.dateTime tz) (.timestamp .second zone) v =
        some (.instant (v.toInt / (1 : Nat))) := rfl
    refine describes_if hmeaning rfl ?_
    show 0 ≤ v.toInt ↔ (ofLeBytes (putLe v.toUInt64.toUInt32) : Int) = ⌊(v.toInt / (1 : Nat) : ℚ)⌋
    have hfloor : ⌊(v.toInt / (1 : Nat) : ℚ)⌋ = v.toInt := by simp
    rw [hfloor, ofLeBytes_putLe]
    show 0 ≤ v.toInt ↔ ((v.toUInt64.toUInt32).toNat : Int) = v.toInt
    rw [UInt64.toNat_toUInt32]
    split_ifs at hword <;> omega

theorem dateTime_decided (tz : Tz) : FatesDecide order (.dateTime tz) := by
  intro pt values nulls
  cases pt with
  | timestamp unit zone =>
    cases unit with
    | second =>
      exact tells_writeRows order (.dateTime tz) (.timestamp .second zone) 0
        Primitive.dateTimeOfSeconds putLe rfl rfl (dateTimeOfSeconds_describes tz zone) _
    | _ => exact tells_refused rfl (fun _ => rfl) _
  | _ => exact tells_refused rfl (fun _ => rfl) _

/-- The ticks of the target, of the ticks of a unit, are rounded down. -/
theorem floor_ticks (v : Int) (unit : TimeUnit) (p : Nat) :
    ⌊(v / unit.perSecond : ℚ) * 10 ^ p⌋ = v * 10 ^ p / unit.perSecond := by
  have hsame : (v / unit.perSecond : ℚ) * 10 ^ p =
      ((v * 10 ^ p : Int) : ℚ) / (unit.perSecond : Nat) := by
    push_cast
    ring
  rw [hsame, Rat.floor_intCast_div_natCast]

/-- The coercion of the ticks of a unit to those of a written precision. -/
def ticks (written : Nat) (unit : TimeUnit) (v : Int64) : ArrowResult UInt64 :=
  if unit.perSecond < written then mulU64 v.toUInt64 (UInt64.ofNat (written / unit.perSecond))
  else if unit.perSecond = written then .ok v.toUInt64
  else .ok (v.toUInt64 / UInt64.ofNat (unit.perSecond / written))

/-- The written precision of a finer unit, which is `m` times finer than the precision: the ticks
are divided by `d`. -/
theorem finer_unit {p : Nat} (hp : p ≤ 9) {unit : TimeUnit}
    (h : 10 ^ writtenPrecision p ≤ unit.perSecond) :
    ∃ d m : Nat, unit.perSecond / 10 ^ writtenPrecision p = d ∧ unit.perSecond = d * m * 10 ^ p ∧
      0 < d ∧ d < 2 ^ 64 ∧ (d = 1 ∨ 1000 ≤ d) ∧
      (m = 1 ∧ p = writtenPrecision p ∨ (m = 10 ∨ m = 100) ∧ p ≠ writtenPrecision p) := by
  refine ⟨_, 10 ^ (writtenPrecision p - p), rfl, ?_⟩
  revert h
  interval_cases p <;> cases unit <;> decide

/-- The written precision of a coarser unit: the ticks are multiplied by `k * m`, where the
precision asks for `k`. -/
theorem coarser_unit {p : Nat} (hp : p ≤ 9) {unit : TimeUnit}
    (h : unit.perSecond < 10 ^ writtenPrecision p) :
    ∃ k m : Nat, 10 ^ writtenPrecision p / unit.perSecond = k * m ∧ 10 ^ p = unit.perSecond * k ∧
      0 < k ∧ 1000 ≤ k * m ∧ k * m < 2 ^ 64 ∧
      (m = 1 ∧ p = writtenPrecision p ∨ (m = 10 ∨ m = 100) ∧ p ≠ writtenPrecision p) := by
  refine ⟨10 ^ p / unit.perSecond, 10 ^ (writtenPrecision p - p), ?_⟩
  revert h
  interval_cases p <;> cases unit <;> decide

/-- Each of the four writers takes the ticks of its precision. -/
theorem timestamps_write (unit : TimeUnit) (zone : Option String) (values : List Int64)
    (nulls : Nulls) :
    Primitive.writeDatetime64UnknownValues (.primitive (.timestamp unit zone) values nulls) =
        Primitive.writeRows 0 (ticks (10 ^ 0) unit) putLe (slots values nulls) ∧
      Primitive.writeDatetime64Values3 (.primitive (.timestamp unit zone) values nulls) =
        Primitive.writeRows 0 (ticks (10 ^ 3) unit) putLe (slots values nulls) ∧
      Primitive.writeDatetime64Values6 (.primitive (.timestamp unit zone) values nulls) =
        Primitive.writeRows 0 (ticks (10 ^ 6) unit) putLe (slots values nulls) ∧
      Primitive.writeDatetime64Values9 (.primitive (.timestamp unit zone) values nulls) =
        Primitive.writeRows 0 (ticks (10 ^ 9) unit) putLe (slots values nulls) := by
  have hcoerce : ∀ c c' : Int64 → ArrowResult UInt64, (∀ v, c' v = c v) →
      Primitive.writeRows 0 c putLe (slots values nulls) =
        Primitive.writeRows 0 c' putLe (slots values nulls) := by
    intro c c' h
    rw [funext h]
  cases unit <;> refine ⟨hcoerce _ _ fun v => ?_, hcoerce _ _ fun v => ?_, hcoerce _ _ fun v => ?_,
    hcoerce _ _ fun v => ?_⟩ <;> simp [ticks, TimeUnit.perSecond]

theorem dateTime64_writes {p : Nat} (hp : p ≤ 9) (tz : Tz) (unit : TimeUnit)
    (zone : Option String) (values : List Int64) (nulls : Nulls) (d : DataType) :
    serializeAsync (.dateTime64 p tz) (.primitive (.timestamp unit zone) values nulls) d =
      Primitive.writeRows 0 (ticks (10 ^ writtenPrecision p) unit) putLe (slots values nulls) := by
  obtain ⟨h0, h3, h6, h9⟩ := timestamps_write unit zone values nulls
  show (if p = 0 then _ else if p ≤ 3 then _ else if p ≤ 6 then _ else if p ≤ 9 then _ else _) = _
  rw [writtenPrecision]
  split_ifs
  · exact h0
  · exact h3
  · exact h6
  · exact h9

theorem ticksFate_coarser {p : Nat} {unit : TimeUnit} (h : unit.perSecond < 10 ^ writtenPrecision p)
    {factor : Nat} (hfactor : 10 ^ writtenPrecision p / unit.perSecond = factor) (v : Int) :
    ticksFate p unit v =
      if v < 0 ∨ 2 ^ 64 ≤ v * factor then .overflows
      else if v * factor < 2 ^ 63 ∧ (p = writtenPrecision p ∨ v = 0) then .kept
      else .changed := by
  subst hfactor
  exact if_pos h

theorem ticksFate_finer {p : Nat} {unit : TimeUnit} (h : ¬ unit.perSecond < 10 ^ writtenPrecision p)
    {divisor : Nat} (hdivisor : unit.perSecond / 10 ^ writtenPrecision p = divisor) (v : Int) :
    ticksFate p unit v =
      if 0 ≤ v ∧ (p = writtenPrecision p ∨ v < divisor) ∨
        divisor = 1 ∧ (p = writtenPrecision p ∨ v = -1) then .kept
      else .changed := by
  subst hdivisor
  exact if_neg h

/-- A word that is multiplied does not overflow, or the number has a sign. -/
theorem mulU64_ofNat {a f : Nat} {word : UInt64} (ha : word.toNat = a) (hf : f < 2 ^ 64) :
    mulU64 word (UInt64.ofNat f) =
      if a * f < 2 ^ 64 then .ok (UInt64.ofNat (a * f)) else .panic .mulOverflow := by
  have hof : (UInt64.ofNat f).toNat = f := by
    rw [UInt64.toNat_ofNat']
    exact Nat.mod_eq_of_lt hf
  rw [mulU64, hof, ha]

theorem meaning_ticks {p : Nat} (tz : Tz) (unit : TimeUnit) (zone : Option String) (v : Int64) :
    meaningOf (.dateTime64 p tz) (.timestamp unit zone) v =
      some (.instant (v.toInt / unit.perSecond)) := rfl

/-- A cell denotes the ticks that the instant has, rounded down. -/
theorem denotes_ticks {p : Nat} {tz : Tz} {unit : TimeUnit} {v : Int} {cell : Bytes} :
    Denotes order (.dateTime64 p tz) cell (.instant (v / unit.perSecond)) ↔
      signed cell = v * 10 ^ p / unit.perSecond := by
  rw [← floor_ticks]
  rfl

theorem coarser_describes {p : Nat} (hp : p ≤ 9) (tz : Tz) {unit : TimeUnit}
    (zone : Option String) (v : Int64) (hcoarse : unit.perSecond < 10 ^ writtenPrecision p) :
    (ticksFate p unit v.toInt).Describes 8
      (SaysRow order (.dateTime64 p tz) (.timestamp unit zone) (some v))
      (do
        let x ← ticks (10 ^ writtenPrecision p) unit v
        .ok (putLe x) : ArrowResult Bytes) := by
  have hlow := Int64.le_toInt v
  have hhigh := Int64.toInt_lt v
  have hword := toNat_toUInt64 v
  obtain ⟨k, m, hfactor, hprecision, hk, hlarge, hsmall, hm⟩ := coarser_unit hp hcoarse
  have hticks : v.toInt * 10 ^ p / (unit.perSecond : Int) = v.toInt * k := by
    have hpos : (0 : Int) < unit.perSecond := by cases unit <;> decide
    have hcast : (10 : Int) ^ p = unit.perSecond * k := by exact_mod_cast hprecision
    rw [hcast, mul_left_comm, Int.mul_ediv_cancel_left _ (by omega)]
  rw [ticksFate_coarser hcoarse hfactor, ticks, if_pos hcoarse, hfactor, mulU64_ofNat rfl hsmall]
  have hproduct : ((v.toUInt64.toNat * (k * m) : Nat) : Int) = v.toUInt64.toNat * k * m := by
    push_cast
    ring
  have hfactor' : ((k * m : Nat) : Int) = k * m := by push_cast; rfl
  -- The product is of words: a negative number is a large word, and overflows as a large number
  -- does.
  by_cases hover : v.toInt < 0 ∨ 2 ^ 64 ≤ v.toInt * (k * m : Nat)
  · have hbig : ¬ v.toUInt64.toNat * (k * m) < 2 ^ 64 := by
      rcases hover with hneg | hbig
      · rw [if_neg (by omega)] at hword
        nlinarith
      · have hpos : 0 ≤ v.toInt := by
          by_contra hneg
          nlinarith
        rw [if_pos hpos] at hword
        rw [← hword, hfactor', ← mul_assoc, ← hproduct] at hbig
        omega
    rw [if_pos hover, if_neg hbig]
    exact ⟨_, rfl⟩
  · obtain ⟨hpos, hfits⟩ := not_or.mp hover
    rw [if_pos (by omega)] at hword
    have hin : v.toUInt64.toNat * (k * m) < 2 ^ 64 := by
      rw [← hword, hfactor', ← mul_assoc, ← hproduct] at hfits
      omega
    rw [if_neg hover, if_pos hin]
    refine describes_if (meaning_ticks tz unit zone v) (putLe_length _) ?_
    rw [denotes_ticks, hticks, signed_uint64, UInt64.toNat_ofNat', Nat.mod_eq_of_lt hin, ← hword,
      hfactor', ← mul_assoc, ← hproduct]
    have hzero : (v.toUInt64.toNat : Int) * k = 0 ↔ (v.toUInt64.toNat : Int) = 0 := by
      rw [mul_eq_zero]
      exact or_iff_left (by omega)
    have hq : (0 : Int) ≤ v.toUInt64.toNat * k := by positivity
    -- The written precision is that of the type, or a finer one by a factor of ten or a hundred.
    rcases hm with ⟨rfl, hp'⟩ | ⟨rfl | rfl, hp'⟩ <;> split_ifs <;> omega

theorem finer_describes {p : Nat} (hp : p ≤ 9) (tz : Tz) {unit : TimeUnit}
    (zone : Option String) (v : Int64) (hfine : ¬ unit.perSecond < 10 ^ writtenPrecision p) :
    (ticksFate p unit v.toInt).Describes 8
      (SaysRow order (.dateTime64 p tz) (.timestamp unit zone) (some v))
      (do
        let x ← ticks (10 ^ writtenPrecision p) unit v
        .ok (putLe x) : ArrowResult Bytes) := by
  have hlow := Int64.le_toInt v
  have hhigh := Int64.toInt_lt v
  have hword := toNat_toUInt64 v
  obtain ⟨d, m, hdivisor, hprecision, hd, hsmall, hunit, hm⟩ := finer_unit hp (not_lt.mp hfine)
  have hticks : v.toInt * 10 ^ p / (unit.perSecond : Int) = v.toInt / d / m := by
    have hcast : (unit.perSecond : Int) = d * m * 10 ^ p := by exact_mod_cast hprecision
    rw [hcast, Int.mul_ediv_mul_of_pos_left _ _ (by positivity), Int.ediv_ediv_of_nonneg (by omega)]
  have hof : (UInt64.ofNat d).toNat = d := by
    rw [UInt64.toNat_ofNat']
    exact Nat.mod_eq_of_lt hsmall
  have hcoerce : (if unit.perSecond = 10 ^ writtenPrecision p then .ok v.toUInt64
      else .ok (v.toUInt64 / UInt64.ofNat d) : ArrowResult UInt64) =
        .ok (v.toUInt64 / UInt64.ofNat d) := by
    -- Where the precisions are the same nothing is divided.
    split_ifs with hsame
    · have hone : d = 1 := by
        rw [← hdivisor, hsame]
        exact Nat.div_self (by positivity)
      rw [hone]
      exact congrArg Except.ok UInt64.div_one.symm
    · rfl
  rw [ticksFate_finer hfine hdivisor, ticks, if_neg hfine, hdivisor, hcoerce]
  refine describes_if (meaning_ticks tz unit zone v) (putLe_length _) ?_
  rw [denotes_ticks, hticks, signed_uint64, UInt64.toNat_div, hof]
  have hlt := v.toUInt64.toNat_lt
  by_cases hneg : v.toInt < 0
  · rw [if_neg (by omega)] at hword
    rcases hunit with rfl | hunit
    · rw [Nat.div_one, if_neg (by omega), Nat.cast_one, Int.ediv_one]
      rcases hm with ⟨rfl, hp'⟩ | ⟨rfl | rfl, hp'⟩ <;> omega
    · -- The quotient of the word has no sign, that of the number has.
      -- A number that is not negative is its word, and both are divided alike.
      have hquotient : v.toUInt64.toNat / d < 2 ^ 63 := by
        rw [Nat.div_lt_iff_lt_mul hd]
        nlinarith
      have hdiv : v.toInt / d < 0 := Int.ediv_neg_of_neg_of_pos hneg (by omega)
      have hrounded : v.toInt / d / m < 0 := by
        rcases hm with ⟨rfl, hp'⟩ | ⟨rfl | rfl, hp'⟩ <;> omega
      rw [if_pos hquotient]
      generalize v.toUInt64.toNat / d = x
      omega
  · rw [if_pos (by omega)] at hword
    have hquotient : v.toUInt64.toNat / d < 2 ^ 63 :=
      Nat.lt_of_le_of_lt (Nat.div_le_self _ _) (by omega)
    have hzero : v.toUInt64.toNat / d = 0 ↔ v.toUInt64.toNat < d := by
      rw [Nat.div_eq_zero_iff]
      omega
    have hcast : v.toInt / (d : Int) = (v.toUInt64.toNat / d : Nat) := by
      rw [← hword]
      norm_cast
    rw [if_pos hquotient, hcast]
    generalize v.toUInt64.toNat / d = x at hzero ⊢
    rcases hm with ⟨rfl, hp'⟩ | ⟨rfl | rfl, hp'⟩ <;> omega

theorem ticks_describes {p : Nat} (hp : p ≤ 9) (tz : Tz) (unit : TimeUnit) (zone : Option String)
    (v : Int64) :
    (ticksFate p unit v.toInt).Describes 8
      (SaysRow order (.dateTime64 p tz) (.timestamp unit zone) (some v))
      (do
        let x ← ticks (10 ^ writtenPrecision p) unit v
        .ok (putLe x) : ArrowResult Bytes) := by
  by_cases hcoarse : unit.perSecond < 10 ^ writtenPrecision p
  · exact coarser_describes hp tz zone v hcoarse
  · exact finer_describes hp tz zone v hcoarse

theorem dateTime64_decided {p : Nat} (hp : p ≤ 9) (tz : Tz) :
    FatesDecide order (.dateTime64 p tz) := by
  have hother (pt : PrimitiveType) (values : List pt.Native) (nulls : Nulls)
      (h : ∀ unit zone, pt ≠ .timestamp unit zone) :
      serializeAsync (.dateTime64 p tz) (.primitive pt values nulls) (.primitive pt) =
        .fail (expectedOneOf Primitive.timestampArrays) := by
    show (if p = 0 then _ else if p ≤ 3 then _ else if p ≤ 6 then _ else if p ≤ 9 then _ else _) = _
    cases pt with
    | timestamp unit zone => exact absurd rfl (h unit zone)
    | _ =>
      split_ifs
      all_goals rfl
  intro pt values nulls
  cases pt with
  | timestamp unit zone =>
    have htells := tells_writeRows order (.dateTime64 p tz) (.timestamp unit zone) 0
      (ticks (10 ^ writtenPrecision p) unit) putLe rfl rfl (ticks_describes hp tz unit zone)
      (slots values nulls)
    have hwrites := dateTime64_writes hp tz unit zone values nulls (.primitive (.timestamp unit zone))
    exact (iff_of_eq (congrArg (Tells _ _) hwrites)).trans htells
  | _ => exact tells_refused (hother _ values nulls fun unit zone => by simp) (fun _ => rfl) _

end Instants

/-! ## Decimals -/

section Decimals

variable {order : Order256}

/-- The digits of a decimal denote the same number under another scale only if they are zero. -/
theorem sameDigits_iff (v : Int) (s : Nat) (scale : Int8) :
    v = 0 ∨ scale.toInt = s ↔ (v : ℚ) / 10 ^ s = v / (10 : ℚ) ^ scale.toInt := by
  have hten : (0 : ℚ) < 10 := by norm_num
  have hten' : (10 : ℚ) ≠ 1 := by norm_num
  constructor
  · rintro (rfl | h)
    · simp
    · rw [h, zpow_natCast]
  · intro h
    by_cases hv : v = 0
    · exact .inl hv
    · have hcast : (v : ℚ) ≠ 0 := by exact_mod_cast hv
      have hpow : (10 : ℚ) ^ (s : Int) = 10 ^ scale.toInt := by
        rw [zpow_natCast]
        field_simp at h
        exact h.symm
      exact .inr (zpow_right_injective₀ hten hten' hpow).symm

theorem inDigits_eq (name : String) (digits : Nat) (v : BitVec 128) :
    (-(10 ^ digits) < v.toInt ∧ v.toInt < 10 ^ digits ∧
      Primitive.inDigits name digits v = .ok v.toInt) ∨
    (¬ (-(10 ^ digits) < v.toInt ∧ v.toInt < 10 ^ digits) ∧
      ∃ e, Primitive.inDigits name digits v = .fail e) := by
  unfold Primitive.inDigits
  by_cases h : -(10 ^ digits : Int) < v.toInt ∧ v.toInt < 10 ^ digits
  · exact .inl ⟨h.1, h.2, if_pos h⟩
  · exact .inr ⟨h, _, if_neg h⟩

/-- A decimal of at most so many digits, which the word `cast` makes of them holds. -/
theorem narrow_describes {t : ChType} {precision s : Nat} {scale : Int8} {digits : Nat}
    {name : String} {α : Type} [Word α] {cast : Int → α}
    (hwidth : Word.width α = widthOf t)
    (hdenotes : ∀ cell q, Denotes order t cell (.number q) ↔ (signed cell : ℚ) / 10 ^ s = q)
    (hcast : ∀ i : Int, -(10 ^ digits) < i → i < 10 ^ digits → signed (putLe (cast i)) = i)
    (hmeaning : ∀ v, meaningOf t (.decimal128 precision scale) v =
      some (.number (BitVec.toInt v / (10 : ℚ) ^ scale.toInt))) (v : BitVec 128) :
    (narrowFate digits s scale v.toInt).Describes (widthOf t)
      (SaysRow order t (.decimal128 precision scale) (some v))
      (do
        let x ← cast <$> Primitive.inDigits name digits v
        .ok (putLe x) : ArrowResult Bytes) := by
  rw [narrowFate]
  rcases inDigits_eq name digits v with ⟨hlow, hhigh, heq⟩ | ⟨hout, e, heq⟩
  · rw [if_pos ⟨hlow, hhigh⟩, heq]
    refine describes_if (hmeaning v) ((putLe_length _).trans hwidth) ?_
    rw [hdenotes, hcast _ hlow hhigh]
    exact sameDigits_iff v.toInt s scale
  · rw [if_neg hout, heq]
    exact ⟨e, rfl⟩

/-- The rows of a column of narrow decimals. -/
theorem tells_narrow {t : ChType} {precision s digits : Nat} {scale : Int8} {name : String}
    {α : Type} [Word α] {default : α} {cast : Int → α}
    (hcast : ∀ i : Int, -(10 ^ digits) < i → i < 10 ^ digits → signed (putLe (cast i)) = i)
    (hwidth : Word.width α = widthOf t)
    (hdenotes : ∀ cell q, Denotes order t cell (.number q) ↔ (signed cell : ℚ) / 10 ^ s = q)
    (hnull : rowFate order t (.decimal128 precision scale) none = .kept)
    (hfate : ∀ v : BitVec 128, valueFate order t (.decimal128 precision scale) v =
      narrowFate digits s scale v.toInt)
    (hmeaning : ∀ v, meaningOf t (.decimal128 precision scale) v =
      some (.number (BitVec.toInt v / (10 : ℚ) ^ scale.toInt))) (rows : List (Option (BitVec 128))) :
    Tells (SaysRow order t (.decimal128 precision scale)) rows
        (Primitive.writeRows default (fun v => cast <$> Primitive.inDigits name digits v) putLe
          rows) ↔
      Fate.Fare (rows.map (rowFate order t (.decimal128 precision scale))) := by
  refine tells_writeRows order t (.decimal128 precision scale) default _ putLe
    ((putLe_length _).trans hwidth) hnull (fun v => ?_) rows
  rw [hfate v]
  exact narrow_describes hwidth hdenotes hcast hmeaning v

theorem decimal32_decided (s : Nat) : FatesDecide order (.decimal32 s) := by
  intro pt values nulls
  cases pt with
  | decimal128 precision scale =>
    exact tells_narrow (fun i hlow hhigh => (signed_int32 _).trans
      (Int32.toInt_ofInt_of_le (by omega) (by omega))) rfl (fun _ _ => Iff.rfl) rfl
      (fun _ => rfl) (fun _ => rfl) _
  | _ => exact tells_refused rfl (fun _ => rfl) _

theorem decimal64_decided (s : Nat) : FatesDecide order (.decimal64 s) := by
  intro pt values nulls
  cases pt with
  | decimal128 precision scale =>
    exact tells_narrow (fun i hlow hhigh => (signed_int64 _).trans
      (Int64.toInt_ofInt_of_le (by omega) (by omega))) rfl (fun _ _ => Iff.rfl) rfl
      (fun _ => rfl) (fun _ => rfl) _
  | _ => exact tells_refused rfl (fun _ => rfl) _

theorem decimal128_describes (s : Nat) (precision : Nat) (scale : Int8) (v : BitVec 128) :
    (decimalFate s scale v.toInt).Describes 16
      (SaysRow order (.decimal128 s) (.decimal128 precision scale) (some v))
      (.ok (putLe v) : ArrowResult Bytes) := by
  have hmeaning : meaningOf (.decimal128 s) (.decimal128 precision scale) v =
      some (.number (v.toInt / (10 : ℚ) ^ scale.toInt)) := rfl
  refine describes_if hmeaning rfl ?_
  show _ ↔ (signed (putLe v) : ℚ) / 10 ^ s = _
  rw [signed_bitVec]
  exact sameDigits_iff v.toInt s scale

theorem decimal128_decided (s : Nat) : FatesDecide order (.decimal128 s) := by
  intro pt values nulls
  cases pt with
  | decimal128 precision scale =>
    exact tells_writeRows order (.decimal128 s) (.decimal128 precision scale) (0 : BitVec 128) .ok
      putLe rfl rfl (decimal128_describes s precision scale) _
  | _ => exact tells_refused rfl (fun _ => rfl) _

end Decimals

/-! ## 256-bit numbers -/

section Wide

variable {order : Order256}

/-- The number of 32 bytes, and the bytes of the number. -/
theorem eq_leBytes_signed {bytes : Bytes} (h : bytes.length = 32) :
    bytes = leBytes 32 (signed bytes % 2 ^ 256).toNat := by
  have hlt := ofLeBytes_lt bytes
  have hback := leBytes_ofLeBytes bytes
  rw [h] at hlt hback
  have hmod : (signed bytes % 2 ^ 256).toNat = ofLeBytes bytes := by
    rw [signed, h]
    split_ifs <;> omega
  rw [hmod, hback]

theorem signed_signExtended (v : BitVec 128) : signed (Primitive.signExtended v) = v.toInt := by
  have hwidth : Word.width (BitVec 128) = 16 := rfl
  have hnat : Word.toNat v = v.toNat := rfl
  have hones : ofLeBytes (List.replicate 16 0xFF) = 256 ^ 16 - 1 := by decide
  have hcond := BitVec.toInt_eq_toNat_cond v
  have hlt := v.isLt
  have hlength : (Primitive.signExtended v).length = 32 := by
    rw [Primitive.signExtended, List.length_append, putLe_length, List.length_replicate, hwidth]
  rw [signed, hlength, Primitive.signExtended]
  by_cases hneg : v.toInt < 0
  · rw [if_pos hneg, ofLeBytes_append, ofLeBytes_putLe, putLe_length, hwidth, hnat, hones]
    split_ifs at hcond ⊢ <;> omega
  · rw [if_neg hneg, ofLeBytes_append_zeros, ofLeBytes_putLe, hnat]
    split_ifs at hcond ⊢ <;> omega

/-- The bytes of the Arrow codec, read in either order. -/
theorem signed_swapped {bytes : Bytes} (h : bytes.length = 32) :
    signed (ordered order (Primitive.swapEndian256 bytes)) =
      match order with
      | .mostSignificantFirst => signed bytes
      | .leastSignificantFirst => mirrored (signed bytes) := by
  cases order with
  | mostSignificantFirst => exact congrArg signed (List.reverse_reverse bytes)
  | leastSignificantFirst => exact congrArg (fun bs => signed bs.reverse) (eq_leBytes_signed h)

theorem length_swapped {bytes : Bytes} (h : bytes.length = 32) :
    (Primitive.swapEndian256 bytes).length = 32 := (List.length_reverse).trans h

/-- 256-bit digits are written as they are. -/
theorem wide_describes {pt : PrimitiveType} {s : Nat} {scale : Int8} {v : pt.Native} {bytes : Bytes}
    (h : bytes.length = 32)
    (hmeaning : meaningOf (.decimal256 s) pt v =
      some (.number (signed bytes / (10 : ℚ) ^ scale.toInt))) :
    (wideFate order s scale (signed bytes)).Describes 32 (SaysRow order (.decimal256 s) pt (some v))
      (.ok (Primitive.swapEndian256 bytes) : ArrowResult Bytes) := by
  have hdenotes : Denotes order (.decimal256 s) (Primitive.swapEndian256 bytes)
      (.number (signed bytes / (10 : ℚ) ^ scale.toInt)) ↔
        (signed (ordered order (Primitive.swapEndian256 bytes)) : ℚ) / 10 ^ s =
          signed bytes / (10 : ℚ) ^ scale.toInt := Iff.rfl
  rw [signed_swapped h] at hdenotes
  cases order with
  | mostSignificantFirst =>
    exact describes_if hmeaning (length_swapped h) ((sameDigits_iff _ s scale).trans hdenotes.symm)
  | leastSignificantFirst => exact describes_if hmeaning (length_swapped h) hdenotes.symm

theorem decimal256_decided (s : Nat) : FatesDecide order (.decimal256 s) := by
  intro pt values nulls
  cases pt with
  | decimal128 precision scale =>
    refine tells_writeRows order (.decimal256 s) (.decimal128 precision scale) Primitive.zero256
      (fun v => .ok (Primitive.swapEndian256 (Primitive.signExtended v))) id rfl rfl (fun v => ?_) _
    have hsigned := signed_signExtended v
    show (wideFate order s scale (BitVec.toInt v)).Describes 32 _ _
    rw [← hsigned]
    refine wide_describes rfl ?_
    rw [hsigned]
    rfl
  | decimal256 precision scale =>
    exact tells_writeRows order (.decimal256 s) (.decimal256 precision scale) Primitive.zero256
      (fun v : Octets 32 => .ok (Primitive.swapEndian256 v.bytes)) id rfl rfl
      (fun v => wide_describes (Octets.length_eq v) rfl) _
  | _ => exact tells_refused rfl (fun _ => rfl) _

theorem toInt_ofInt128 (v : Int64) : (BitVec.ofInt 128 v.toInt).toInt = v.toInt := by
  have hlow := Int64.le_toInt v
  have hhigh := Int64.toInt_lt v
  exact BitVec.toInt_ofInt_eq_self (by decide) (by omega) (by omega)

theorem int256_describes (v : Int64) :
    (valueFate order .int256 .int64 v).Describes 32 (SaysRow order .int256 .int64 (some v))
      (.ok (Primitive.swapEndian256 (Primitive.signExtended (BitVec.ofInt 128 v.toInt))) :
        ArrowResult Bytes) := by
  have hmeaning : meaningOf .int256 .int64 v = some (.number v.toInt) := rfl
  have hlength : (Primitive.signExtended (BitVec.ofInt 128 v.toInt)).length = 32 := rfl
  have hsigned : signed (Primitive.signExtended (BitVec.ofInt 128 v.toInt)) = v.toInt :=
    (signed_signExtended _).trans (toInt_ofInt128 v)
  refine describes_if hmeaning (length_swapped hlength) ?_
  show _ ↔ (signed (ordered order (Primitive.swapEndian256 _)) : ℚ) = v.toInt
  rw [signed_swapped hlength, hsigned]
  cases order with
  | mostSignificantFirst => simp
  | leastSignificantFirst => simp

theorem int256_decided : FatesDecide order .int256 := by
  intro pt values nulls
  cases pt with
  | int64 =>
    exact tells_writeRows order .int256 .int64 Primitive.zero256
      (fun v : Int64 => .ok (Primitive.swapEndian256
        (Primitive.signExtended (BitVec.ofInt 128 v.toInt)))) id rfl rfl int256_describes _
  | _ => exact tells_refused rfl (fun _ => rfl) _

theorem uint256_describes (v : UInt64) :
    (valueFate order .uint256 .uint64 v).Describes 32 (SaysRow order .uint256 .uint64 (some v))
      (.ok (Primitive.swapEndian256 (putLe v ++ List.replicate 24 0)) : ArrowResult Bytes) := by
  have hmeaning : meaningOf .uint256 .uint64 v = some (.number (v.toNat : Int)) := rfl
  have hlength : (putLe v ++ List.replicate 24 0).length = 32 := rfl
  have hvalue : ofLeBytes (putLe v ++ List.replicate 24 0) = v.toNat := by
    rw [ofLeBytes_append_zeros, ofLeBytes_putLe]
    rfl
  have hbytes := leBytes_ofLeBytes (putLe v ++ List.replicate 24 0)
  rw [hlength, hvalue] at hbytes
  refine describes_if hmeaning (length_swapped hlength) ?_
  show _ ↔ (ofLeBytes (ordered order (Primitive.swapEndian256 _)) : ℚ) = (v.toNat : Int)
  cases order with
  | mostSignificantFirst =>
    have hback : ofLeBytes (ordered .mostSignificantFirst
        (Primitive.swapEndian256 (putLe v ++ List.replicate 24 0))) = v.toNat :=
      (congrArg ofLeBytes (List.reverse_reverse _)).trans hvalue
    rw [hback]
    simp
  | leastSignificantFirst =>
    rw [← hbytes]
    show _ ↔ (mirroredNat v.toNat : ℚ) = (v.toNat : Int)
    rw [Int.cast_natCast, Nat.cast_inj]
    simp

theorem uint256_decided : FatesDecide order .uint256 := by
  intro pt values nulls
  cases pt with
  | uint64 =>
    exact tells_writeRows order .uint256 .uint64 Primitive.zero256
      (fun v : UInt64 => .ok (Primitive.swapEndian256 (putLe v ++ List.replicate 24 0))) id rfl rfl
      uint256_describes _
  | _ => exact tells_refused rfl (fun _ => rfl) _

end Wide

/-! ## Integers -/

section Integers

variable {order : Order256}

theorem natural_denotes {cell : Bytes} {n : Nat} (h : ofLeBytes cell = n) :
    (ofLeBytes cell : ℚ) = ((n : Int) : ℚ) := by
  rw [h, Int.cast_natCast]

/-- The rows of a column of integers that are written as words. -/
theorem tells_words (t : ChType) (pt : PrimitiveType) {α : Type} [Word α] {default : α}
    (convert : pt.Native → α) (number : pt.Native → Int) (hwidth : Word.width α = widthOf t)
    (hnull : rowFate order t pt none = .kept) (hfate : ∀ v, valueFate order t pt v = .kept)
    (hmeaning : ∀ v, meaningOf t pt v = some (.number (number v)))
    (hdenotes : ∀ v, Denotes order t (putLe (convert v)) (.number (number v)))
    (rows : List (Option pt.Native)) :
    Tells (SaysRow order t pt) rows
        (Primitive.writeRows default (fun v => .ok (convert v)) putLe rows) ↔
      Fate.Fare (rows.map (rowFate order t pt)) := by
  refine tells_writeRows order t pt default _ putLe ((putLe_length _).trans hwidth) hnull
    (fun v => ?_) rows
  rw [hfate v]
  exact describes_kept (hmeaning v) ((putLe_length _).trans hwidth) (hdenotes v)

theorem int8_decided : FatesDecide order .int8 := by
  intro pt values nulls
  cases pt with
  | int8 =>
    exact tells_words .int8 .int8 (fun v : Int8 => v) Int8.toInt rfl rfl (fun _ => rfl)
      (fun _ => rfl) (fun v => congrArg Int.cast (signed_int8 v)) _
  | _ => exact tells_refused rfl (fun _ => rfl) _

theorem int16_decided : FatesDecide order .int16 := by
  intro pt values nulls
  cases pt with
  | int16 =>
    exact tells_words .int16 .int16 (fun v : Int16 => v) Int16.toInt rfl rfl (fun _ => rfl)
      (fun _ => rfl) (fun v => congrArg Int.cast (signed_int16 v)) _
  | _ => exact tells_refused rfl (fun _ => rfl) _

theorem int32_decided : FatesDecide order .int32 := by
  intro pt values nulls
  cases pt with
  | int32 =>
    exact tells_words .int32 .int32 (fun v : Int32 => v) Int32.toInt rfl rfl (fun _ => rfl)
      (fun _ => rfl) (fun v => congrArg Int.cast (signed_int32 v)) _
  | _ => exact tells_refused rfl (fun _ => rfl) _

theorem int64_decided : FatesDecide order .int64 := by
  intro pt values nulls
  cases pt with
  | int64 =>
    exact tells_words .int64 .int64 (fun v : Int64 => v) Int64.toInt rfl rfl (fun _ => rfl)
      (fun _ => rfl) (fun v => congrArg Int.cast (signed_int64 v)) _
  | _ => exact tells_refused rfl (fun _ => rfl) _

theorem uint8_decided : FatesDecide order .uint8 := by
  intro pt values nulls
  cases pt with
  | uint8 =>
    exact tells_words .uint8 .uint8 (fun v : UInt8 => v) (fun v : UInt8 => v.toNat) rfl rfl
      (fun _ => rfl) (fun _ => rfl) (fun v : UInt8 => natural_denotes (ofLeBytes_putLe v)) _
  | _ => exact tells_refused rfl (fun _ => rfl) _

theorem uint16_decided : FatesDecide order .uint16 := by
  intro pt values nulls
  cases pt with
  | uint16 =>
    exact tells_words .uint16 .uint16 (fun v : UInt16 => v) (fun v : UInt16 => v.toNat) rfl rfl
      (fun _ => rfl) (fun _ => rfl) (fun v : UInt16 => natural_denotes (ofLeBytes_putLe v)) _
  | _ => exact tells_refused rfl (fun _ => rfl) _

theorem uint32_decided : FatesDecide order .uint32 := by
  intro pt values nulls
  cases pt with
  | uint32 =>
    exact tells_words .uint32 .uint32 (fun v : UInt32 => v) (fun v : UInt32 => v.toNat) rfl rfl
      (fun _ => rfl) (fun _ => rfl) (fun v : UInt32 => natural_denotes (ofLeBytes_putLe v)) _
  | _ => exact tells_refused rfl (fun _ => rfl) _

theorem uint64_decided : FatesDecide order .uint64 := by
  intro pt values nulls
  cases pt with
  | uint64 =>
    exact tells_words .uint64 .uint64 (fun v : UInt64 => v) (fun v : UInt64 => v.toNat) rfl rfl
      (fun _ => rfl) (fun _ => rfl) (fun v : UInt64 => natural_denotes (ofLeBytes_putLe v)) _
  | _ => exact tells_refused rfl (fun _ => rfl) _

theorem int128_decided : FatesDecide order .int128 := by
  intro pt values nulls
  cases pt with
  | int64 =>
    exact tells_words .int128 .int64 (fun v => BitVec.ofInt 128 (Int64.toInt v)) Int64.toInt
      rfl rfl (fun _ => rfl) (fun _ => rfl)
      (fun v => congrArg Int.cast ((signed_bitVec _).trans (toInt_ofInt128 v))) _
  | _ => exact tells_refused rfl (fun _ => rfl) _

theorem uint128_decided : FatesDecide order .uint128 := by
  intro pt values nulls
  cases pt with
  | uint64 =>
    have hvalue (v : UInt64) : ofLeBytes (putLe (BitVec.ofNat 128 v.toNat)) = v.toNat := by
      have hlt := v.toNat_lt
      rw [ofLeBytes_putLe]
      show (BitVec.ofNat 128 v.toNat).toNat = v.toNat
      rw [BitVec.toNat_ofNat]
      omega
    exact tells_words .uint128 .uint64 (fun v => BitVec.ofNat 128 (UInt64.toNat v))
      (fun v => (UInt64.toNat v : Int)) rfl rfl (fun _ => rfl) (fun _ => rfl)
      (fun v => natural_denotes (hvalue v)) _
  | _ => exact tells_refused rfl (fun _ => rfl) _

end Integers

/-! ## Enums -/

section Enums

variable {order : Order256} {α : Type} [Word α] [DecidableEq α] {t : ChType} {cast : Int → α}
  {toInt : α → Int} {pairs : List (String × α)} {indexes : List Int}

/-- The integers of an array go through the cast. -/
theorem writeEnumValues_primitive (pt : PrimitiveType) (values : List pt.Native) (nulls : Nulls) :
    Enums.writeEnumValues cast toInt pairs (.primitive pt values nulls) =
      (Enums.integers (.primitive pt values nulls)).elim
        (.fail (.arrowSerialize
          [.text "Expected DictionaryArray, PrimitiveArray, StringArray, or BinaryArray, got ",
            .dataType (.primitive pt)]))
        (Outcome.emit fun row =>
          if pairs.any fun pair => pair.2 = cast (row.getD 0) then .ok (putLe (cast (row.getD 0)))
          else .fail (.arrowSerialize [.text "Value ", .number (toInt (cast (row.getD 0))),
            .text " not found in enum"])) := by
  cases hrows : Enums.integers (.primitive pt values nulls) with
  | none => simp only [Enums.writeEnumValues, hrows, Option.elim_none, ArrowArray.dataType]
  | some rows => simp only [Enums.writeEnumValues, hrows, Option.elim_some]

/-- What the two enums have in common. -/
structure Indexed (order : Order256) (t : ChType) (cast : Int → α) (toInt : α → Int)
    (pairs : List (String × α)) : Prop where
  width : Word.width α = widthOf t
  signed : ∀ a, signed (putLe a) = toInt a
  injective : Function.Injective toInt
  zero : toInt (cast 0) = 0
  denotes : ∀ cell i, Denotes order t cell (.index i) ↔ Arrow.signed cell = i
  meaning : ∀ pt v i, integerOf pt v = some i → meaningOf t pt v = some (.index i)
  writes : ∀ array d, serializeAsync t array d = Enums.writeEnumValues cast toInt pairs array
  value : ∀ pt v, valueFate order t pt v = (integerOf pt v).elim .refused
    (indexFate (fun i => toInt (cast i)) (pairs.map fun pair => toInt pair.2))
  null : ∀ pt, rowFate order t pt none =
    if 0 ∈ pairs.map fun pair => toInt pair.2 then .kept else .refused

namespace Indexed

variable {pt : PrimitiveType} (h : Indexed order t cast toInt pairs)

include h

theorem any_iff (v : Int) :
    (pairs.any fun pair => pair.2 = cast v) = true ↔
      toInt (cast v) ∈ pairs.map fun pair => toInt pair.2 := by
  rw [List.any_eq_true]
  simp only [decide_eq_true_eq, List.mem_map]
  exact exists_congr fun pair => and_congr_right fun _ => h.injective.eq_iff.symm

/-- An index is looked up after the cast, and a null is looked up as a zero. -/
theorem describes (row : Option pt.Native) (v : Option Int)
    (hv : ∀ value, row = some value → ∃ i, v = some i ∧ integerOf pt value = some i)
    (hnone : row = none → v = none) :
    (rowFate order t pt row).Describes (widthOf t) (SaysRow order t pt row)
      (if pairs.any fun pair => pair.2 = cast (v.getD 0) then .ok (putLe (cast (v.getD 0)))
        else .fail (.arrowSerialize [.text "Value ", .number (toInt (cast (v.getD 0))),
          .text " not found in enum"]) : ArrowResult Bytes) := by
  have hlength (a : α) : (putLe a).length = widthOf t := (putLe_length a).trans h.width
  cases row with
  | none =>
    have hmem := h.any_iff 0
    rw [h.zero] at hmem
    rw [hnone rfl, Option.getD_none, h.null]
    by_cases hzero : 0 ∈ pairs.map fun pair => toInt pair.2
    · rw [if_pos hzero, if_pos (hmem.mpr hzero)]
      exact ⟨_, rfl, hlength _, fun value hvalue => absurd hvalue (by simp)⟩
    · rw [if_neg hzero, if_neg (mt hmem.mp hzero)]
      exact ⟨_, rfl⟩
  | some value =>
    obtain ⟨i, rfl, hi⟩ := hv value rfl
    have hmem := h.any_iff i
    rw [rowFate, h.value, hi, Option.elim_some, indexFate, Option.getD_some]
    by_cases hfound : toInt (cast i) ∈ pairs.map fun pair => toInt pair.2
    · rw [if_pos hfound, if_pos (hmem.mpr hfound)]
      refine describes_if (h.meaning pt value i hi) (hlength _) ?_
      rw [h.denotes, h.signed]
    · rw [if_neg hfound, if_neg (mt hmem.mp hfound)]
      exact ⟨_, rfl⟩

/-- An array of integers. -/
theorem tells (pt : PrimitiveType) (integer : pt.Native → Int)
    (hinteger : ∀ v, integerOf pt v = some (integer v))
    (values : List pt.Native) (nulls : Nulls)
    (hintegers : Enums.integers (.primitive pt values nulls) =
      some (slots (values.map integer) nulls)) :
    Tells (SaysRow order t pt) (slots values nulls)
        (serializeAsync t (.primitive pt values nulls) (.primitive pt)) ↔
      Fate.Fare ((slots values nulls).map (rowFate order t pt)) := by
  rw [h.writes, writeEnumValues_primitive, hintegers, slots_map, Option.elim_some, Outcome.emit_map]
  refine tells_emit_iff (fun row cell hsays => hsays.1) (fun row => ?_) _
  refine h.describes row (row.map integer) ?_ ?_
  · rintro value rfl
    exact ⟨integer value, rfl, hinteger value⟩
  · rintro rfl
    rfl

theorem decided : FatesDecide order t := by
  intro pt values nulls
  have hrefused (hnone : ∀ v, integerOf pt v = none)
      (hother : Enums.integers (.primitive pt values nulls) = none) :
      Tells (SaysRow order t pt) (slots values nulls)
          (serializeAsync t (.primitive pt values nulls) (.primitive pt)) ↔
        Fate.Fare ((slots values nulls).map (rowFate order t pt)) := by
    have hwrites : ∃ e, serializeAsync t (.primitive pt values nulls) (.primitive pt) = .fail e := by
      rw [h.writes, writeEnumValues_primitive, hother]
      exact ⟨_, rfl⟩
    obtain ⟨e, he⟩ := hwrites
    refine tells_refused he (fun v => ?_) _
    rw [h.value, hnone]
    rfl
  cases pt with
  | int8 => exact h.tells .int8 Int8.toInt (fun _ => rfl) values nulls rfl
  | int16 => exact h.tells .int16 Int16.toInt (fun _ => rfl) values nulls rfl
  | int32 => exact h.tells .int32 Int32.toInt (fun _ => rfl) values nulls rfl
  | int64 => exact h.tells .int64 Int64.toInt (fun _ => rfl) values nulls rfl
  | uint8 => exact h.tells .uint8 (fun v : UInt8 => (v.toNat : Int)) (fun _ => rfl) values nulls rfl
  | uint16 => exact h.tells .uint16 (fun v : UInt16 => (v.toNat : Int)) (fun _ => rfl) values nulls rfl
  | uint32 => exact h.tells .uint32 (fun v : UInt32 => (v.toNat : Int)) (fun _ => rfl) values nulls rfl
  | uint64 => exact h.tells .uint64 (fun v : UInt64 => (v.toNat : Int)) (fun _ => rfl) values nulls rfl
  | _ => exact hrefused (fun _ => rfl) rfl

end Indexed

theorem indexed_enum8 (pairs : List (String × Int8)) :
    Indexed order (.enum8 pairs) Int8.ofInt Int8.toInt pairs where
  width := rfl
  signed := signed_int8
  injective := fun a b hab => Int8.toInt_inj.mp hab
  zero := rfl
  denotes := fun _ _ => Iff.rfl
  meaning := by
    intro pt v i hi
    cases pt <;> simp_all [integerOf, meaningOf]
  writes := fun _ _ => rfl
  value := fun _ _ => rfl
  null := fun _ => rfl

theorem indexed_enum16 (pairs : List (String × Int16)) :
    Indexed order (.enum16 pairs) Int16.ofInt Int16.toInt pairs where
  width := rfl
  signed := signed_int16
  injective := fun a b hab => Int16.toInt_inj.mp hab
  zero := rfl
  denotes := fun _ _ => Iff.rfl
  meaning := by
    intro pt v i hi
    cases pt <;> simp_all [integerOf, meaningOf]
  writes := fun _ _ => rfl
  value := fun _ _ => rfl
  null := fun _ => rfl

end Enums

/-! ## Every type -/

theorem fatesDecide (order : Order256) {t : ChType} (ht : IsScalar t) : FatesDecide order t := by
  cases t with
  | int8 => exact int8_decided
  | int16 => exact int16_decided
  | int32 => exact int32_decided
  | int64 => exact int64_decided
  | int128 => exact int128_decided
  | int256 => exact int256_decided
  | uint8 => exact uint8_decided
  | uint16 => exact uint16_decided
  | uint32 => exact uint32_decided
  | uint64 => exact uint64_decided
  | uint128 => exact uint128_decided
  | uint256 => exact uint256_decided
  | decimal32 s => exact decimal32_decided s
  | decimal64 s => exact decimal64_decided s
  | decimal128 s => exact decimal128_decided s
  | decimal256 s => exact decimal256_decided s
  | date => exact date_decided
  | date32 => exact date32_decided
  | dateTime tz => exact dateTime_decided tz
  | dateTime64 p tz => exact dateTime64_decided ht tz
  | enum8 pairs => exact (indexed_enum8 pairs).decided
  | enum16 pairs => exact (indexed_enum16 pairs).decided
  | _ => exact ht.elim

/-- **Scalars are written with their meaning, or refused, exactly if every row before the first
one that is refused does not overflow, and every row is kept where none is refused.** -/
theorem writesMeaning_iff_fare (order : Order256) (t : ChType) (ht : IsScalar t)
    (pt : PrimitiveType) (values : List pt.Native) (nulls : Nulls) :
    WritesMeaning order t pt values nulls ↔
      Fate.Fare ((slots values nulls).map (rowFate order t pt)) := by
  rw [← fatesDecide order ht pt values nulls]
  constructor
  · intro h
    exact h .async
  · intro h m
    rw [serializeBy_eq]
    exact h

/-- Milliseconds before 1970, and a null. -/
theorem writesMeaning_iff_fare_sample :
    WritesMeaning .mostSignificantFirst (.dateTime64 3 FromStr.utc) (.timestamp .millisecond none)
      ([-5, 0, 7] : List Int64) (some [true, false, true]) :=
  (writesMeaning_iff_fare .mostSignificantFirst (.dateTime64 3 FromStr.utc) (show 3 ≤ 9 by decide)
    (.timestamp .millisecond none) ([-5, 0, 7] : List Int64) (some [true, false, true])).mpr
      (by decide)

theorem not_writesMeaning_of_fates {order : Order256} (t : ChType) (ht : IsScalar t)
    (pt : PrimitiveType) (values : List pt.Native)
    (h : ¬ Fate.Fare ((slots values none).map (rowFate order t pt))) :
    ¬ WritesMeaning order t pt values none :=
  fun hwrites => h ((fatesDecide order ht pt values none).mp (hwrites .async))

/-- A second before 1970 as a `DateTime`; a microsecond before 1970 in milliseconds, five
milliseconds in tenths of a second, and 2 to the 35 seconds in nanoseconds; the last day; digits
of another scale; and an index that the cast makes another one. -/
theorem not_writesMeaning_samples :
    ¬ WritesMeaning .mostSignificantFirst (.dateTime FromStr.utc) (.timestamp .second none)
        ([-1] : List Int64) none ∧
      ¬ WritesMeaning .mostSignificantFirst (.dateTime64 3 FromStr.utc)
        (.timestamp .microsecond none) ([-1] : List Int64) none ∧
      ¬ WritesMeaning .mostSignificantFirst (.dateTime64 1 FromStr.utc)
        (.timestamp .millisecond none) ([5] : List Int64) none ∧
      ¬ WritesMeaning .mostSignificantFirst (.dateTime64 9 FromStr.utc) (.timestamp .second none)
        ([34359738368] : List Int64) none ∧
      ¬ WritesMeaning .mostSignificantFirst .date32 .date32 ([2147483647] : List Int32) none ∧
      ¬ WritesMeaning .mostSignificantFirst (.decimal64 2) (.decimal128 38 3)
        ([5] : List (BitVec 128)) none ∧
      ¬ WritesMeaning .mostSignificantFirst (.enum8 [("a", 1)]) .int32 ([257] : List Int32) none := by
  refine ⟨not_writesMeaning_of_fates (.dateTime _) trivial _ _ (by decide),
    not_writesMeaning_of_fates (.dateTime64 3 _) (show 3 ≤ 9 by decide) _ _ (by decide),
    not_writesMeaning_of_fates (.dateTime64 1 _) (show 1 ≤ 9 by decide) _ _ (by decide),
    not_writesMeaning_of_fates (.dateTime64 9 _) (show 9 ≤ 9 by decide) _ _ (by decide),
    not_writesMeaning_of_fates .date32 trivial _ _ (by decide),
    not_writesMeaning_of_fates (.decimal64 2) trivial _ _ (by decide),
    not_writesMeaning_of_fates (.enum8 _) trivial _ _ (by decide)⟩

end Arrow

end ClickhouseArrow
