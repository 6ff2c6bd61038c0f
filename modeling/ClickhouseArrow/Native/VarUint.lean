import ClickhouseArrow.Native.Io

/-!
# Variable-length numbers and strings

The four loops of `io.rs` over a `u64`, as the code runs them: two writers that fill a
buffer of nine bytes, two readers that `or` seven bits an octet into the number, and the
strings that carry their length in front.  Nine octets hold 63 bits, so the numbers that
survive are those below `2 ^ 63`; all four functions agree with the base-128 format of
nine bytes that the rest of the development reads and writes.
-/

namespace ClickhouseArrow

open Wire

namespace VarUint

/-- The bits of an octet that belong to the number, `0x7F`. -/
def lowBits (octet : UInt8) : UInt8 := octet &&& 0x7F

/-- The bit of an octet that announces another one, `0x80`. -/
def continues (octet : UInt8) : Bool := octet &&& 0x80 != 0

/-- The loop of both writers: what the buffer holds in the end, `buf` being what it holds
up to `pos` and `left` the places from there to the ninth. -/
def fill : (left : Nat) → (value : UInt64) → (buf : Bytes) → Bytes
  | 0, _, buf => buf
  | left + 1, value, buf =>
      let byte := value &&& 0x7F
      let value := value >>> 7
      let byte := if value > 0 then byte ||| 0x80 else byte
      let buf := buf ++ [byte.toUInt8]
      if value = 0 then buf else fill left value buf

/-- The loop of both readers: the octets from number `i` on, `left` of them at most, `out`
being what the octets before give. -/
def collect (eof : Nat → Nat → Error) : (left i : Nat) → (out : UInt64) → Reader Error UInt64
  | 0, _, out => pure out
  | left + 1, i, out => do
      let octet ← getByte eof
      let out := out ||| (lowBits octet).toUInt64 <<< UInt64.ofNat (7 * i)
      if continues octet then collect eof left (i + 1) out else pure out

end VarUint

open VarUint

namespace ClickHouseWrite

/-- `write_var_uint`. -/
def writeVarUint (value : UInt64) : Bytes := fill 9 value []

/-- `write_string`. -/
def writeString (value : Bytes) : Bytes :=
  writeVarUint (UInt64.ofNat value.length) ++ value

end ClickHouseWrite

namespace ClickHouseBytesWrite

/-- `put_var_uint`. -/
def putVarUint (value : UInt64) : Bytes := fill 9 value []

/-- `put_string`. -/
def putString (value : Bytes) : Bytes :=
  putVarUint (UInt64.ofNat value.length) ++ value

end ClickHouseBytesWrite

namespace ClickHouseRead

/-- `read_var_uint`. -/
def readVarUint : Reader Error UInt64 := collect Mode.async.eofVarUint 9 0 0

/-- `read_string`. -/
def readString : Reader Error Bytes := do
  let len ← readVarUint
  if len.toNat > maxStringSize then Reader.fail (Mode.async.stringTooLarge len.toNat)
  else if len.toNat = 0 then pure []
  else Reader.takeExact Mode.async.eofString len.toNat

end ClickHouseRead

namespace ClickHouseBytesRead

/-- `try_get_var_uint`: the first octet stands outside the loop. -/
def tryGetVarUint : Reader Error UInt64 := do
  let b ← getByte Mode.sync.eofVarUint
  let out := (lowBits b).toUInt64
  if continues b then collect Mode.sync.eofVarUint 8 1 out else pure out

/-- `try_get_string`. -/
def tryGetString : Reader Error Bytes := do
  let len ← tryGetVarUint
  if len.toNat > maxStringSize then Reader.fail (Mode.sync.stringTooLarge len.toNat)
  else if len.toNat = 0 then pure []
  else Reader.takeExact Mode.sync.eofString len.toNat

end ClickHouseBytesRead

/-! ## The bits of an octet -/

namespace VarUint

theorem toNat_lowBits (octet : UInt8) : (lowBits octet).toNat = octet.toNat % 128 := by
  have hmask : (0x7F : UInt8).toNat = 2 ^ 7 - 1 := rfl
  rw [lowBits, UInt8.toNat_and, hmask, Nat.and_two_pow_sub_one_eq_mod]

theorem continues_eq (octet : UInt8) : continues octet = decide (128 ≤ octet.toNat) := by
  have hall : ∀ x : Fin 256, continues (UInt8.ofNat x) = decide (128 ≤ x.val) := by decide +kernel
  have hoctet := hall ⟨octet.toNat, octet.toNat_lt⟩
  rwa [UInt8.ofNat_toNat] at hoctet

theorem toNat_shiftRight_seven (value : UInt64) : (value >>> 7).toNat = value.toNat / 128 := by
  rw [UInt64.toNat_shiftRight]
  simp [Nat.shiftRight_eq_div_pow]

/-- The octet of the lowest seven bits, the last one of a number. -/
theorem toUInt8_low (value : UInt64) :
    (value &&& 0x7F).toUInt8 = UInt8.ofNat (value.toNat % 128) := by
  have hmask : (0x7F : UInt64).toNat = 2 ^ 7 - 1 := rfl
  apply UInt8.toNat_inj.mp
  rw [UInt64.toNat_toUInt8, UInt64.toNat_and, hmask, Nat.and_two_pow_sub_one_eq_mod,
    UInt8.toNat_ofNat']

/-- The octet of the lowest seven bits that announces another one. -/
theorem toUInt8_low_continued (value : UInt64) :
    ((value &&& 0x7F) ||| 0x80).toUInt8 = UInt8.ofNat (value.toNat % 128 + 128) := by
  have hmask : (0x7F : UInt64).toNat = 2 ^ 7 - 1 := rfl
  have hbit : (0x80 : UInt64).toNat = 2 ^ 7 * 1 := rfl
  have hlow : value.toNat % 2 ^ 7 < 2 ^ 7 := Nat.mod_lt _ (by decide)
  apply UInt8.toNat_inj.mp
  rw [UInt64.toNat_toUInt8, UInt64.toNat_or, UInt64.toNat_and, hmask,
    Nat.and_two_pow_sub_one_eq_mod, hbit, Nat.or_comm, ← Nat.two_pow_add_eq_or_of_lt hlow,
    UInt8.toNat_ofNat', Nat.add_comm (2 ^ 7 * 1)]
  rfl

/-! ## The loops compute the base-128 format -/

theorem fill_eq (left : Nat) (value : UInt64) (buf : Bytes) :
    fill left value buf = buf ++ leb128 left value.toNat := by
  induction left generalizing value buf with
  | zero => rw [fill, leb128, List.append_nil]
  | succ left ih =>
      have hshift := toNat_shiftRight_seven value
      rw [fill, leb128]
      by_cases hlast : value.toNat / 128 = 0
      · have hzero : value >>> 7 = 0 := by
          apply UInt64.toNat_inj.mp
          rw [hshift, hlast]
          rfl
        simp only [hzero, hlast, if_true, gt_iff_lt, UInt64.lt_irrefl, if_false, toUInt8_low]
      · have hpos : (0 : UInt64) < value >>> 7 := by
          apply UInt64.lt_iff_toNat_lt.mpr
          rw [hshift]
          exact Nat.pos_of_ne_zero hlast
        have hne : value >>> 7 ≠ 0 := by
          rintro hzero
          rw [hzero] at hpos
          exact UInt64.lt_irrefl 0 hpos
        simp only [hpos, hne, hlast, if_true, if_false, toUInt8_low_continued]
        rw [ih, hshift, List.append_assoc]
        rfl

/-- An octet goes above the bits that are there already. -/
theorem toNat_or_octet {out : UInt64} {i : Nat} (hout : out.toNat < 2 ^ (7 * i)) (hi : i ≤ 8)
    (octet : UInt8) :
    (out ||| (lowBits octet).toUInt64 <<< UInt64.ofNat (7 * i)).toNat =
      out.toNat + 2 ^ (7 * i) * (octet.toNat % 128) := by
  have hlow : octet.toNat % 128 < 2 ^ 7 := Nat.mod_lt _ (by decide)
  have hshift : (UInt64.ofNat (7 * i)).toNat % 64 = 7 * i := by
    rw [UInt64.toNat_ofNat']
    omega
  have hfits : octet.toNat % 128 * 2 ^ (7 * i) < 2 ^ 64 := by
    calc octet.toNat % 128 * 2 ^ (7 * i)
        < 2 ^ 7 * 2 ^ (7 * i) := Nat.mul_lt_mul_of_pos_right hlow (Nat.two_pow_pos _)
      _ = 2 ^ (7 + 7 * i) := (Nat.pow_add ..).symm
      _ ≤ 2 ^ 64 := Nat.pow_le_pow_right (by decide) (by omega)
  rw [UInt64.toNat_or, UInt64.toNat_shiftLeft, UInt8.toNat_toUInt64, toNat_lowBits, hshift,
    Nat.shiftLeft_eq, Nat.mod_eq_of_lt hfits, Nat.or_comm, Nat.mul_comm (octet.toNat % 128),
    ← Nat.two_pow_add_eq_or_of_lt hout, Nat.add_comm]

theorem collect_nil (eof : Nat → Nat → Error) (left i : Nat) (out : UInt64) :
    collect eof (left + 1) i out [] = .error (.error (eof 1 0)) := rfl

theorem collect_cons (eof : Nat → Nat → Error) (left i : Nat) (out : UInt64) (octet : UInt8)
    (rest : Bytes) :
    collect eof (left + 1) i out (octet :: rest) =
      if octet.toNat < 128 then
        .ok (out ||| (lowBits octet).toUInt64 <<< UInt64.ofNat (7 * i), rest)
      else collect eof left (i + 1) (out ||| (lowBits octet).toUInt64 <<< UInt64.ofNat (7 * i))
        rest := by
  show (if continues octet = true then _ else _ : Reader Error UInt64) rest = _
  rw [continues_eq]
  by_cases hlast : octet.toNat < 128
  · rw [if_neg (by simpa using hlast), if_pos hlast]
    rfl
  · rw [if_pos (by simpa using hlast), if_neg hlast]

theorem getLeb128_cons (eof : Nat → Nat → Error) (left : Nat) (octet : UInt8) (rest : Bytes) :
    getLeb128 eof (left + 1) (octet :: rest) =
      if octet.toNat < 128 then .ok (octet.toNat, rest)
      else getLeb128 eof left rest >>= fun x => .ok (octet.toNat % 128 + 128 * x.1, x.2) := by
  show (if octet.toNat < 128 then _ else _ : Reader Error Nat) rest = _
  split_ifs
  · rfl
  · rfl

/-- The octets from number `i` on give the bits from `7 * i` on. -/
theorem collect_eq (eof : Nat → Nat → Error) {left i : Nat} {out : UInt64} (hi : i + left ≤ 9)
    (hout : out.toNat < 2 ^ (7 * i)) (bs : Bytes) :
    collect eof left i out bs =
      (getLeb128 eof left bs >>= fun x =>
        .ok (UInt64.ofNat (out.toNat + 2 ^ (7 * i) * x.1), x.2)) := by
  induction left generalizing i out bs with
  | zero => simp [collect, getLeb128]
  | succ left ih =>
      cases bs with
      | nil => rfl
      | cons octet rest =>
          have hor := toNat_or_octet hout (by omega) octet
          rw [collect_cons, getLeb128_cons]
          by_cases hlast : octet.toNat < 128
          · rw [if_pos hlast, if_pos hlast, Outcome.ok_bind]
            rw [Nat.mod_eq_of_lt hlast] at hor
            rw [← hor, UInt64.ofNat_toNat]
          · have hnext : (out ||| (lowBits octet).toUInt64 <<< UInt64.ofNat (7 * i)).toNat <
                2 ^ (7 * (i + 1)) := by
              have hlow : octet.toNat % 128 ≤ 127 := by omega
              have hmul := Nat.mul_le_mul_left (2 ^ (7 * i)) hlow
              rw [hor, Nat.mul_succ, Nat.pow_add]
              omega
            rw [if_neg hlast, if_neg hlast, ih (by omega) hnext, hor, Nat.mul_succ, Nat.pow_add]
            cases getLeb128 eof left rest with
            | error e => rfl
            | ok x =>
                simp only [Outcome.ok_bind]
                congr 3
                ring

theorem getLeb128_lt (eof : Nat → Nat → Error) (left : Nat) :
    Yields (· < 2 ^ (7 * left)) (getLeb128 eof left) := by
  induction left with
  | zero => exact Yields.pure (by decide)
  | succ left ih =>
      apply Yields.bind_any
      intro octet
      apply Yields.ite
      · intro hlast
        apply Yields.pure
        have hpow := Nat.one_le_two_pow (n := 7 * left)
        rw [Nat.mul_succ, Nat.pow_add]
        omega
      · intro _
        refine ih.bind fun high hhigh => Yields.pure ?_
        rw [Nat.mul_succ, Nat.pow_add]
        omega

/-- What the loop gives from the first octet on. -/
theorem collect_all (m : Mode) (bs : Bytes) :
    collect m.eofVarUint 9 0 0 bs =
      (Wire.getLeb128 m.eofVarUint 9 bs >>= fun x => .ok (UInt64.ofNat x.1, x.2)) := by
  rw [collect_eq m.eofVarUint (by decide) (by decide)]
  simp

end VarUint

/-! ## The functions -/

theorem ClickHouseWrite.writeVarUint_eq (value : UInt64) :
    ClickHouseWrite.writeVarUint value = ClickhouseArrow.writeVarUint value.toNat := by
  rw [ClickHouseWrite.writeVarUint, fill_eq, List.nil_append]
  rfl

theorem ClickHouseBytesWrite.putVarUint_eq (value : UInt64) :
    ClickHouseBytesWrite.putVarUint value = ClickhouseArrow.writeVarUint value.toNat := by
  rw [ClickHouseBytesWrite.putVarUint, fill_eq, List.nil_append]
  rfl

theorem ClickHouseRead.readVarUint_eq (bs : Bytes) :
    ClickHouseRead.readVarUint bs =
      (ClickhouseArrow.readVarUint .async bs >>= fun x => .ok (UInt64.ofNat x.1, x.2)) :=
  collect_all .async bs

/-- The octet outside the loop is the first one of the loop. -/
theorem ClickHouseBytesRead.tryGetVarUint_eq (bs : Bytes) :
    ClickHouseBytesRead.tryGetVarUint bs =
      (ClickhouseArrow.readVarUint .sync bs >>= fun x => .ok (UInt64.ofNat x.1, x.2)) := by
  have hunroll : ClickHouseBytesRead.tryGetVarUint bs =
      (getByte Mode.sync.eofVarUint bs >>= fun x =>
        (if continues x.1 then collect Mode.sync.eofVarUint 8 1 (lowBits x.1).toUInt64
          else pure (lowBits x.1).toUInt64) x.2) := rfl
  rw [hunroll, ClickhouseArrow.readVarUint, ← collect_all]
  cases bs with
  | nil => rw [collect_nil, getByte, Outcome.error_bind]
  | cons octet rest =>
      rw [collect_cons, getByte, Outcome.ok_bind]
      have hfirst : (0 : UInt64) ||| (lowBits octet).toUInt64 <<< UInt64.ofNat (7 * 0) =
          (lowBits octet).toUInt64 := by simp
      rw [hfirst, continues_eq]
      by_cases hlast : octet.toNat < 128
      · rw [if_neg (by simpa using hlast), if_pos hlast]
        rfl
      · rw [if_pos (by simpa using hlast), if_neg hlast]

/-- No number from `2 ^ 63` on is read, by either family. -/
theorem readVarUint_lt (m : Mode) : Yields (· < 2 ^ 63) (readVarUint m) :=
  getLeb128_lt m.eofVarUint 9

/-- Behind its length, a string is read alike over the number and over the word. -/
theorem readString_of_word (m : Mode) {code : Reader Error UInt64}
    (hcode : ∀ bs, code bs = (readVarUint m bs >>= fun x => .ok (UInt64.ofNat x.1, x.2)))
    (bs : Bytes) :
    (code >>= fun len =>
      if len.toNat > maxStringSize then Reader.fail (m.stringTooLarge len.toNat)
      else if len.toNat = 0 then pure []
      else Reader.takeExact m.eofString len.toNat) bs = readString m bs := by
  rw [Reader.bind_apply, hcode]
  show _ = (readVarUint m bs >>= _)
  cases hlen : readVarUint m bs with
  | error e => rfl
  | ok x =>
      have hlt := readVarUint_lt m bs x hlen
      have hword : (UInt64.ofNat x.1).toNat = x.1 := by
        rw [UInt64.toNat_ofNat']
        exact Nat.mod_eq_of_lt (by omega)
      simp only [Outcome.ok_bind, hword]

theorem ClickHouseRead.readString_eq :
    ClickHouseRead.readString = ClickhouseArrow.readString .async :=
  funext (readString_of_word .async ClickHouseRead.readVarUint_eq)

theorem ClickHouseBytesRead.tryGetString_eq :
    ClickHouseBytesRead.tryGetString = ClickhouseArrow.readString .sync :=
  funext (readString_of_word .sync ClickHouseBytesRead.tryGetVarUint_eq)

theorem ClickHouseWrite.writeString_eq {value : Bytes} (h : value.length ≤ maxStringSize) :
    ClickHouseWrite.writeString value = ClickhouseArrow.writeString value := by
  have hlt : value.length < 2 ^ 64 := Nat.lt_of_le_of_lt h (by decide)
  rw [ClickHouseWrite.writeString, ClickHouseWrite.writeVarUint_eq, UInt64.toNat_ofNat',
    Nat.mod_eq_of_lt hlt]
  rfl

/-! ## What the primitives keep -/

/-- A number is written alike by both writers, and each reader reads it back and leaves
what follows it. -/
structure RoundTrips (v : UInt64) : Prop where
  written : ClickHouseWrite.writeVarUint v = ClickHouseBytesWrite.putVarUint v
  read : Reads ClickHouseRead.readVarUint (ClickHouseWrite.writeVarUint v) v
  got : Reads ClickHouseBytesRead.tryGetVarUint (ClickHouseBytesWrite.putVarUint v) v

/-- A string is written alike by both writers, and each reader reads it back and leaves
what follows it. -/
structure StringRoundTrips (value : Bytes) : Prop where
  written : ClickHouseWrite.writeString value = ClickHouseBytesWrite.putString value
  read : Reads ClickHouseRead.readString (ClickHouseWrite.writeString value) value
  got : Reads ClickHouseBytesRead.tryGetString (ClickHouseBytesWrite.putString value) value

/-- The writers run the same loop. -/
theorem writeVarUint_eq_putVarUint (v : UInt64) :
    ClickHouseWrite.writeVarUint v = ClickHouseBytesWrite.putVarUint v := by
  rw [ClickHouseWrite.writeVarUint_eq, ClickHouseBytesWrite.putVarUint_eq]

/-- On any bytes, both readers give the same number and leave the same bytes, or both fail. -/
theorem readVarUint_iff_tryGetVarUint (bs : Bytes) (x : UInt64 × Bytes) :
    ClickHouseRead.readVarUint bs = .ok x ↔ ClickHouseBytesRead.tryGetVarUint bs = .ok x := by
  rw [ClickHouseRead.readVarUint_eq, ClickHouseBytesRead.tryGetVarUint_eq, Outcome.bind_eq_ok,
    Outcome.bind_eq_ok]
  simp only [readVarUint_simulates.eq_ok_iff]

theorem stringRoundTrips {value : Bytes} (h : value.length ≤ maxStringSize) :
    StringRoundTrips value := by
  have hwritten : ClickHouseWrite.writeString value = ClickHouseBytesWrite.putString value := by
    rw [ClickHouseWrite.writeString, writeVarUint_eq_putVarUint]
    rfl
  have hbytes := ClickHouseWrite.writeString_eq h
  refine ⟨hwritten, ?_, ?_⟩
  · rw [ClickHouseRead.readString_eq, hbytes]
    exact readString_reads .async value h
  · rw [ClickHouseBytesRead.tryGetString_eq, ← hwritten, hbytes]
    exact readString_reads .sync value h

/-- What is read is the number that the base-128 format of nine bytes gives. -/
theorem reads_of_lt {m : Mode} {code : Reader Error UInt64}
    (hcode : ∀ bs, code bs = (readVarUint m bs >>= fun x => .ok (UInt64.ofNat x.1, x.2)))
    {v : UInt64} (h : v.toNat < 2 ^ 63) : Reads code (writeVarUint v.toNat) v := by
  intro rest
  rw [hcode, readVarUint_reads m h rest, Outcome.ok_bind, UInt64.ofNat_toNat]

theorem roundTrips_of_lt {v : UInt64} (h : v.toNat < 2 ^ 63) : RoundTrips v := by
  refine ⟨writeVarUint_eq_putVarUint v, ?_, ?_⟩
  · rw [ClickHouseWrite.writeVarUint_eq]
    exact reads_of_lt ClickHouseRead.readVarUint_eq h
  · rw [ClickHouseBytesWrite.putVarUint_eq]
    exact reads_of_lt ClickHouseBytesRead.tryGetVarUint_eq h

theorem lt_of_roundTrips {v : UInt64} (h : RoundTrips v) : v.toNat < 2 ^ 63 := by
  have hread := h.read []
  rw [ClickHouseRead.readVarUint_eq] at hread
  obtain ⟨x, hx, hv⟩ := Outcome.bind_eq_ok.mp hread
  have hlt := readVarUint_lt .async _ x hx
  obtain rfl := (Prod.mk.inj (Except.ok.inj hv)).1
  rw [UInt64.toNat_ofNat', Nat.mod_eq_of_lt (by omega)]
  exact hlt

/-- **The primitives carry the numbers below `2 ^ 63`** and those only: nine octets of seven
bits have no place for the highest bit.  The strings that the readers allow are carried, and
the readers agree on every input. -/
theorem primitives_iff (v : UInt64) :
    (RoundTrips v ∧
      (∀ bs x, ClickHouseRead.readVarUint bs = .ok x ↔
        ClickHouseBytesRead.tryGetVarUint bs = .ok x) ∧
      ∀ value : Bytes, value.length ≤ maxStringSize → StringRoundTrips value) ↔
      v.toNat < 2 ^ 63 := by
  constructor
  · rintro ⟨h, -, -⟩
    exact lt_of_roundTrips h
  · intro h
    exact ⟨roundTrips_of_lt h, readVarUint_iff_tryGetVarUint, fun _ => stringRoundTrips⟩

/-- The highest bit alone: nine octets that announce another one, and zero is read. -/
theorem not_roundTrips_highest :
    ClickHouseRead.readVarUint (ClickHouseWrite.writeVarUint 0x8000000000000000) = .ok (0, []) ∧
      ClickHouseBytesRead.tryGetVarUint (ClickHouseBytesWrite.putVarUint 0x8000000000000000) =
        .ok (0, []) ∧
      ¬ RoundTrips 0x8000000000000000 := by
  have hread : ClickHouseRead.readVarUint (ClickHouseWrite.writeVarUint 0x8000000000000000) =
      .ok (0, []) := by rfl
  have hgot : ClickHouseBytesRead.tryGetVarUint
      (ClickHouseBytesWrite.putVarUint 0x8000000000000000) = .ok (0, []) := by rfl
  refine ⟨hread, hgot, fun h => ?_⟩
  have hback := h.read []
  rw [List.append_nil, hread] at hback
  cases hback

end ClickhouseArrow
