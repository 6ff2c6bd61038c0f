import ClickhouseArrow.Wire.Reader
import Mathlib.Algebra.Order.Ring.Nat
import Mathlib.Tactic.Ring

/-!
# Words on the wire

Little-endian words of a fixed width, and base-128 numbers of a bounded number of
bytes, each with its reader and the fact that the reader takes back exactly what
the writer put.
-/

namespace Wire

variable {ε : Type}

/-! ## Little-endian numbers -/

/-- The `n` low bytes of `x`, least significant first. -/
def leBytes : Nat → Nat → Bytes
  | 0, _ => []
  | n + 1, x => UInt8.ofNat x :: leBytes n (x / 256)

/-- The number whose bytes, least significant first, are given. -/
def ofLeBytes : Bytes → Nat
  | [] => 0
  | b :: bs => b.toNat + 256 * ofLeBytes bs

@[simp] theorem leBytes_length (n x : Nat) : (leBytes n x).length = n := by
  induction n generalizing x with
  | zero => rfl
  | succ n ih => simp [leBytes, ih]

theorem ofLeBytes_leBytes (n x : Nat) (hx : x < 256 ^ n) : ofLeBytes (leBytes n x) = x := by
  induction n generalizing x with
  | zero =>
      have hzero : x = 0 := by simpa using hx
      subst hzero
      rfl
  | succ n ih =>
      have hquot : x / 256 < 256 ^ n := by
        rw [Nat.div_lt_iff_lt_mul (by decide)]
        simpa [Nat.pow_succ] using hx
      rw [leBytes, ofLeBytes, ih _ hquot, UInt8.toNat_ofNat']
      omega

theorem ofLeBytes_lt (bs : Bytes) : ofLeBytes bs < 256 ^ bs.length := by
  induction bs with
  | nil => simp [ofLeBytes]
  | cons b bs ih =>
      have hb : b.toNat < 256 := b.toNat_lt
      rw [ofLeBytes, List.length_cons, Nat.pow_succ]
      omega

theorem ofLeBytes_append (bs cs : Bytes) :
    ofLeBytes (bs ++ cs) = ofLeBytes bs + 256 ^ bs.length * ofLeBytes cs := by
  induction bs with
  | nil => simp [ofLeBytes]
  | cons b bs ih =>
      rw [List.cons_append, ofLeBytes, ih, ofLeBytes, List.length_cons, Nat.pow_succ]
      ring

theorem leBytes_ofLeBytes (bs : Bytes) : leBytes bs.length (ofLeBytes bs) = bs := by
  induction bs with
  | nil => rfl
  | cons b bs ih =>
    have hb := b.toNat_lt
    have hdiv : (b.toNat + 256 * ofLeBytes bs) / 256 = ofLeBytes bs := by omega
    rw [List.length_cons, leBytes, ofLeBytes, hdiv, ih]
    congr 1
    rw [← UInt8.toNat_inj, UInt8.toNat_ofNat']
    omega

/-- Zeros at the end do not count. -/
theorem ofLeBytes_append_zeros (bs : Bytes) (n : Nat) :
    ofLeBytes (bs ++ List.replicate n 0) = ofLeBytes bs := by
  have hzeros : ofLeBytes (List.replicate n 0) = 0 := by
    induction n with
    | zero => rfl
    | succ n ih => simp [List.replicate_succ, ofLeBytes, ih]
  rw [ofLeBytes_append, hzeros, Nat.mul_zero, Nat.add_zero]

/-- A type whose values are the numbers below `256 ^ width`. -/
class Word (α : Type) where
  /-- The number of bytes of a value on the wire. -/
  width : Nat
  toNat : α → Nat
  ofNat : Nat → α
  toNat_lt : ∀ a, toNat a < 256 ^ width
  ofNat_toNat : ∀ a, ofNat (toNat a) = a

instance : Word UInt8 := ⟨1, UInt8.toNat, UInt8.ofNat, UInt8.toNat_lt, fun _ => UInt8.ofNat_toNat⟩

instance : Word UInt16 :=
  ⟨2, UInt16.toNat, UInt16.ofNat, UInt16.toNat_lt, fun _ => UInt16.ofNat_toNat⟩

instance : Word UInt32 :=
  ⟨4, UInt32.toNat, UInt32.ofNat, UInt32.toNat_lt, fun _ => UInt32.ofNat_toNat⟩

instance : Word UInt64 :=
  ⟨8, UInt64.toNat, UInt64.ofNat, UInt64.toNat_lt, fun _ => UInt64.ofNat_toNat⟩

instance : Word (BitVec 128) :=
  ⟨16, BitVec.toNat, BitVec.ofNat 128, BitVec.isLt, fun _ => by simp⟩

instance : Word Int8 :=
  ⟨1, fun a => a.toUInt8.toNat, fun n => (UInt8.ofNat n).toInt8, fun a => a.toUInt8.toNat_lt,
    fun _ => by simp⟩

instance : Word Int16 :=
  ⟨2, fun a => a.toUInt16.toNat, fun n => (UInt16.ofNat n).toInt16, fun a => a.toUInt16.toNat_lt,
    fun _ => by simp⟩

instance : Word Int32 :=
  ⟨4, fun a => a.toUInt32.toNat, fun n => (UInt32.ofNat n).toInt32, fun a => a.toUInt32.toNat_lt,
    fun _ => by simp⟩

instance : Word Int64 :=
  ⟨8, fun a => a.toUInt64.toNat, fun n => (UInt64.ofNat n).toInt64, fun a => a.toUInt64.toNat_lt,
    fun _ => by simp⟩

/-- Write a word, least significant byte first. -/
def putLe {α : Type} [Word α] (a : α) : Bytes := leBytes (Word.width α) (Word.toNat a)

/-- Read a word, least significant byte first. -/
def getLe (α : Type) [Word α] (eof : Nat → Nat → ε) : Reader ε α := do
  let bs ← Reader.takeExact eof (Word.width α)
  pure (Word.ofNat (ofLeBytes bs))

@[simp] theorem putLe_length {α : Type} [Word α] (a : α) :
    (putLe a).length = Word.width α := by
  simp [putLe]

theorem ofLeBytes_putLe {α : Type} [Word α] (a : α) : ofLeBytes (putLe a) = Word.toNat a :=
  ofLeBytes_leBytes _ _ (Word.toNat_lt a)

/-- Every number of its width is the number of a word. -/
def Full (α : Type) [Word α] : Prop :=
  ∀ n, n < 256 ^ Word.width α → Word.toNat (Word.ofNat n : α) = n

theorem Full.of_mod {α : Type} [Word α]
    (h : ∀ n, Word.toNat (Word.ofNat n : α) = n % 256 ^ Word.width α) : Full α :=
  fun n hn => (h n).trans (Nat.mod_eq_of_lt hn)

theorem full_uint8 : Full UInt8 := .of_mod fun _ => UInt8.toNat_ofNat'

theorem full_uint32 : Full UInt32 := .of_mod fun _ => UInt32.toNat_ofNat'

theorem full_uint64 : Full UInt64 := .of_mod fun _ => UInt64.toNat_ofNat'

theorem full_bitVec128 : Full (BitVec 128) := .of_mod fun n => BitVec.toNat_ofNat n 128

/-- Bytes are what is written of the word that they make. -/
theorem putLe_ofNat {α : Type} [Word α] (hfull : Full α) {bs : Bytes}
    (hlen : bs.length = Word.width α) : putLe (Word.ofNat (ofLeBytes bs) : α) = bs := by
  have hlt := ofLeBytes_lt bs
  rw [hlen] at hlt
  rw [putLe, hfull _ hlt, ← hlen, leBytes_ofLeBytes]

theorem Reads.getLe {α : Type} [Word α] (eof : Nat → Nat → ε) (a : α) :
    Reads (Wire.getLe α eof) (putLe a) a := by
  have htake : Reads (Reader.takeExact eof (Word.width α)) (putLe a) (putLe a) := by
    simpa using Reads.takeExact eof (putLe a)
  have hvalue : (Word.ofNat (ofLeBytes (putLe a)) : α) = a := by
    rw [putLe, ofLeBytes_leBytes _ _ (Word.toNat_lt a), Word.ofNat_toNat]
  exact htake.bind_nil (by simpa [hvalue] using Reads.pure a)

theorem Simulates.getLe {ζ : Type} (α : Type) [Word α] (eof : Nat → Nat → ε) (eof' : Nat → Nat → ζ) :
    Simulates (fun a b => a = b) (Wire.getLe α eof) (Wire.getLe α eof') :=
  (Simulates.takeExact eof eof' _).bind fun _ _ h => Simulates.pure (by rw [h])

theorem Consumes.getLe (α : Type) [Word α] (eof : Nat → Nat → ε) :
    Consumes (Word.width α) (fun _ => True) (Wire.getLe α eof) :=
  (Consumes.takeExact eof _).bind_any fun _ _ => Consumes.pure trivial

/-! ## Byte strings of a fixed length -/

/-- Exactly `n` bytes. -/
structure Octets (n : Nat) where
  bytes : Bytes
  length_eq : bytes.length = n
  deriving DecidableEq

namespace Octets

/-- The same bytes in the opposite order. -/
def reverse {n : Nat} (o : Octets n) : Octets n := ⟨o.bytes.reverse, by simp [o.length_eq]⟩

/-- All bytes zero. -/
def zero (n : Nat) : Octets n := ⟨List.replicate n 0, by simp⟩

@[simp] theorem reverse_reverse {n : Nat} (o : Octets n) : o.reverse.reverse = o := by
  cases o
  simp [reverse]

end Octets

/-- Read exactly `n` bytes. -/
def getOctets (eof : Nat → Nat → ε) (n : Nat) : Reader ε (Octets n) := fun bs =>
  if h : bs.length < n then .error (.error (eof n bs.length))
  else .ok (⟨bs.take n, by rw [List.length_take]; omega⟩, bs.drop n)

theorem Reads.getOctets (eof : Nat → Nat → ε) {n : Nat} (o : Octets n) :
    Reads (Wire.getOctets eof n) o.bytes o := by
  intro rest
  obtain ⟨bytes, rfl⟩ := o
  simp [Wire.getOctets]

theorem Simulates.getOctets {ζ : Type} (eof : Nat → Nat → ε) (eof' : Nat → Nat → ζ) (n : Nat) :
    Simulates (fun a b => a = b) (Wire.getOctets eof n) (Wire.getOctets eof' n) := by
  intro bs
  by_cases hshort : bs.length < n
  · simp [Wire.getOctets, hshort, Matching]
  · simp [Wire.getOctets, hshort, Matching]

theorem Consumes.getOctets (eof : Nat → Nat → ε) (n : Nat) :
    Consumes 0 (fun _ => True) (Wire.getOctets eof n) := by
  intro bs
  by_cases hshort : bs.length < n
  · simp [Wire.getOctets, hshort]
  · simp only [Wire.getOctets, hshort, dite_false, ne_eq, reduceCtorEq, not_false_eq_true, true_and]
    intro a rest hok
    obtain ⟨-, rfl⟩ := Prod.mk.inj (Except.ok.inj hok)
    simp

/-! ## Base-128 numbers -/

/-- Seven bits a byte, least significant first, every byte but the last with its high
bit set; at most `m` bytes, further bits are dropped. -/
def leb128 : Nat → Nat → Bytes
  | 0, _ => []
  | m + 1, x =>
      if x / 128 = 0 then [UInt8.ofNat (x % 128)]
      else UInt8.ofNat (x % 128 + 128) :: leb128 m (x / 128)

/-- One byte. -/
def getByte (eof : Nat → Nat → ε) : Reader ε UInt8 := fun bs =>
  match bs with
  | [] => .error (.error (eof 1 0))
  | b :: rest => .ok (b, rest)

/-- Read a base-128 number of at most `m` bytes. -/
def getLeb128 (eof : Nat → Nat → ε) : Nat → Reader ε Nat
  | 0 => pure 0
  | m + 1 => do
      let b ← getByte eof
      if b.toNat < 128 then pure b.toNat
      else do
        let high ← getLeb128 eof m
        pure (b.toNat % 128 + 128 * high)

theorem Reads.getByte (eof : Nat → Nat → ε) (b : UInt8) : Reads (Wire.getByte eof) [b] b := fun _ => rfl

theorem Simulates.getByte {ζ : Type} (eof : Nat → Nat → ε) (eof' : Nat → Nat → ζ) :
    Simulates (fun a b => a = b) (Wire.getByte eof) (Wire.getByte eof') := by
  intro bs
  cases bs with
  | nil => trivial
  | cons b rest => exact ⟨rfl, rfl⟩

theorem leb128_ne_nil (m x : Nat) : leb128 (m + 1) x ≠ [] := by
  rw [leb128]
  split <;> simp

/-- A number that fits is read back. -/
theorem Reads.getLeb128 (eof : Nat → Nat → ε) {m x : Nat} (hx : x < 128 ^ m) :
    Reads (Wire.getLeb128 eof m) (leb128 m x) x := by
  induction m generalizing x with
  | zero =>
      have hzero : x = 0 := by simpa using hx
      subst hzero
      exact Reads.pure 0
  | succ m ih =>
      have hhead := Reads.getByte eof
      rw [leb128]
      by_cases hlast : x / 128 = 0
      · rw [if_pos hlast]
        have hbyte : (UInt8.ofNat (x % 128)).toNat = x := by
          rw [UInt8.toNat_ofNat']
          omega
        refine (hhead (UInt8.ofNat (x % 128))).bind_nil ?_
        rw [hbyte, if_pos (by omega)]
        exact Reads.pure x
      · rw [if_neg hlast]
        have hbyte : (UInt8.ofNat (x % 128 + 128)).toNat = x % 128 + 128 := by
          rw [UInt8.toNat_ofNat']
          omega
        have hquot : x / 128 < 128 ^ m := by
          rw [Nat.div_lt_iff_lt_mul (by decide)]
          simpa [Nat.pow_succ] using hx
        refine Reads.bind (s := [_]) (hhead (UInt8.ofNat (x % 128 + 128))) ?_
        rw [hbyte, if_neg (by omega)]
        refine (ih hquot).bind_nil ?_
        have hvalue : (x % 128 + 128) % 128 + 128 * (x / 128) = x := by omega
        rw [hvalue]
        exact Reads.pure x

theorem Simulates.getLeb128 {ζ : Type} (eof : Nat → Nat → ε) (eof' : Nat → Nat → ζ) (m : Nat) :
    Simulates (fun a b => a = b) (Wire.getLeb128 eof m) (Wire.getLeb128 eof' m) := by
  induction m with
  | zero => exact Simulates.pure rfl
  | succ m ih =>
      refine (Simulates.getByte eof eof').bind ?_
      rintro b _ rfl
      by_cases hlast : b.toNat < 128
      · simp only [hlast, if_true]
        exact Simulates.pure rfl
      · simp only [hlast, if_false]
        refine ih.bind ?_
        rintro high _ rfl
        exact Simulates.pure rfl

theorem Consumes.getLeb128 (eof : Nat → Nat → ε) (m : Nat) :
    Consumes 0 (fun _ => True) (Wire.getLeb128 eof m) := by
  have hbyte : Consumes 0 (fun _ => True) (Wire.getByte eof) := by
    intro bs
    cases bs with
    | nil => simp [Wire.getByte]
    | cons b rest => simp [Wire.getByte]
  induction m with
  | zero => exact Consumes.pure trivial
  | succ m ih =>
      refine hbyte.bind_any fun b _ => Consumes.ite (fun _ => Consumes.pure trivial) fun _ => ?_
      exact ih.bind_any fun _ _ => Consumes.pure trivial

/-- The two halves of a 128-bit word make the word. -/
theorem halves128 (x : BitVec 128) :
    BitVec.ofNat 128 (((UInt64.ofNat (x.toNat >>> 64)).toNat <<< 64) |||
      (UInt64.ofNat x.toNat).toNat) = x := by
  have hx : x.toNat < 2 ^ 128 := x.isLt
  have hhigh : (UInt64.ofNat (x.toNat >>> 64)).toNat = x.toNat / 2 ^ 64 := by
    rw [UInt64.toNat_ofNat', Nat.shiftRight_eq_div_pow]
    omega
  have hlow : (UInt64.ofNat x.toNat).toNat = x.toNat % 2 ^ 64 := UInt64.toNat_ofNat'
  rw [hhigh, hlow, Nat.shiftLeft_eq, Nat.mul_comm,
    ← Nat.two_pow_add_eq_or_of_lt (Nat.mod_lt _ (by decide)), Nat.div_add_mod]
  simp

end Wire
