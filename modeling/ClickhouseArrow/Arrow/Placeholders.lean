import ClickhouseArrow.Arrow.SerializeSync
import ClickhouseArrow.Native.Entries

/-!
# Default placeholders

`write_default` and `put_default` write what stands for a null in a dictionary.  Whatever
they write is zeros, so the question whether the column reader takes them as one row is the
question how many zeros it takes.  It takes more than there are for every type whose default
is not laid out as a row of it: lists and maps, dictionaries, nullable fields of a tuple, and
times whose precision is not eight.
-/

namespace ClickhouseArrow

open Wire

/-! ## Readers on zeros -/

section Zeros

variable {α β : Type}

def zeros (n : Nat) : Bytes := List.replicate n 0

theorem zeros_append (m n : Nat) : zeros m ++ zeros n = zeros (m + n) := List.replicate_append_replicate

@[simp] theorem length_zeros (n : Nat) : (zeros n).length = n := List.length_replicate

/-- From zeros, the reader takes at least `k` of them when it returns, and its value is one
of `Q`. -/
def TakesZeros (k : Nat) (Q : α → Prop) (p : Reader Error α) : Prop :=
  ∀ n a rest, p (zeros n) = .ok (a, rest) → (∃ r, rest = zeros r ∧ r + k ≤ n) ∧ Q a

/-- From zeros, the reader takes exactly `k` of them and returns `a`; it does not return where
there are fewer. -/
def TakesExactly (k : Nat) (a : α) (p : Reader Error α) : Prop :=
  TakesZeros k (fun _ => True) p ∧ ∀ n, p (zeros (k + n)) = .ok (a, zeros n)

theorem TakesZeros.pure {Q : α → Prop} {a : α} (h : Q a) :
    TakesZeros 0 Q (Pure.pure a : Reader Error α) := by
  intro n b rest hread
  obtain ⟨rfl, rfl⟩ := Prod.mk.inj (Except.ok.inj hread)
  exact ⟨⟨n, rfl, Nat.le_refl n⟩, h⟩

theorem TakesZeros.fail (k : Nat) (Q : α → Prop) (e : Error) :
    TakesZeros k Q (Reader.fail e : Reader Error α) := by
  intro n a rest hread
  cases hread

theorem TakesZeros.panic (k : Nat) (Q : α → Prop) (p : Panic) :
    TakesZeros k Q (Reader.panic p : Reader Error α) := by
  intro n a rest hread
  cases hread

theorem TakesZeros.bind {k j : Nat} {Q : α → Prop} {T : β → Prop} {p : Reader Error α}
    {f : α → Reader Error β} (hp : TakesZeros k Q p) (hf : ∀ a, Q a → TakesZeros j T (f a)) :
    TakesZeros (k + j) T (p >>= f) := by
  intro n b rest hread
  obtain ⟨a, mid, ha, hb⟩ := Reader.bind_eq_ok.mp hread
  obtain ⟨⟨r, rfl, hr⟩, hQ⟩ := hp n a mid ha
  obtain ⟨⟨r', rfl, hr'⟩, hT⟩ := hf a hQ r b rest hb
  exact ⟨⟨r', rfl, by omega⟩, hT⟩

theorem TakesZeros.mono {k j : Nat} {Q T : α → Prop} {p : Reader Error α} (h : TakesZeros k Q p)
    (hle : j ≤ k) (hQ : ∀ a, Q a → T a) : TakesZeros j T p := by
  intro n a rest hread
  obtain ⟨⟨r, rfl, hr⟩, ha⟩ := h n a rest hread
  exact ⟨⟨r, rfl, by omega⟩, hQ a ha⟩

theorem TakesZeros.ofOutcome (o : Outcome Error α) :
    TakesZeros 0 (fun _ => True) (Reader.ofOutcome o) := by
  cases o with
  | error e =>
      intro n a rest hread
      cases hread
  | ok a => exact TakesZeros.pure trivial

theorem TakesZeros.ite {k : Nat} {Q : α → Prop} {c : Prop} [Decidable c] {p q : Reader Error α}
    (hp : c → TakesZeros k Q p) (hq : ¬ c → TakesZeros k Q q) :
    TakesZeros k Q (if c then p else q) := by
  split_ifs with hc
  · exact hp hc
  · exact hq hc

theorem TakesExactly.pure (a : α) : TakesExactly 0 a (Pure.pure a : Reader Error α) :=
  ⟨TakesZeros.pure trivial, fun n => by rw [Nat.zero_add]; rfl⟩

theorem TakesExactly.bind {k j : Nat} {a : α} {b : β} {p : Reader Error α} {f : α → Reader Error β}
    (hp : TakesExactly k a p) (hf : TakesExactly j b (f a)) : TakesExactly (k + j) b (p >>= f) := by
  refine ⟨fun n c rest hread => ?_, fun n => ?_⟩
  · obtain ⟨a', mid, ha, hb⟩ := Reader.bind_eq_ok.mp hread
    obtain ⟨⟨r, rfl, hr⟩, -⟩ := hp.1 n a' mid ha
    obtain ⟨m, rfl⟩ : ∃ m, n = k + m := ⟨n - k, by omega⟩
    have hvalue := hp.2 m
    rw [ha] at hvalue
    obtain ⟨rfl, hmid⟩ := Prod.mk.inj (Except.ok.inj hvalue)
    obtain ⟨⟨r', rfl, hr'⟩, -⟩ := hf.1 r c rest hb
    exact ⟨⟨r', rfl, by omega⟩, trivial⟩
  · rw [Reader.bind_apply, Nat.add_assoc, hp.2, Outcome.ok_bind]
    exact hf.2 n

theorem TakesExactly.map {k : Nat} {a : α} {p : Reader Error α} (f : α → β)
    (hp : TakesExactly k a p) : TakesExactly k (f a) (f <$> p) := by
  have hbind := hp.bind (f := fun a => Pure.pure (f a)) (TakesExactly.pure (f a))
  exact hbind

theorem TakesExactly.takeExact (eof : Nat → Nat → Error) (k : Nat) :
    TakesExactly k (zeros k) (Reader.takeExact eof k) := by
  refine ⟨fun n a rest hread => ?_, fun n => ?_⟩
  · rw [Reader.takeExact] at hread
    split_ifs at hread with hshort
    obtain ⟨rfl, rfl⟩ := Prod.mk.inj (Except.ok.inj hread)
    rw [length_zeros] at hshort
    exact ⟨⟨n - k, List.drop_replicate, by omega⟩, trivial⟩
  · rw [Reader.takeExact, if_neg (by simp), ← zeros_append]
    simp

theorem TakesExactly.getLe (α : Type) [Word α] (eof : Nat → Nat → Error) :
    TakesExactly (Word.width α) (Word.ofNat 0 : α) (Wire.getLe α eof) := by
  have hzero : ∀ k, ofLeBytes (zeros k) = 0 := by
    intro k
    exact ofLeBytes_append_zeros [] k
  have hword := (TakesExactly.takeExact eof (Word.width α)).map fun bs => (Word.ofNat (ofLeBytes bs) : α)
  rw [hzero] at hword
  exact hword

theorem TakesExactly.getOctets (eof : Nat → Nat → Error) (k : Nat) :
    TakesExactly k (⟨zeros k, length_zeros k⟩ : Octets k) (Wire.getOctets eof k) := by
  refine ⟨fun n a rest hread => ?_, fun n => ?_⟩
  · rw [Wire.getOctets] at hread
    split_ifs at hread with hshort
    obtain ⟨-, rfl⟩ := Prod.mk.inj (Except.ok.inj hread)
    rw [length_zeros] at hshort
    exact ⟨⟨n - k, List.drop_replicate, by omega⟩, trivial⟩
  · have hread := Reads.getOctets eof (⟨zeros k, length_zeros k⟩ : Octets k) (zeros n)
    rw [zeros_append] at hread
    exact hread

theorem TakesExactly.takes {k : Nat} {a : α} {p : Reader Error α} (h : TakesExactly k a p) :
    TakesZeros k (· = a) p := by
  intro n b rest hread
  obtain ⟨⟨r, rfl, hr⟩, -⟩ := h.1 n b rest hread
  obtain ⟨m, rfl⟩ : ∃ m, n = k + m := ⟨n - k, by omega⟩
  rw [h.2 m] at hread
  exact ⟨⟨r, rfl, hr⟩, (Prod.mk.inj (Except.ok.inj hread)).1.symm⟩

/-- One row of a reader of entries. -/
theorem TakesExactly.one {k : Nat} {a : α} {p : Reader Error α} (h : TakesExactly k a p) :
    TakesExactly k [a] (Reader.readMany p 1) := by
  have hrest : TakesExactly 0 [a] ((Reader.readMany p 0) >>= fun as => Pure.pure (a :: as)) :=
    TakesExactly.pure [a]
  exact h.bind (f := fun a => Reader.readMany p 0 >>= fun as => Pure.pure (a :: as)) hrest

/-- No row of a reader of entries that takes no entry from zeros. -/
theorem TakesZeros.none_of {k : Nat} {Q : List α → Prop} {p : Reader Error α}
    (h : TakesZeros k (fun _ => False) p) : TakesZeros k Q (Reader.readMany p 1) := by
  show TakesZeros k Q (p >>= _)
  exact h.bind (j := 0) fun _ hnone => hnone.elim

end Zeros

/-! ## Entries -/

namespace ChType

/-- The index zero is declared. -/
def hasZero {ι : Type} [DecidableEq ι] (zero : ι) (pairs : List (String × ι)) : Bool :=
  pairs.any fun p => p.2 = zero

/-- One row of the type is laid out as its default. -/
def readsDefault : ChType → Bool
  | .dateTime64 precision _ => precision == 8
  | .enum8 pairs => hasZero 0 pairs
  | .enum16 pairs => hasZero 0 pairs
  | .array _ | .map _ _ | .lowCardinality _ | .nullable _ => false
  | .tuple items => readsDefaults items
  | _ => true
where
  readsDefaults : List ChType → Bool
    | [] => true
    | t :: ts => t.readsDefault && readsDefaults ts

/-- A default is written for the type. -/
def hasDefault (isNull : Bool) : ChType → Bool
  | .fixedSizedString n | .fixedSizedBinary n => n ≤ isizeMax
  | .dateTime64 precision _ => precision ≤ 8
  | .point | .ring | .polygon | .multiPolygon | .object => false
  | .lowCardinality inner => inner.hasDefault false
  | .tuple items => hasDefaults items
  | .nullable inner => !isNull && inner.hasDefault true
  | _ => true
where
  hasDefaults : List ChType → Bool
    | [] => true
    | t :: ts => t.hasDefault false && hasDefaults ts

/-- Behind fields that have defaults stands a time whose precision exceeds the eight bytes of
a zero, or a string that exceeds every allocation. -/
def breaksDefault (isNull : Bool) : ChType → Bool
  | .fixedSizedString n | .fixedSizedBinary n => isizeMax < n
  | .dateTime64 precision _ => 8 < precision
  | .lowCardinality inner => inner.breaksDefault false
  | .tuple items => breaksDefaults items
  | .nullable inner => !isNull && inner.breaksDefault true
  | _ => false
where
  breaksDefaults : List ChType → Bool
    | [] => false
    | t :: ts => t.breaksDefault false || t.hasDefault false && breaksDefaults ts

end ChType

namespace Arrow

open ChType

/-- What is written: zeros where there is a default, a panic where a parameter is out of range,
and an error otherwise. -/
inductive DefaultEnd (has breaks : Bool) : ArrowResult Bytes → Prop
  | written (n : Nat) (hhas : has = true) (hbreaks : breaks = false) :
      DefaultEnd has breaks (.ok (zeros n))
  | refused (e : ArrowError) (hhas : has = false) (hbreaks : breaks = false) :
      DefaultEnd has breaks (.fail e)
  | panics (p : Panic) (hhas : has = false) (hbreaks : breaks = true) :
      DefaultEnd has breaks (.panic p)

theorem zeroed_end (n : Nat) :
    DefaultEnd (decide (n ≤ isizeMax)) (decide (isizeMax < n)) (zeroed n) := by
  unfold zeroed
  split_ifs with h
  · exact .panics _ (by simpa using h) (by simpa using h)
  · exact .written n (by simpa using h) (by simpa using h)

theorem zeroWord_end (n : Nat) :
    DefaultEnd (decide (n ≤ 8)) (decide (8 < n)) (zeroWord n) := by
  unfold zeroWord
  split_ifs with h
  · exact .written n (by simpa using h) (by simpa using h)
  · exact .panics _ (by simpa using h) (by simpa using h)

theorem DefaultEnd.tuple {ts : List ChType}
    (h : ∀ t ∈ ts, DefaultEnd (t.hasDefault false) (t.breaksDefault false) (writeDefaultOf false t)) :
    DefaultEnd (hasDefault.hasDefaults ts) (breaksDefault.breaksDefaults ts) (writeDefaults ts) := by
  induction ts with
  | nil => exact .written 0 rfl rfl
  | cons t ts ih =>
      have hrest := ih fun u hu => h u (List.mem_cons_of_mem t hu)
      rw [hasDefault.hasDefaults, breaksDefault.breaksDefaults, writeDefaults]
      revert hrest
      have ht := h t List.mem_cons_self
      revert ht
      generalize writeDefaultOf false t = first
      generalize writeDefaults ts = rest
      intro ht hrest
      cases ht with
      | written n hhas hbreaks =>
          rw [hhas, hbreaks]
          cases hrest with
          | written m hhas hbreaks =>
              rw [hhas, hbreaks, Outcome.ok_bind, Outcome.ok_bind, zeros_append]
              exact .written _ rfl rfl
          | refused e hhas hbreaks =>
              rw [hhas, hbreaks]
              exact .refused e rfl rfl
          | panics p hhas hbreaks =>
              rw [hhas, hbreaks]
              exact .panics p rfl rfl
      | refused e hhas hbreaks =>
          rw [hhas, hbreaks]
          exact .refused e rfl rfl
      | panics p hhas hbreaks =>
          rw [hhas, hbreaks]
          exact .panics p rfl rfl

/-- **What `write_default` writes.** -/
theorem writeDefaultOf_end (isNull : Bool) (t : ChType) :
    DefaultEnd (t.hasDefault isNull) (t.breaksDefault isNull) (writeDefaultOf isNull t) := by
  induction t using inductionOn generalizing isNull with
  | hleaf t hflat =>
      cases t with
      | nullable | lowCardinality | array | tuple | map => cases hflat
      | fixedSizedString n | fixedSizedBinary n => exact zeroed_end n
      | dateTime64 precision tz => exact zeroWord_end precision
      | point | ring | polygon | multiPolygon | object => exact .refused _ rfl rfl
      | string | binary | int8 | enum8 pairs | uint8 => exact .written 1 rfl rfl
      | int16 | enum16 pairs | uint16 | date => exact .written 2 rfl rfl
      | int32 | date32 | decimal32 s | uint32 | ipv4 | dateTime tz | float32 =>
          exact .written 4 rfl rfl
      | int64 | decimal64 s | uint64 | float64 => exact .written 8 rfl rfl
      | int128 | uint128 | uuid | ipv6 | decimal128 s => exact .written 16 rfl rfl
      | int256 | uint256 | decimal256 s => exact .written 32 rfl rfl
  | hnullable inner ih =>
      rw [hasDefault, breaksDefault, writeDefaultOf]
      cases isNull with
      | true => exact .refused _ rfl rfl
      | false => exact ih true
  | hlowCardinality inner _ ih => exact ih false
  | harray inner _ => exact .written 1 rfl rfl
  | htuple items ih => exact DefaultEnd.tuple fun t ht => ih t ht false
  | hmap key value _ _ => exact .written 1 rfl rfl

/-! ## One row of zeros -/

/-- The column reader takes at least as many zeros as the default has, and more unless a row
of the type is laid out as its default; where it is, the reader takes the default as one row. -/
structure Placeholder (t : ChType) (n : Nat) : Prop where
  takes : TakesZeros (n + if t.readsDefault then 0 else 1) (fun _ => True) (t.readColumn .async 1)
  exact_of : t.readsDefault = true → ∃ v, TakesExactly n [v] (t.readColumn .async 1)

theorem guardRows_one (column : Reader Error (List Value)) : guardRows 1 column = column :=
  if_neg (by decide)

theorem Placeholder.of_exactly {t : ChType} {n : Nat} {v : Value} (h : t.readsDefault = true)
    (hread : TakesExactly n [v] (t.readColumn .async 1)) : Placeholder t n where
  takes := by
    rw [if_pos h]
    exact hread.1
  exact_of := fun _ => ⟨v, hread⟩

theorem Placeholder.of_takes {t : ChType} {n : Nat} (h : t.readsDefault = false)
    (hread : TakesZeros (n + 1) (fun _ => True) (t.readColumn .async 1)) : Placeholder t n where
  takes := by
    rw [h]
    exact hread
  exact_of := fun h' => absurd (h.symm.trans h') (by decide)

theorem Placeholder.of_entry {t : ChType} {n : Nat} {v : Value} (h : t.readsDefault = true)
    (hentry : t.isEntry = true) (hread : TakesExactly n v (t.readEntry .async)) :
    Placeholder t n := by
  refine .of_exactly (v := v) h ?_
  rw [readColumn_entry .async hentry, guardRows_one]
  exact hread.one

theorem readTuples_none {items : List ChType}
    (h : ∀ t ∈ items, ∀ bs, t.readColumn .async 0 bs = .ok ([], bs)) (bs : Bytes) :
    readTuples .async items 0 [] bs = .ok ([], bs) := by
  induction items with
  | nil => rfl
  | cons t items ih =>
      rw [readTuples, Reader.bind_apply, h t List.mem_cons_self, Outcome.ok_bind]
      exact ih fun u hu => h u (List.mem_cons_of_mem t hu)

/-- Without rows, nothing is read. -/
theorem readColumn_none (t : ChType) (bs : Bytes) : t.readColumn .async 0 bs = .ok ([], bs) := by
  induction t using inductionOn generalizing bs with
  | hleaf t hflat =>
      cases t with
      | nullable | lowCardinality | array | tuple | map => cases hflat
      | _ => rfl
  | hnullable inner ih =>
      rw [readColumn, guardRows, if_neg (by decide), NullableDeserializer.read, Reader.bind_apply,
        Reader.takeExact, if_neg (Nat.not_lt_zero _), Outcome.ok_bind]
      show (inner.readColumn .async 0 >>= _) bs = _
      rw [Reader.bind_apply, ih, Outcome.ok_bind]
      rfl
  | hlowCardinality inner _ _ =>
      rw [readColumn_lowCardinality]
      rfl
  | harray inner _ => rfl
  | htuple items ih =>
      rw [readColumn, guardRows, if_neg (by decide)]
      show (readTuples .async items 0 [] >>= _) bs = _
      rw [Reader.bind_apply, readTuples_none fun t ht bs => ih t ht bs, Outcome.ok_bind]
      rfl
  | hmap key value _ _ => rfl

theorem takesExactly_none (t : ChType) : TakesExactly 0 [] (t.readColumn .async 0) := by
  refine ⟨fun n a rest hread => ?_, fun n => ?_⟩
  · rw [readColumn_none] at hread
    obtain ⟨-, rfl⟩ := Prod.mk.inj (Except.ok.inj hread)
    exact ⟨⟨n, rfl, Nat.le_refl n⟩, trivial⟩
  · rw [Nat.zero_add, readColumn_none]

theorem takesExactly_usize (m : Mode) : TakesExactly 8 0 (getUsize m) :=
  (TakesExactly.getLe UInt64 m.eof).map UInt64.toNat

/-- The end of one list, and the items that there are not. -/
theorem takesZeros_list (inner : ChType) : TakesZeros 8 (fun _ => True)
    ((ChType.array inner).readColumn .async 1) := by
  rw [readColumn, guardRows_one]
  show TakesZeros 8 _ (Reader.readMany (getUsize .async) 1 >>= _)
  apply (takesExactly_usize .async).one.takes.bind (j := 0)
  rintro _ rfl
  exact (takesExactly_none inner).takes.bind fun _ _ => TakesZeros.ofOutcome _

theorem takesZeros_map (key value : ChType) : TakesZeros 8 (fun _ => True)
    ((ChType.map key value).readColumn .async 1) := by
  rw [readColumn, guardRows_one]
  show TakesZeros 8 _ (Reader.readMany (getUsize .async) 1 >>= _)
  apply (takesExactly_usize .async).one.takes.bind (j := 0)
  rintro _ rfl
  apply (takesExactly_none key).takes.bind (j := 0)
  rintro _ rfl
  apply (takesExactly_none value).takes.bind (j := 0)
  rintro _ rfl
  exact TakesZeros.ite (fun _ => TakesZeros.panic _ _ _) fun _ => TakesZeros.ofOutcome _

section LowCardinality

open LowCardinalityDeserializer

variable {isNullable : Bool} {inner : Nat → Reader Error (List Value)}

/-- Zeros announce neither a dictionary nor rows. -/
theorem readHeader_zeros {s : State} :
    TakesZeros 0 (fun s' => s'.limit = s.limit ∧ s'.numPendingRows = 0) (readHeader inner s) := by
  have hword := (takesExactly_usize .async).takes.mono (Nat.zero_le 8) fun _ h => h
  apply hword.bind (j := 0)
  rintro _ rfl
  show TakesZeros 0 _ (Pure.pure s.globalDictionary >>= _)
  apply (TakesZeros.pure (Q := fun _ => True) trivial).bind (j := 0)
  intro globalDictionary _
  show TakesZeros 0 _ (Pure.pure s.additionalKeys >>= _)
  apply (TakesZeros.pure (Q := fun _ => True) trivial).bind (j := 0)
  intro additionalKeys _
  apply hword.bind (j := 0)
  rintro _ rfl
  exact TakesZeros.pure ⟨rfl, rfl⟩

/-- A turn on zeros leaves the rows that are wanted. -/
theorem turn_zeros {s : State} (hpending : s.numPendingRows = 0) :
    TakesZeros 0 (fun s' => s'.limit = s.limit ∧ s'.numPendingRows = 0)
      (turn isNullable inner s) := by
  rw [turn, if_pos hpending]
  apply readHeader_zeros.bind (j := 0)
  rintro s' ⟨hlimit, hpending'⟩
  have hnone : min s'.limit s'.numPendingRows = 0 := by
    rw [hpending', Nat.min_zero]
  simp only [hnone]
  apply (TakesZeros.pure (Q := fun _ => True) trivial).bind (j := 0)
  intro entries _
  apply (TakesZeros.ofOutcome _).bind (j := 0)
  intro values _
  exact TakesZeros.pure ⟨by simpa using hlimit, by simpa using hpending'⟩

/-- So the reader asks for blocks until there are no bytes left. -/
theorem loop_zeros (fuel n : Nat) {s : State} (hlimit : s.limit = 1) (hpending : s.numPendingRows = 0)
    (x : List Value × Bytes) : loop isNullable inner fuel s (zeros n) ≠ .ok x := by
  induction fuel generalizing n s with
  | zero =>
      intro h
      cases h
  | succ fuel ih =>
      rw [loop, if_neg (by omega)]
      intro h
      obtain ⟨s', rest, hturn, hloop⟩ := Reader.bind_eq_ok.mp h
      obtain ⟨⟨r, rfl, -⟩, hlimit', hpending'⟩ := turn_zeros hpending n s' rest hturn
      exact ih r (hlimit'.trans hlimit) hpending' hloop

theorem takesZeros_lowCardinality (k : Nat) (inner : ChType) : TakesZeros k (fun _ => True)
    ((ChType.lowCardinality inner).readColumn .async 1) := by
  rw [readColumn_lowCardinality, guardRows_one]
  intro n a rest hread
  exact absurd hread (loop_zeros _ n rfl rfl _)

end LowCardinality

/-! ## Which placeholders are one value -/

/-- A string of length zero. -/
theorem takesExactly_string (m : Mode) : TakesExactly 1 [] (readString m) := by
  refine ⟨fun n a rest hread => ?_, fun n => ?_⟩
  · cases n with
    | zero => cases hread
    | succ n =>
        have hempty : readString m (zeros (n + 1)) = .ok ([], zeros n) := rfl
        rw [hempty] at hread
        obtain ⟨-, rfl⟩ := Prod.mk.inj (Except.ok.inj hread)
        exact ⟨⟨n, rfl, Nat.le_refl _⟩, trivial⟩
  · rw [Nat.add_comm]
    rfl

theorem takesExactly_fixed (m : Mode) {n : Nat} (h : n ≤ isizeMax) :
    TakesExactly n (.string ((zeros n).takeWhile (· ≠ 0))) (StringDeserializer.readFixed m n) := by
  rw [StringDeserializer.readFixed, if_neg (Nat.not_lt.mpr h)]
  exact (TakesExactly.takeExact m.eof n).map fun buf => Value.string (buf.takeWhile (· ≠ 0))

theorem takesExactly_read256 (m : Mode) : TakesExactly 32 (Octets.reverse ⟨zeros 32, length_zeros 32⟩)
    (SizedDeserializer.read256 m) :=
  (TakesExactly.getOctets m.eof 32).map Octets.reverse

/-- The index zero of an enum is read where it is declared, and nowhere else. -/
theorem placeholder_index {ι : Type} [Word ι] [DecidableEq ι] {t : ChType}
    {pairs : List (String × ι)} {found : String → ι → Value} {refused : ι → Error}
    (hread : t.readEntry .async = SizedDeserializer.readIndex .async pairs found refused)
    (hentry : t.isEntry = true) (hdefault : t.readsDefault = hasZero (Word.ofNat 0) pairs) :
    Placeholder t (Word.width ι) := by
  have hindex := TakesExactly.getLe ι Mode.async.eof
  have hdeclared : (SizedDeserializer.lookup pairs (Word.ofNat 0)).isSome = t.readsDefault :=
    (SizedDeserializer.isSome_lookup pairs _).trans hdefault.symm
  cases hlookup : SizedDeserializer.lookup pairs (Word.ofNat 0 : ι) with
  | some label =>
      have hsome := hdeclared.symm.trans (congrArg Option.isSome hlookup)
      refine .of_entry (v := found label (Word.ofNat 0)) hsome hentry ?_
      rw [hread]
      apply hindex.bind (j := 0)
      rw [hlookup]
      exact TakesExactly.pure _
  | none =>
      have hnone := hdeclared.symm.trans (congrArg Option.isSome hlookup)
      refine .of_takes hnone ?_
      rw [readColumn_entry .async hentry, guardRows_one, hread]
      apply TakesZeros.none_of
      apply hindex.takes.bind (j := 1)
      rintro _ rfl
      rw [hlookup]
      exact TakesZeros.fail _ _ _

/-- A field of two words, the higher one first. -/
theorem takesExactly_uuid (m : Mode) :
    TakesExactly 16 (.uuid 0) (SizedDeserializer.readEntry m .uuid) := by
  have hword := TakesExactly.getLe UInt64 m.eof
  show TakesExactly (8 + (8 + 0)) _ (getLe UInt64 m.eof >>= _)
  apply hword.bind
  apply hword.bind
  exact TakesExactly.pure _

/-- Ticks take eight bytes, whatever the precision is. -/
theorem placeholder_dateTime64 {precision : Nat} (tz : Tz) (h : precision ≤ 8) :
    Placeholder (.dateTime64 precision tz) precision := by
  have hticks := (TakesExactly.getLe UInt64 Mode.async.eof).map fun ticks =>
    Value.dateTime64 tz ticks precision
  rcases Nat.lt_or_eq_of_le h with hlt | rfl
  · refine .of_takes (beq_eq_false_iff_ne.mpr (Nat.ne_of_lt hlt)) ?_
    rw [readColumn_entry .async rfl, guardRows_one]
    exact hticks.one.1.mono hlt fun _ _ => trivial
  · exact .of_entry rfl rfl hticks

/-! ## Nesting -/

/-- A mask of one byte before the row. -/
theorem Placeholder.nullable {inner : ChType} {n : Nat} (h : Placeholder inner n) :
    Placeholder (.nullable inner) n := by
  refine .of_takes rfl ?_
  rw [readColumn, guardRows_one]
  have hmask := (TakesExactly.takeExact Mode.async.eof 1).1
  have hrow := h.takes.mono (Nat.le_add_right n _) fun _ h => h
  have hread := hmask.bind fun mask _ => hrow.bind fun out _ =>
    TakesZeros.ofOutcome (NullableDeserializer.applyMask mask out)
  exact hread.mono (by omega) fun _ h => h

/-- The columns of a tuple, which take their zeros one after the other. -/
structure TuplePlaceholder (ts : List ChType) (n : Nat) : Prop where
  takes : ∀ tuples, TakesZeros (n + if readsDefault.readsDefaults ts then 0 else 1)
    (fun _ => True) (readTuples .async ts 1 tuples)
  exact_of : readsDefault.readsDefaults ts = true →
    ∀ row, ∃ row', TakesExactly n [row'] (readTuples .async ts 1 [row])

theorem TuplePlaceholder.nil : TuplePlaceholder [] 0 where
  takes := fun _ => TakesZeros.pure trivial
  exact_of := fun _ row => ⟨row, TakesExactly.pure _⟩

theorem TuplePlaceholder.cons {t : ChType} {ts : List ChType} {n m : Nat} (ht : Placeholder t n)
    (hts : TuplePlaceholder ts m) : TuplePlaceholder (t :: ts) (n + m) where
  takes := by
    intro tuples
    rw [readTuples]
    have hread := ht.takes.bind fun column _ =>
      (TakesZeros.ofOutcome (pushEach tuples column)).bind fun tuples' _ => hts.takes tuples'
    apply hread.mono _ fun _ h => h
    rw [readsDefault.readsDefaults]
    cases t.readsDefault <;> cases readsDefault.readsDefaults ts <;> simp
    all_goals omega
  exact_of := by
    intro hboth row
    rw [readsDefault.readsDefaults, Bool.and_eq_true] at hboth
    obtain ⟨v, hv⟩ := ht.exact_of hboth.1
    obtain ⟨row', hrow'⟩ := hts.exact_of hboth.2 (row ++ [v])
    refine ⟨row', ?_⟩
    rw [readTuples]
    apply hv.bind
    rw [← Nat.zero_add m]
    exact (TakesExactly.pure [row ++ [v]]).bind hrow'

theorem TuplePlaceholder.of_defaults {ts : List ChType}
    (h : ∀ t ∈ ts, ∀ bytes, writeDefaultOf false t = .ok bytes →
      ∃ n, bytes = zeros n ∧ Placeholder t n)
    {bytes : Bytes} (hbytes : writeDefaults ts = .ok bytes) :
    ∃ n, bytes = zeros n ∧ TuplePlaceholder ts n := by
  induction ts generalizing bytes with
  | nil =>
      obtain rfl := Except.ok.inj hbytes
      exact ⟨0, rfl, TuplePlaceholder.nil⟩
  | cons t ts ih =>
      rw [writeDefaults] at hbytes
      obtain ⟨first, hfirst, hbytes⟩ := Outcome.bind_eq_ok.mp hbytes
      obtain ⟨rest, hrest, hbytes⟩ := Outcome.bind_eq_ok.mp hbytes
      obtain rfl := Except.ok.inj hbytes
      obtain ⟨n, rfl, ht⟩ := h t List.mem_cons_self first hfirst
      obtain ⟨m, rfl, hts⟩ := ih (fun u hu => h u (List.mem_cons_of_mem t hu)) hrest
      exact ⟨n + m, zeros_append n m, TuplePlaceholder.cons ht hts⟩

theorem Placeholder.tuple {ts : List ChType} {n : Nat} (h : TuplePlaceholder ts n) :
    Placeholder (.tuple ts) n where
  takes := by
    rw [readColumn, guardRows_one]
    have hread := (h.takes [[]]).bind fun tuples _ =>
      TakesZeros.pure (Q := fun _ => True) (a := tuples.map Value.tuple) trivial
    exact hread
  exact_of := by
    intro hreads
    obtain ⟨row, hrow⟩ := h.exact_of hreads []
    refine ⟨.tuple row, ?_⟩
    rw [readColumn, guardRows_one]
    exact hrow.map fun tuples => tuples.map Value.tuple

theorem placeholder_entry {t : ChType} {n : Nat} {v : Value} {bytes : Bytes}
    (hreads : t.readsDefault = true) (hentry : t.isEntry = true)
    (hread : TakesExactly n v (t.readEntry .async)) (h : (.ok (zeros n) : ArrowResult Bytes) = .ok bytes) :
    ∃ k, bytes = zeros k ∧ Placeholder t k :=
  ⟨n, (Except.ok.inj h).symm, .of_entry hreads hentry hread⟩

/-- The entry is one little-endian word. -/
theorem placeholder_word {t : ChType} (α : Type) [Word α] (f : α → Value) {bytes : Bytes}
    (hreads : t.readsDefault = true) (hentry : t.isEntry = true)
    (hread : t.readEntry .async = f <$> getLe α Mode.async.eof)
    (h : (.ok (zeros (Word.width α)) : ArrowResult Bytes) = .ok bytes) :
    ∃ k, bytes = zeros k ∧ Placeholder t k := by
  apply placeholder_entry hreads hentry _ h
  · exact f (Word.ofNat 0)
  · rw [hread]
    exact (TakesExactly.getLe α Mode.async.eof).map f

/-- **A default is a placeholder of its type.** -/
theorem placeholder_of_default (isNull : Bool) (t : ChType) {bytes : Bytes}
    (h : writeDefaultOf isNull t = .ok bytes) : ∃ n, bytes = zeros n ∧ Placeholder t n := by
  induction t using inductionOn generalizing isNull bytes with
  | hleaf t hflat =>
      -- A leaf that has a default has one of its width, all zeroes.
      cases t with
      | nullable | lowCardinality | array | tuple | map => cases hflat
      | point | ring | polygon | multiPolygon | object => cases h
      | fixedSizedString n | fixedSizedBinary n =>
          rw [writeDefaultOf, zeroed] at h
          split_ifs at h with hlen
          · cases h
          · exact placeholder_entry rfl rfl (takesExactly_fixed .async (Nat.not_lt.mp hlen)) h
      | dateTime64 precision tz =>
          rw [writeDefaultOf, zeroWord] at h
          split_ifs at h with hlen
          · obtain rfl := Except.ok.inj h
            exact ⟨precision, rfl, placeholder_dateTime64 tz hlen⟩
          · cases h
      | enum8 pairs =>
          have hindex : Placeholder (.enum8 pairs) (Word.width Int8) :=
            placeholder_index rfl rfl rfl
          exact ⟨1, (Except.ok.inj h).symm, hindex⟩
      | enum16 pairs =>
          have hindex : Placeholder (.enum16 pairs) (Word.width Int16) :=
            placeholder_index rfl rfl rfl
          exact ⟨2, (Except.ok.inj h).symm, hindex⟩
      | string | binary =>
          exact placeholder_entry rfl rfl ((takesExactly_string .async).map Value.string) h
      | uuid => exact placeholder_entry rfl rfl (takesExactly_uuid .async) h
      | ipv6 => exact placeholder_entry rfl rfl ((TakesExactly.getOctets _ 16).map Value.ipv6) h
      | int256 => exact placeholder_entry rfl rfl ((takesExactly_read256 .async).map Value.int256) h
      | uint256 =>
          exact placeholder_entry rfl rfl ((takesExactly_read256 .async).map Value.uint256) h
      | decimal256 s =>
          exact placeholder_entry rfl rfl ((takesExactly_read256 .async).map (Value.decimal256 s)) h
      | int8 => exact placeholder_word Int8 .int8 rfl rfl rfl h
      | int16 => exact placeholder_word Int16 .int16 rfl rfl rfl h
      | int32 => exact placeholder_word Int32 .int32 rfl rfl rfl h
      | int64 => exact placeholder_word Int64 .int64 rfl rfl rfl h
      | int128 => exact placeholder_word (BitVec 128) .int128 rfl rfl rfl h
      | uint8 => exact placeholder_word UInt8 .uint8 rfl rfl rfl h
      | uint16 => exact placeholder_word UInt16 .uint16 rfl rfl rfl h
      | uint32 => exact placeholder_word UInt32 .uint32 rfl rfl rfl h
      | uint64 => exact placeholder_word UInt64 .uint64 rfl rfl rfl h
      | uint128 => exact placeholder_word (BitVec 128) .uint128 rfl rfl rfl h
      | float32 => exact placeholder_word UInt32 .float32 rfl rfl rfl h
      | float64 => exact placeholder_word UInt64 .float64 rfl rfl rfl h
      | decimal32 s => exact placeholder_word Int32 (.decimal32 s) rfl rfl rfl h
      | decimal64 s => exact placeholder_word Int64 (.decimal64 s) rfl rfl rfl h
      | decimal128 s => exact placeholder_word (BitVec 128) (.decimal128 s) rfl rfl rfl h
      | date => exact placeholder_word UInt16 .date rfl rfl rfl h
      | date32 => exact placeholder_word Int32 .date32 rfl rfl rfl h
      | dateTime tz => exact placeholder_word UInt32 (.dateTime tz) rfl rfl rfl h
      | ipv4 => exact placeholder_word UInt32 .ipv4 rfl rfl rfl h
  | hnullable inner ih =>
      rw [writeDefaultOf] at h
      split_ifs at h with hnull
      · cases h
      · obtain ⟨n, rfl, hinner⟩ := ih true h
        exact ⟨n, rfl, hinner.nullable⟩
  | hlowCardinality inner _ ih =>
      obtain ⟨n, rfl, -⟩ := ih false h
      exact ⟨n, rfl, .of_takes rfl (takesZeros_lowCardinality _ inner)⟩
  | harray inner _ =>
      obtain rfl := Except.ok.inj h
      exact ⟨1, rfl, .of_takes rfl ((takesZeros_list inner).mono (by decide) fun _ h => h)⟩
  | htuple items ih =>
      -- The defaults of the items stand one behind the other.
      obtain ⟨n, rfl, hitems⟩ := TuplePlaceholder.of_defaults (fun t ht _ => ih t ht false) h
      exact ⟨n, rfl, .tuple hitems⟩
  | hmap key value _ _ =>
      obtain rfl := Except.ok.inj h
      exact ⟨1, rfl, .of_takes rfl ((takesZeros_map key value).mono (by decide) fun _ h => h)⟩

theorem placeholder_stripNull {t : ChType} {bytes : Bytes} (h : writeDefault t = .ok bytes) :
    ∃ n, bytes = zeros n ∧ Placeholder t.stripNull n := by
  cases t with
  | nullable inner => exact placeholder_of_default true inner h
  | _ => exact placeholder_of_default false _ h

/-! ## The contract -/

/-- What is written is one row of the type without its nulls, it is the same in both modes, and
a type that `validate` accepts does not break the writers. -/
structure DefaultWellFormed (t : ChType) : Prop where
  one_row : ∀ bytes, writeDefault t = .ok bytes ∨ putDefault t = .ok bytes →
    ∃ v, t.stripNull.deserializeColumn 1 bytes = .ok ([v], [])
  same : writeDefault t = putDefault t
  noPanic : t.validate = .ok () → (writeDefault t).NoPanic ∧ (putDefault t).NoPanic

theorem one_row_iff (t : ChType) :
    (∀ bytes, writeDefault t = .ok bytes → ∃ v, t.stripNull.deserializeColumn 1 bytes = .ok ([v], [])) ↔
      (t.hasDefault false = true → t.stripNull.readsDefault = true) := by
  have hend := writeDefaultOf_end false t
  constructor
  · intro hrow hhas
    rw [hhas] at hend
    cases hwritten : writeDefaultOf false t with
    | error e =>
        rw [hwritten] at hend
        cases hend with
        | refused e hno _ => cases hno
        | panics p hno _ => cases hno
    | ok bytes =>
        obtain ⟨n, rfl, hplace⟩ := placeholder_stripNull hwritten
        obtain ⟨v, hv⟩ := hrow (zeros n) hwritten
        obtain ⟨⟨r, -, hr⟩, -⟩ := hplace.takes n [v] [] hv
        -- More zeros than there are, unless the layout is that of the default.
        by_contra hreads
        rw [if_neg hreads] at hr
        omega
  · intro hreads bytes hbytes
    have hhas : t.hasDefault false = true := by
      change writeDefaultOf false t = .ok bytes at hbytes
      rw [hbytes] at hend
      generalize t.hasDefault false = has at hend
      cases hend with
      | written n hhas _ => exact hhas
    obtain ⟨n, rfl, hplace⟩ := placeholder_stripNull hbytes
    obtain ⟨v, hv⟩ := hplace.exact_of (hreads hhas)
    exact ⟨v, hv.2 0⟩

theorem writeDefault_noPanic_iff (t : ChType) :
    (writeDefault t).NoPanic ↔ t.breaksDefault false = false := by
  have hend := writeDefaultOf_end false t
  rw [writeDefault]
  revert hend
  generalize writeDefaultOf false t = out
  intro hend
  cases hend with
  | written n hhas hbreaks => exact iff_of_true (Outcome.NoPanic.ok _) hbreaks
  | refused e hhas hbreaks => exact iff_of_true (Outcome.NoPanic.fail e) hbreaks
  | panics p hhas hbreaks =>
      refine iff_of_false (fun h => h p rfl) ?_
      rw [hbreaks]
      decide

/-- **Placeholders are one value exactly for the types whose default is laid out as a row.** -/
theorem defaultWellFormed_iff (t : ChType) :
    DefaultWellFormed t ↔
      (t.hasDefault false = true → t.stripNull.readsDefault = true) ∧
        (t.validate = .ok () → t.breaksDefault false = false) := by
  constructor
  · intro h
    refine ⟨(one_row_iff t).mp fun bytes hbytes => h.one_row bytes (.inl hbytes), fun hvalid => ?_⟩
    exact (writeDefault_noPanic_iff t).mp (h.noPanic hvalid).1
  · rintro ⟨hreads, hbreaks⟩
    have hrow := (one_row_iff t).mpr hreads
    refine ⟨fun bytes hbytes => ?_, (putDefault_eq t).symm, fun hvalid => ?_⟩
    · rw [putDefault_eq, or_self] at hbytes
      exact hrow bytes hbytes
    · rw [putDefault_eq, and_self]
      exact (writeDefault_noPanic_iff t).mpr (hbreaks hvalid)

/-- Times of milliseconds have three bytes where the column has eight, those of nanoseconds are
refused by the bounds check, and an empty list has one byte where its end has eight. -/
theorem not_defaultWellFormed_samples :
    ¬ DefaultWellFormed (.dateTime64 3 ⟨"UTC"⟩) ∧ ¬ DefaultWellFormed (.dateTime64 9 ⟨"UTC"⟩) ∧
      ¬ DefaultWellFormed (.array .int8) := by
  refine ⟨fun h => ?_, fun h => ?_, fun h => ?_⟩
  · obtain ⟨v, hv⟩ := h.one_row [0, 0, 0] (.inl rfl)
    cases hv
  · exact (h.noPanic rfl).1 _ rfl
  · obtain ⟨v, hv⟩ := h.one_row [0] (.inl rfl)
    cases hv

end Arrow

end ClickhouseArrow
