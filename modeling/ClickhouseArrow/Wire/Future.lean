import ClickhouseArrow.Wire.Words

/-!
# Readers that await bytes

A `Future` awaits one byte after another and ends with a value or with an error.  It is polled
with the bytes that have arrived (`feed`): it takes bytes until it ends or until no byte is left,
and can be polled again when more arrive.  What it takes is gone from the stream, also when the
future is dropped before it ends.
-/

namespace Wire

/-- A reader that ends, with `none` for an error, or awaits a byte. -/
inductive Future (α : Type)
  | ready (result : Option α)
  | read (next : UInt8 → Future α)

namespace Future

variable {α β : Type}

protected def bind : Future α → (α → Future β) → Future β
  | ready (some a), f => f a
  | ready none, _ => ready none
  | read next, f => read fun b => (next b).bind f

instance : Monad Future where
  pure a := ready (some a)
  bind := Future.bind

def fail : Future α := ready none

/-- `ok()` of the result. -/
def ok : Future α → Future (Option α)
  | ready result => ready (some result)
  | read next => read fun b => (next b).ok

/-- `read_u8`. -/
def readU8 : Future UInt8 := read fun b => ready (some b)

/-- `for _ in 0..n`, and what the turns give. -/
def repeatTimes (turn : Future α) : Nat → Future (List α)
  | 0 => pure []
  | n + 1 => do
      let a ← turn
      let as ← repeatTimes turn n
      pure (a :: as)

/-- `read_exact`. -/
def readExact : Nat → Future Bytes := repeatTimes readU8

/-- A poll with the bytes that have arrived: what becomes of the future, and the bytes that it
leaves. -/
def feed : Future α → Bytes → Future α × Bytes
  | ready result, bs => (ready result, bs)
  | read next, [] => (read next, [])
  | read next, b :: bs => (next b).feed bs

@[simp] theorem feed_ready (result : Option α) (bs : Bytes) :
    (ready result).feed bs = (ready result, bs) := by
  cases bs <;> rfl

@[simp] theorem feed_nil (f : Future α) : f.feed [] = (f, []) := by
  cases f <;> rfl

/-- Polling goes on where it has stopped. -/
theorem feed_append (f : Future α) (bs cs : Bytes) :
    f.feed (bs ++ cs) = (f.feed bs).1.feed ((f.feed bs).2 ++ cs) := by
  induction bs generalizing f with
  | nil => rw [feed_nil, List.nil_append]
  | cons b bs ih =>
    cases f with
    | ready result => rw [feed_ready, feed_ready, feed_ready]
    | read next => exact ih (next b)

/-- A future leaves bytes only when it has ended. -/
theorem feed_pending {f : Future α} {bs rest : Bytes} {next : UInt8 → Future α}
    (h : f.feed bs = (read next, rest)) : rest = [] := by
  induction bs generalizing f with
  | nil =>
    rw [feed_nil] at h
    exact (Prod.mk.inj h).2.symm
  | cons b bs ih =>
    cases f with
    | ready result =>
      rw [feed_ready] at h
      cases h
    | read next' => exact ih h

/-- The bytes that a future takes are the first ones, and lead to the same end by themselves. -/
theorem exists_feed {f : Future α} {bs rest : Bytes} {result : Option α}
    (h : f.feed bs = (ready result, rest)) :
    ∃ taken, bs = taken ++ rest ∧ f.feed taken = (ready result, []) := by
  induction bs generalizing f with
  | nil =>
    rw [feed_nil] at h
    obtain ⟨rfl, rfl⟩ := Prod.mk.inj h
    exact ⟨[], rfl, feed_nil _⟩
  | cons b bs ih =>
    cases f with
    | ready result' =>
      rw [feed_ready] at h
      cases h
      exact ⟨[], rfl, rfl⟩
    | read next =>
      obtain ⟨taken, rfl, hfeed⟩ := ih h
      exact ⟨b :: taken, rfl, hfeed⟩

/-! ## Futures and readers -/

@[simp] theorem ready_bind (a : α) (f : α → Future β) : ready (some a) >>= f = f a := rfl

@[simp] theorem fail_bind (f : α → Future β) : (ready none : Future α) >>= f = ready none := rfl

@[simp] theorem read_bind (next : UInt8 → Future α) (f : α → Future β) :
    read next >>= f = read fun b => next b >>= f := rfl

/-- Two futures in a row end with a value where the first one does and the second one does
behind it. -/
theorem feed_bind_eq_ready {f : Future α} {g : α → Future β} {bs rest : Bytes} {b : β} :
    (f >>= g).feed bs = (ready (some b), rest) ↔
      ∃ a mid, f.feed bs = (ready (some a), mid) ∧ (g a).feed mid = (ready (some b), rest) := by
  induction bs generalizing f with
  | nil =>
    match f with
    | ready (some a) => simp
    | ready none => simp
    | read next => simp
  | cons c bs ih =>
    match f with
    | ready (some a) => simp
    | ready none => simp
    | read next => exact ih

/-- The future ends with a value where the reader does, and takes the same bytes. -/
def Follows {ε : Type} (f : Future α) (r : Reader ε α) : Prop :=
  ∀ bs a rest, f.feed bs = (ready (some a), rest) ↔ r bs = .ok (a, rest)

section Follows

variable {ε : Type}

theorem Follows.pure (a : α) : Follows (pure a) (pure a : Reader ε α) := by
  intro bs a' rest
  change (ready (some a)).feed bs = _ ↔ (Except.ok (a, bs) : Outcome ε (α × Bytes)) = _
  simp

theorem Follows.fail (r : Reader ε α) (h : ∀ bs x, r bs ≠ .ok x) : Follows fail r := by
  intro bs a rest
  simp [Future.fail, h]

theorem Follows.bind {f : Future α} {r : Reader ε α} {g : α → Future β} {s : α → Reader ε β}
    (hf : Follows f r) (hg : ∀ a, Follows (g a) (s a)) : Follows (f >>= g) (r >>= s) := by
  intro bs b rest
  rw [feed_bind_eq_ready, Reader.bind_eq_ok]
  constructor
  · rintro ⟨a, mid, hfirst, hsecond⟩
    exact ⟨a, mid, (hf bs a mid).mp hfirst, (hg a mid b rest).mp hsecond⟩
  · rintro ⟨a, mid, hfirst, hsecond⟩
    exact ⟨a, mid, (hf bs a mid).mpr hfirst, (hg a mid b rest).mpr hsecond⟩

theorem Follows.ite {c : Prop} [Decidable c] {f f' : Future α} {r r' : Reader ε α}
    (hpos : c → Follows f r) (hneg : ¬ c → Follows f' r') :
    Follows (if c then f else f') (if c then r else r') := by
  by_cases hc : c
  · simpa [hc] using hpos hc
  · simpa [hc] using hneg hc

theorem Follows.readU8 (eof : Nat → Nat → ε) : Follows readU8 (getByte eof) := by
  intro bs b rest
  cases bs with
  | nil => simp [Future.readU8, getByte]
  | cons c bs => simp [Future.readU8, getByte, feed]

/-- `read_exact` ends once its bytes are there. -/
theorem feed_readExact {n : Nat} {bs bytes rest : Bytes} :
    (readExact n).feed bs = (ready (some bytes), rest) ↔
      n ≤ bs.length ∧ bs.take n = bytes ∧ bs.drop n = rest := by
  induction n generalizing bs bytes rest with
  | zero => simp [readExact, repeatTimes, Pure.pure]
  | succ n ih =>
    rw [readExact, repeatTimes]
    cases bs with
    | nil => simp [Future.readU8]
    | cons c bs =>
      change (readExact n >>= fun as => pure (c :: as)).feed bs = _ ↔ _
      rw [feed_bind_eq_ready]
      simp only [ih, List.length_cons, List.take_succ_cons, List.drop_succ_cons,
        Nat.add_le_add_iff_right]
      constructor
      · rintro ⟨as, mid, ⟨hlength, rfl, rfl⟩, hlast⟩
        change (ready (some (c :: bs.take n))).feed (bs.drop n) = _ at hlast
        rw [feed_ready] at hlast
        cases hlast
        exact ⟨hlength, rfl, rfl⟩
      · rintro ⟨hlength, rfl, rfl⟩
        exact ⟨_, _, ⟨hlength, rfl, rfl⟩, feed_ready _ _⟩

theorem Follows.readExact (eof : Nat → Nat → ε) (n : Nat) :
    Follows (readExact n) (Reader.takeExact eof n) := by
  intro bs bytes rest
  rw [feed_readExact, Reader.takeExact]
  split
  · rename_i hshort
    simp [Nat.not_le.mpr hshort]
  · rename_i hlong
    simp [Nat.not_lt.mp hlong]

end Follows

/-! ## Futures one after another -/

/-- The bytes of `bs` that stand before `rest`. -/
def before (bs rest : Bytes) : Bytes := bs.take (bs.length - rest.length)

@[simp] theorem before_append (bs rest : Bytes) : before (bs ++ rest) rest = bs := by
  rw [before, List.length_append, Nat.add_sub_cancel, List.take_left]

/-- What futures make of a stream, each fed with what those before it have left: the bytes
that each takes, with its value, and the bytes that are left in the end. -/
def feedAll : List (Future α) → Bytes → List (Bytes × α) × Bytes
  | [], bs => ([], bs)
  | f :: fs, bs =>
    match f.feed bs with
    | (ready (some a), rest) => ((before bs rest, a) :: (feedAll fs rest).1, (feedAll fs rest).2)
    | _ => ([], bs)

/-- Values that stand one after another are read one after another. -/
theorem feedAll_map {ρ : Type} {rs : List ρ} {future : ρ → Future α} {bytes : ρ → Bytes}
    {value : ρ → α}
    (h : ∀ r ∈ rs, (future r).feed (bytes r) = (ready (some (value r)), [])) (rest : Bytes) :
    feedAll (rs.map future) (rs.flatMap bytes ++ rest) =
      (rs.map fun r => (bytes r, value r), rest) := by
  induction rs with
  | nil => rfl
  | cons r rs ih =>
    have hfeed : (future r).feed (bytes r ++ (rs.flatMap bytes ++ rest)) =
        (ready (some (value r)), rs.flatMap bytes ++ rest) := by
      rw [feed_append, h r List.mem_cons_self, List.nil_append, feed_ready]
    have htail := ih fun r' hr' => h r' (List.mem_cons_of_mem _ hr')
    rw [List.map_cons, List.flatMap_cons, List.append_assoc, feedAll]
    simp only [hfeed, htail, before_append, List.map_cons]

/-- No byte is lost between futures. -/
theorem feedAll_bytes (fs : List (Future α)) (bs : Bytes) :
    (feedAll fs bs).1.flatMap Prod.fst ++ (feedAll fs bs).2 = bs := by
  induction fs generalizing bs with
  | nil => rfl
  | cons f fs ih =>
    rw [feedAll]
    split
    · rename_i a rest hfeed
      obtain ⟨taken, rfl, -⟩ := exists_feed hfeed
      rw [List.flatMap_cons, List.append_assoc, ih, before_append]
    · rfl

end Future

end Wire
