import Mathlib.Data.List.Basic
import Mathlib.Tactic.Basic

/-!
# Byte readers with errors and panics

A reader consumes a prefix of a byte stream.  It can end in three ways: with a
value and the bytes that are left, with an error of the program, or with a panic
of the runtime.  The module fixes

- `Outcome`, the result of a computation that may fail or panic,
- `Reader`, the state monad of the unread bytes over `Outcome`,
- `Reads`, "this reader takes exactly these bytes and returns this value, whatever
  bytes follow", with one rule for each combinator, and `Stuck`, its opposite,
- `Yields`, "every value that this reader returns has this property",
- `Consumes`, "this reader ends, and takes at least so many bytes when it succeeds",
- `Simulates`, "these two readers end in the same way and leave the same bytes",
  with one rule for each combinator, and `Extends`, "this reader returns all that the
  other one returns".
-/

namespace Wire

/-- A byte string, in the order in which it crosses the wire. -/
abbrev Bytes := List UInt8

/-- The run-time failures that abort a computation instead of being returned. -/
inductive Panic
  | indexOutOfBounds
  | addOverflow
  | mulOverflow
  | subtractOverflow
  | unwrapNone
  | assertionFailed
  | unreachable
  | capacityOverflow
  /-- Not a failure of a program: a bounded loop of a model ran out of its bound. -/
  | outOfFuel
  deriving DecidableEq, Repr

/-- What stops a computation early: a returned error or a panic. -/
inductive Fault (ε : Type)
  | error (e : ε)
  | panic (p : Panic)
  deriving DecidableEq, Repr

/-- The result of a computation that may return an error or panic. -/
abbrev Outcome (ε α : Type) := Except (Fault ε) α

namespace Outcome

variable {ε α β : Type}

/-- Return an error. -/
def fail (e : ε) : Outcome ε α := .error (.error e)

/-- Abort. -/
def panic (p : Panic) : Outcome ε α := .error (.panic p)

/-- The computation does not abort. -/
def NoPanic (o : Outcome ε α) : Prop := ∀ p, o ≠ .error (.panic p)

@[simp] theorem ok_bind (a : α) (f : α → Outcome ε β) :
    ((Except.ok a : Outcome ε α) >>= f) = f a := rfl

@[simp] theorem error_bind (e : Fault ε) (f : α → Outcome ε β) :
    ((Except.error e : Outcome ε α) >>= f) = .error e := rfl

@[simp] theorem fail_bind (e : ε) (f : α → Outcome ε β) :
    ((fail e : Outcome ε α) >>= f) = fail e := rfl

@[simp] theorem panic_bind (p : Panic) (f : α → Outcome ε β) :
    ((panic p : Outcome ε α) >>= f) = panic p := rfl

/-- A computation that succeeds did so through each of its steps. -/
theorem bind_eq_ok {o : Outcome ε α} {f : α → Outcome ε β} {b : β} :
    (o >>= f) = .ok b ↔ ∃ a, o = .ok a ∧ f a = .ok b := by
  cases o with
  | ok a => simp
  | error e => simp

theorem map_eq_ok {o : Outcome ε α} {f : α → β} {b : β} :
    f <$> o = .ok b ↔ ∃ a, o = .ok a ∧ f a = b := by
  cases o with
  | ok a => simp
  | error e => simp

theorem bind_eq_error {o : Outcome ε α} {f : α → Outcome ε β} {e : Fault ε} :
    (o >>= f) = .error e ↔ o = .error e ∨ ∃ a, o = .ok a ∧ f a = .error e := by
  cases o with
  | ok a => simp
  | error e' => simp

/-- Only the first step can fail. -/
theorem bind_ok_eq_error {o : Outcome ε α} {f : α → β} {e : Fault ε} :
    (do
      let a ← o
      .ok (f a) : Outcome ε β) = .error e ↔ o = .error e := by
  rw [bind_eq_error]
  simp

/-! Computations that do not abort. -/

theorem NoPanic.ok (a : α) : NoPanic (.ok a : Outcome ε α) := fun _ h => by cases h

theorem NoPanic.fail (e : ε) : NoPanic (fail e : Outcome ε α) := fun _ h => by cases h

theorem NoPanic.bind {o : Outcome ε α} {f : α → Outcome ε β} (ho : o.NoPanic)
    (hf : ∀ a, (f a).NoPanic) : (o >>= f).NoPanic := by
  intro p h
  cases o with
  | error e =>
      rw [error_bind] at h
      exact ho p (congrArg Except.error (Except.error.inj h))
  | ok a =>
      rw [ok_bind] at h
      exact hf a p h

theorem NoPanic.map {o : Outcome ε α} (f : α → β) (ho : o.NoPanic) : (f <$> o).NoPanic := by
  intro p h
  cases o with
  | error e =>
      cases h
      exact ho p rfl
  | ok a => cases h

theorem NoPanic.ite {c : Prop} [Decidable c] {o o' : Outcome ε α} (ho : c → o.NoPanic)
    (ho' : ¬ c → o'.NoPanic) : (if c then o else o').NoPanic := by
  split
  · exact ho ‹_›
  · exact ho' ‹_›

/-- The computation returns no error; it may abort. -/
def NoFail (o : Outcome ε α) : Prop := ∀ e, o ≠ .error (.error e)

theorem NoFail.ok (a : α) : NoFail (.ok a : Outcome ε α) := fun _ h => by cases h

theorem NoFail.panic (p : Panic) : NoFail (panic p : Outcome ε α) := fun _ h => by cases h

theorem NoFail.bind {o : Outcome ε α} {f : α → Outcome ε β} (ho : NoFail o)
    (hf : ∀ a, NoFail (f a)) : NoFail (o >>= f) := by
  intro e h
  cases o with
  | error fault =>
      rw [error_bind] at h
      exact ho e (congrArg Except.error (Except.error.inj h))
  | ok a =>
      rw [ok_bind] at h
      exact hf a e h

/-- Run a fallible step on every element, from the left. -/
def traverse (f : α → Outcome ε β) : List α → Outcome ε (List β)
  | [] => .ok []
  | a :: as => do
      let b ← f a
      let bs ← traverse f as
      .ok (b :: bs)

@[simp] theorem traverse_nil (f : α → Outcome ε β) : traverse f [] = .ok [] := rfl

/-- Steps that all succeed return the list of their results. -/
theorem traverse_eq_ok_map {f : α → Outcome ε β} {g : α → β} {as : List α}
    (h : ∀ a ∈ as, f a = .ok (g a)) : traverse f as = .ok (as.map g) := by
  induction as with
  | nil => rfl
  | cons a as ih =>
      rw [traverse, h a List.mem_cons_self,
        ih fun b hb => h b (List.mem_cons_of_mem a hb)]
      rfl

/-- A list of results has one for every element. -/
theorem exists_of_traverse {f : α → Outcome ε β} {as : List α} {bs : List β}
    (h : traverse f as = .ok bs) : ∀ a ∈ as, ∃ b, f a = .ok b := by
  induction as generalizing bs with
  | nil => simp
  | cons a as ih =>
      obtain ⟨b, hb, h⟩ := bind_eq_ok.mp h
      obtain ⟨rest, hrest, -⟩ := bind_eq_ok.mp h
      exact List.forall_mem_cons.mpr ⟨⟨b, hb⟩, ih hrest⟩

theorem traverse_map {γ : Type} (f : β → Outcome ε γ) (g : α → β) (as : List α) :
    traverse f (as.map g) = traverse (fun a => f (g a)) as := by
  induction as with
  | nil => rfl
  | cons a as ih => rw [List.map_cons, traverse, traverse, ih]

/-- Concatenate what a fallible writer makes of every element. -/
def emit (f : α → Outcome ε Bytes) : List α → Outcome ε Bytes
  | [] => .ok []
  | a :: as => do
      let b ← f a
      let bs ← emit f as
      .ok (b ++ bs)

theorem emit_eq_ok_flatMap {f : α → Outcome ε Bytes} {g : α → Bytes} {as : List α}
    (h : ∀ a ∈ as, f a = .ok (g a)) : emit f as = .ok (as.flatMap g) := by
  induction as with
  | nil => rfl
  | cons a as ih =>
      rw [emit, h a List.mem_cons_self, ih fun b hb => h b (List.mem_cons_of_mem a hb)]
      rfl

theorem emit_map (f : β → Outcome ε Bytes) (g : α → β) (as : List α) :
    emit f (as.map g) = emit (fun a => f (g a)) as := by
  induction as with
  | nil => rfl
  | cons a as ih => rw [List.map_cons, emit, emit, ih]

/-- A writer that puts down something for every element puts down nothing for no elements
alone. -/
theorem emit_eq_ok_nil_iff {f : α → Outcome ε Bytes} (h : ∀ a bytes, f a = .ok bytes → bytes ≠ [])
    (as : List α) : emit f as = .ok [] ↔ as = [] := by
  constructor
  · intro hemit
    cases as with
    | nil => rfl
    | cons a as =>
        obtain ⟨bytes, hbytes, hemit⟩ := bind_eq_ok.mp hemit
        obtain ⟨rest, -, hemit⟩ := bind_eq_ok.mp hemit
        exact absurd (List.append_eq_nil_iff.mp (Except.ok.inj hemit)).1 (h a bytes hbytes)
  · rintro rfl
    rfl

end Outcome

/-- A computation over the bytes that are still unread. -/
abbrev Reader (ε α : Type) := StateT Bytes (Except (Fault ε)) α

namespace Reader

variable {ε α β : Type}

/-- Return an error. -/
def fail (e : ε) : Reader ε α := fun _ => .error (.error e)

/-- Abort. -/
def panic (p : Panic) : Reader ε α := fun _ => .error (.panic p)

/-- A computation that reads nothing. -/
def ofOutcome (o : Outcome ε α) : Reader ε α := fun bs =>
  match o with
  | .ok a => .ok (a, bs)
  | .error e => .error e

/-- Exactly `n` bytes.  When fewer are left the error is made of the number of bytes
that were asked for and the number of those that were there. -/
def takeExact (eof : Nat → Nat → ε) (n : Nat) : Reader ε Bytes := fun bs =>
  if bs.length < n then .error (.error (eof n bs.length)) else .ok (bs.take n, bs.drop n)

/-- The same computation, its errors under another name. -/
def mapError {ζ : Type} (f : ε → ζ) (p : Reader ε α) : Reader ζ α := fun bs =>
  match p bs with
  | .ok x => .ok x
  | .error (.error e) => .error (.error (f e))
  | .error (.panic q) => .error (.panic q)

/-- The same reader `n` times. -/
def readMany (p : Reader ε α) : Nat → Reader ε (List α)
  | 0 => pure []
  | n + 1 => do
      let a ← p
      let as ← readMany p n
      pure (a :: as)

theorem bind_apply (p : Reader ε α) (f : α → Reader ε β) (bs : Bytes) :
    (p >>= f) bs = (p bs >>= fun (a, rest) => f a rest) := rfl

theorem map_apply (p : Reader ε α) (f : α → β) (bs : Bytes) :
    (f <$> p) bs = (p bs >>= fun (a, rest) => .ok (f a, rest)) := rfl

/-- Two readers in a row succeed where the first one does and the second one does behind it. -/
theorem bind_eq_ok {p : Reader ε α} {f : α → Reader ε β} {bs : Bytes} {x : β × Bytes} :
    (p >>= f) bs = .ok x ↔ ∃ a rest, p bs = .ok (a, rest) ∧ f a rest = .ok x := by
  rw [bind_apply, Outcome.bind_eq_ok]
  constructor
  · rintro ⟨y, hy, h⟩
    exact ⟨y.1, y.2, hy, h⟩
  · rintro ⟨a, rest, ha, h⟩
    exact ⟨(a, rest), ha, h⟩

@[simp] theorem pure_apply (a : α) (bs : Bytes) : (pure a : Reader ε α) bs = .ok (a, bs) := rfl

@[simp] theorem fail_apply (e : ε) (bs : Bytes) :
    (fail e : Reader ε α) bs = .error (.error e) := rfl

@[simp] theorem panic_apply (p : Panic) (bs : Bytes) :
    (panic p : Reader ε α) bs = .error (.panic p) := rfl

@[simp] theorem ofOutcome_ok (a : α) : (ofOutcome (.ok a) : Reader ε α) = pure a := rfl

@[simp] theorem ofOutcome_error (e : Fault ε) (bs : Bytes) :
    (ofOutcome (.error e) : Reader ε α) bs = .error e := rfl

end Reader

/-! ## Exact consumption -/

section Reads

variable {ε α β : Type}

/-- `p` takes exactly the bytes `bs` and returns `a`, whatever bytes follow. -/
def Reads (p : Reader ε α) (bs : Bytes) (a : α) : Prop :=
  ∀ rest, p (bs ++ rest) = .ok (a, rest)

theorem Reads.run {p : Reader ε α} {bs : Bytes} {a : α} (h : Reads p bs a) :
    p bs = .ok (a, []) := by
  simpa using h []

theorem Reads.pure (a : α) : Reads (Pure.pure a : Reader ε α) [] a := fun _ => rfl

theorem Reads.bind {p : Reader ε α} {f : α → Reader ε β} {s t : Bytes} {a : α} {b : β}
    (hp : Reads p s a) (hf : Reads (f a) t b) : Reads (p >>= f) (s ++ t) b := by
  intro rest
  rw [Reader.bind_apply, List.append_assoc, hp]
  exact hf rest

/-- Behind the bytes that the first step reads, the second one goes on. -/
theorem Reads.bind_append {p : Reader ε α} {s : Bytes} {a : α} (hp : Reads p s a)
    (f : α → Reader ε β) (t : Bytes) : (p >>= f) (s ++ t) = f a t := by
  rw [Reader.bind_apply, hp t]
  rfl

theorem Reads.map {p : Reader ε α} {bs : Bytes} {a : α} (f : α → β) (hp : Reads p bs a) :
    Reads (f <$> p) bs (f a) := by
  intro rest
  rw [Reader.map_apply, hp]
  rfl

/-- A step that reads bytes followed by one that reads none. -/
theorem Reads.bind_nil {p : Reader ε α} {f : α → Reader ε β} {bs : Bytes} {a : α} {b : β}
    (hp : Reads p bs a) (hf : Reads (f a) [] b) : Reads (p >>= f) bs b := by
  simpa using hp.bind hf

/-- A step that reads no bytes followed by one that does. -/
theorem Reads.nil_bind {p : Reader ε α} {f : α → Reader ε β} {bs : Bytes} {a : α} {b : β}
    (hp : Reads p [] a) (hf : Reads (f a) bs b) : Reads (p >>= f) bs b :=
  hp.bind hf

theorem Reads.ofOutcome {o : Outcome ε α} {a : α} (h : o = .ok a) :
    Reads (Reader.ofOutcome o) [] a := by
  subst h
  exact Reads.pure a

theorem Reads.takeExact (eof : Nat → Nat → ε) (bs : Bytes) :
    Reads (Reader.takeExact eof bs.length) bs bs := by
  intro rest
  simp [Reader.takeExact]

theorem Reads.mapError {ζ : Type} {p : Reader ε α} {bs : Bytes} {a : α} (hp : Reads p bs a)
    (f : ε → ζ) : Reads (p.mapError f) bs a := by
  intro rest
  rw [Reader.mapError, hp]

/-- Entries written one after the other are read back one after the other. -/
theorem Reads.readMany {γ : Type} {p : Reader ε α} {enc : γ → Bytes} {dec : γ → α} {xs : List γ}
    (h : ∀ x ∈ xs, Reads p (enc x) (dec x)) :
    Reads (Reader.readMany p xs.length) (xs.flatMap enc) (xs.map dec) := by
  induction xs with
  | nil => exact Reads.pure []
  | cons x xs ih =>
      have hhead := h x List.mem_cons_self
      have htail := ih fun y hy => h y (List.mem_cons_of_mem x hy)
      exact hhead.bind (htail.bind_nil (Reads.pure _))

/-- The reader returns nothing from these bytes, whatever bytes follow. -/
def Stuck (p : Reader ε α) (bs : Bytes) : Prop := ∀ rest x, p (bs ++ rest) ≠ .ok x

theorem Stuck.fail (e : ε) (bs : Bytes) : Stuck (Reader.fail e : Reader ε α) bs :=
  fun _ _ h => by simp at h

/-- What comes before the reader gets stuck is read. -/
theorem Reads.bind_stuck {p : Reader ε α} {f : α → Reader ε β} {s t : Bytes} {a : α}
    (hp : Reads p s a) (hf : Stuck (f a) t) : Stuck (p >>= f) (s ++ t) := by
  intro rest x h
  rw [Reader.bind_apply, List.append_assoc, hp] at h
  exact hf rest x h

theorem Stuck.bind {p : Reader ε α} {bs : Bytes} (hp : Stuck p bs) (f : α → Reader ε β) :
    Stuck (p >>= f) bs := by
  intro rest x h
  rw [Reader.bind_apply] at h
  cases hpb : p (bs ++ rest) with
  | ok y => exact hp rest y hpb
  | error e => simp [hpb] at h

theorem Stuck.map {p : Reader ε α} {bs : Bytes} (hp : Stuck p bs) (f : α → β) :
    Stuck (f <$> p) bs := by
  intro rest x h
  rw [Reader.map_apply] at h
  cases hpb : p (bs ++ rest) with
  | ok y => exact hp rest y hpb
  | error e => simp [hpb] at h

theorem Stuck.mapError {ζ : Type} {p : Reader ε α} {bs : Bytes} (hp : Stuck p bs) (f : ε → ζ) :
    Stuck (p.mapError f) bs := by
  intro rest x h
  rw [Reader.mapError] at h
  cases hpb : p (bs ++ rest) with
  | ok y => exact hp rest y hpb
  | error e => cases e <;> simp [hpb] at h

theorem Stuck.append {p : Reader ε α} {bs : Bytes} (hp : Stuck p bs) (t : Bytes) :
    Stuck p (bs ++ t) := by
  intro rest x h
  rw [List.append_assoc] at h
  exact hp _ x h

end Reads

/-! ## Partial correctness -/

section Yields

variable {ε α β : Type}

/-- Every value that the reader returns satisfies `Q`. -/
def Yields (Q : α → Prop) (p : Reader ε α) : Prop := ∀ bs x, p bs = .ok x → Q x.1

theorem Yields.pure {Q : α → Prop} {a : α} (h : Q a) : Yields Q (Pure.pure a : Reader ε α) := by
  intro bs x hx
  obtain rfl : (a, bs) = x := Except.ok.inj hx
  exact h

/-- Nothing is claimed. -/
theorem Yields.any (p : Reader ε α) : Yields (fun _ => True) p := fun _ _ _ => trivial

theorem Yields.bind {Q : α → Prop} {T : β → Prop} {p : Reader ε α} {f : α → Reader ε β}
    (hp : Yields Q p) (hf : ∀ a, Q a → Yields T (f a)) : Yields T (p >>= f) := by
  intro bs x hx
  rw [Reader.bind_apply] at hx
  obtain ⟨y, hy, hx⟩ := Outcome.bind_eq_ok.mp hx
  exact hf y.1 (hp bs y hy) y.2 x hx

/-- What the first step returns does not matter. -/
theorem Yields.bind_any {T : β → Prop} {p : Reader ε α} {f : α → Reader ε β}
    (hf : ∀ a, Yields T (f a)) : Yields T (p >>= f) :=
  (Yields.any p).bind fun a _ => hf a

theorem Yields.map {Q : α → Prop} {T : β → Prop} {p : Reader ε α} {f : α → β} (hp : Yields Q p)
    (hf : ∀ a, Q a → T (f a)) : Yields T (f <$> p) := by
  have hbind : Yields T (p >>= fun a => Pure.pure (f a)) :=
    hp.bind fun a ha => Yields.pure (hf a ha)
  simpa [bind_pure_comp] using hbind

theorem Yields.mono {Q T : α → Prop} {p : Reader ε α} (hp : Yields Q p) (h : ∀ a, Q a → T a) :
    Yields T p :=
  fun bs x hx => h x.1 (hp bs x hx)

theorem Yields.fail (Q : α → Prop) (e : ε) : Yields Q (Reader.fail e) :=
  fun _ _ h => by simp at h

theorem Yields.panic (Q : α → Prop) (p : Panic) : Yields Q (Reader.panic p : Reader ε α) :=
  fun _ _ h => by simp at h

theorem Yields.ofOutcome {Q : α → Prop} {o : Outcome ε α} (h : ∀ a, o = .ok a → Q a) :
    Yields Q (Reader.ofOutcome o) := by
  cases o with
  | ok a => exact Yields.pure (h a rfl)
  | error e => exact fun _ _ hx => by simp at hx

theorem Yields.ite {Q : α → Prop} {c : Prop} [Decidable c] {p q : Reader ε α}
    (hpos : c → Yields Q p) (hneg : ¬c → Yields Q q) : Yields Q (if c then p else q) := by
  by_cases h : c
  · simpa only [if_pos h] using hpos h
  · simpa only [if_neg h] using hneg h

end Yields

/-! ## Progress -/

section Consumes

variable {ε α β : Type}

/-- The reader never runs out of fuel; when it returns a value, it has taken at least `k`
bytes and the value satisfies `Q`. -/
def Consumes (k : Nat) (Q : α → Prop) (p : Reader ε α) : Prop :=
  ∀ bs, p bs ≠ .error (.panic .outOfFuel) ∧
    ∀ a rest, p bs = .ok (a, rest) → rest.length + k ≤ bs.length ∧ Q a

theorem Consumes.pure {Q : α → Prop} {a : α} (h : Q a) :
    Consumes 0 Q (Pure.pure a : Reader ε α) := by
  intro bs
  refine ⟨by simp, fun b rest hok => ?_⟩
  obtain ⟨rfl, rfl⟩ : a = b ∧ bs = rest := by simpa using hok
  exact ⟨Nat.le_refl _, h⟩

theorem Consumes.bind {j k : Nat} {Q : α → Prop} {T : β → Prop} {p : Reader ε α}
    {f : α → Reader ε β} (hp : Consumes j Q p) (hf : ∀ a, Q a → Consumes k T (f a)) :
    Consumes (j + k) T (p >>= f) := by
  intro bs
  obtain ⟨hfuel, hok⟩ := hp bs
  rw [Reader.bind_apply]
  cases hpb : p bs with
  | error e => exact ⟨by simpa [hpb] using hfuel, by simp⟩
  | ok x =>
      obtain ⟨hlen, hQ⟩ := hok x.1 x.2 hpb
      obtain ⟨hfuel', hok'⟩ := hf x.1 hQ x.2
      refine ⟨hfuel', fun b rest hb => ?_⟩
      obtain ⟨hlen', hT⟩ := hok' b rest hb
      exact ⟨by omega, hT⟩

theorem Consumes.mono {j k : Nat} {Q T : α → Prop} {p : Reader ε α} (h : Consumes k Q p)
    (hjk : j ≤ k) (hQT : ∀ a, Q a → T a) : Consumes j T p := by
  intro bs
  refine ⟨(h bs).1, fun a rest hok => ?_⟩
  obtain ⟨hlen, hQ⟩ := (h bs).2 a rest hok
  exact ⟨by omega, hQT a hQ⟩

/-- A step that takes bytes followed by one whose bytes are not counted. -/
theorem Consumes.bind_any {k : Nat} {Q : α → Prop} {T : β → Prop} {p : Reader ε α}
    {f : α → Reader ε β} (hp : Consumes k Q p) (hf : ∀ a, Q a → Consumes 0 T (f a)) :
    Consumes k T (p >>= f) := by
  simpa using hp.bind hf

theorem Consumes.map {k : Nat} {Q : α → Prop} {T : β → Prop} {p : Reader ε α} {f : α → β}
    (hp : Consumes k Q p) (hf : ∀ a, Q a → T (f a)) : Consumes k T (f <$> p) := by
  have hbind : Consumes k T (p >>= fun a => Pure.pure (f a)) :=
    hp.bind_any fun a ha => Consumes.pure (hf a ha)
  simpa [bind_pure_comp] using hbind

theorem Consumes.mapError {ζ : Type} {k : Nat} {Q : α → Prop} {p : Reader ε α}
    (h : Consumes k Q p) (f : ε → ζ) : Consumes k Q (p.mapError f) := by
  intro bs
  obtain ⟨hfuel, hok⟩ := h bs
  rw [Reader.mapError]
  cases hp : p bs with
  | ok x =>
    refine ⟨by simp, fun a rest hx => ?_⟩
    obtain rfl : x = (a, rest) := Except.ok.inj hx
    exact hok a rest hp
  | error e =>
    cases e with
    | error e => exact ⟨by simp, by simp⟩
    | panic q =>
      rw [hp] at hfuel
      exact ⟨by simpa using hfuel, by simp⟩

theorem Consumes.fail (k : Nat) (Q : α → Prop) (e : ε) : Consumes k Q (Reader.fail e) := by
  intro bs
  simp

theorem Consumes.panic (k : Nat) (Q : α → Prop) {p : Panic} (hp : p ≠ .outOfFuel) :
    Consumes k Q (Reader.panic p : Reader ε α) := by
  intro bs
  simpa using hp

theorem Consumes.ofOutcome {Q : α → Prop} {o : Outcome ε α} (hfuel : o ≠ .error (.panic .outOfFuel))
    (hQ : ∀ a, o = .ok a → Q a) : Consumes 0 Q (Reader.ofOutcome o) := by
  cases o with
  | ok a => exact Consumes.pure (hQ a rfl)
  | error e => exact fun bs => ⟨by simpa using hfuel, by simp⟩

theorem Consumes.takeExact (eof : Nat → Nat → ε) (n : Nat) :
    Consumes n (fun bs => bs.length = n) (Reader.takeExact eof n) := by
  intro bs
  by_cases hshort : bs.length < n
  · simp [Reader.takeExact, hshort]
  · simp only [Reader.takeExact, hshort, if_false, ne_eq, reduceCtorEq, not_false_eq_true, true_and]
    intro a rest hok
    obtain ⟨rfl, rfl⟩ : bs.take n = a ∧ bs.drop n = rest := by simpa using hok
    simp only [List.length_drop, List.length_take]
    omega

theorem Consumes.ite {k : Nat} {Q : α → Prop} {c : Prop} [Decidable c] {p q : Reader ε α}
    (hpos : c → Consumes k Q p) (hneg : ¬c → Consumes k Q q) :
    Consumes k Q (if c then p else q) := by
  by_cases h : c
  · simpa only [if_pos h] using hpos h
  · simpa only [if_neg h] using hneg h

theorem Consumes.readMany {k : Nat} {Q : α → Prop} {p : Reader ε α} (h : Consumes k Q p)
    (n : Nat) : Consumes 0 (fun as => as.length = n) (Reader.readMany p n) := by
  induction n with
  | zero => exact Consumes.pure rfl
  | succ n ih =>
      have hhead := h.mono (Nat.zero_le k) fun _ _ => trivial
      refine hhead.bind_any fun a _ => ih.bind_any fun as has => Consumes.pure ?_
      rw [List.length_cons, has]

end Consumes

/-! ## Simulation -/

section Simulates

variable {ε ζ α β γ δ : Type}

/-- Two results end in the same way: with related values, both with an error, or
both with a panic. -/
def Matching (R : α → β → Prop) : Outcome ε α → Outcome ζ β → Prop
  | .ok a, .ok b => R a b
  | .error (.error _), .error (.error _) => True
  | .error (.panic _), .error (.panic _) => True
  | _, _ => False

/-- Two readers end in the same way on every input; when they end with values, these
are related and the same bytes are left. -/
def Simulates (R : α → β → Prop) (p : Reader ε α) (q : Reader ζ β) : Prop :=
  ∀ bs, Matching (fun x y => R x.1 y.1 ∧ x.2 = y.2) (p bs) (q bs)

theorem Matching.refl (o : Outcome ε α) : Matching (fun a b => a = b) o o := by
  cases o with
  | ok a => rfl
  | error e => cases e <;> trivial

/-- How a computation ends: its value and its message are left out. -/
inductive Ending
  | returned
  | refused
  | aborted
  deriving DecidableEq, Repr

/-- How the computation ends. -/
def Outcome.ending : Outcome ε α → Ending
  | .ok _ => .returned
  | .error (.error _) => .refused
  | .error (.panic _) => .aborted

theorem Matching.ending_eq {R : α → β → Prop} {o : Outcome ε α} {o' : Outcome ζ β}
    (h : Matching R o o') : Outcome.ending o = Outcome.ending o' := by
  cases o with
  | ok a =>
      cases o' with
      | ok b => rfl
      | error e => cases e <;> exact h.elim
  | error e =>
      cases o' with
      | ok b => cases e <;> exact h.elim
      | error e' => cases e <;> cases e' <;> first | rfl | exact h.elim

/-- Where one computation returns only what the other one does, they end with the same value
exactly where they end alike. -/
theorem matching_iff_ending_eq {o : Outcome ε α} {o' : Outcome ζ α}
    (h : ∀ a, o' = .ok a → o = .ok a) :
    Matching (fun a b => a = b) o o' ↔ Outcome.ending o = Outcome.ending o' := by
  refine ⟨Matching.ending_eq, fun hending => ?_⟩
  cases o' with
  | ok a =>
      rw [h a rfl]
      rfl
  | error e' =>
      cases o with
      | ok a => cases e' <;> cases hending
      | error e => cases e <;> cases e' <;> trivial

theorem Outcome.ending_map (f : α → β) (o : Outcome ε α) : ending (f <$> o) = ending o := by
  cases o with
  | ok a => rfl
  | error e => cases e <;> rfl

theorem Outcome.ending_eq_returned {o : Outcome ε α} :
    ending o = .returned ↔ ∃ a, o = .ok a := by
  cases o with
  | ok a => simp [ending]
  | error e => cases e <;> simp [ending]

theorem Simulates.refl (p : Reader ε α) : Simulates (fun a b => a = b) p p := by
  intro bs
  cases p bs with
  | ok x => exact ⟨rfl, rfl⟩
  | error e => cases e <;> trivial

theorem Simulates.symm {R : α → β → Prop} {p : Reader ε α} {q : Reader ζ β}
    (h : Simulates R p q) : Simulates (fun b a => R a b) q p := by
  intro bs
  have hstep := h bs
  revert hstep
  cases p bs with
  | ok x =>
      cases q bs with
      | ok y => exact fun hxy => ⟨hxy.1, hxy.2.symm⟩
      | error e => cases e <;> exact id
  | error e =>
      cases q bs with
      | ok y => cases e <;> exact id
      | error e' => cases e <;> cases e' <;> exact id

/-- Readers that end in the same way with the same value return the same. -/
theorem Simulates.eq_ok_iff {p : Reader ε α} {q : Reader ζ α}
    (h : Simulates (fun a b => a = b) p q) {bs : Bytes} {x : α × Bytes} :
    q bs = .ok x ↔ p bs = .ok x := by
  have hstep := h bs
  revert hstep
  cases hp : p bs with
  | ok y =>
      cases hq : q bs with
      | ok z =>
          intro hyz
          obtain rfl : y = z := Prod.ext hyz.1 hyz.2
          simp
      | error e => cases e <;> exact False.elim
  | error e =>
      cases hq : q bs with
      | ok z => cases e <;> exact False.elim
      | error e' => simp

theorem Simulates.pure {R : α → β → Prop} {a : α} {b : β} (h : R a b) :
    Simulates R (Pure.pure a : Reader ε α) (Pure.pure b : Reader ζ β) :=
  fun _ => ⟨h, rfl⟩

theorem Simulates.bind {R : α → β → Prop} {S : γ → δ → Prop} {p : Reader ε α} {q : Reader ζ β}
    {f : α → Reader ε γ} {g : β → Reader ζ δ} (hp : Simulates R p q)
    (hf : ∀ a b, R a b → Simulates S (f a) (g b)) : Simulates S (p >>= f) (q >>= g) := by
  intro bs
  have hstep := hp bs
  rw [Reader.bind_apply, Reader.bind_apply]
  cases hpb : p bs with
  | ok x =>
      cases hqb : q bs with
      | ok y =>
          rw [hpb, hqb] at hstep
          obtain ⟨hrel, hrest⟩ := hstep
          have hnext := hf x.1 y.1 hrel x.2
          rw [hrest] at hnext
          simpa [hrest] using hnext
      | error e => cases e <;> simp [hpb, hqb, Matching] at hstep
  | error e =>
      cases hqb : q bs with
      | ok y => cases e <;> simp [hpb, hqb, Matching] at hstep
      | error e' => cases e <;> cases e' <;> simp_all [Matching]

theorem Simulates.mono {R S : α → β → Prop} {p : Reader ε α} {q : Reader ζ β}
    (h : Simulates R p q) (hRS : ∀ a b, R a b → S a b) : Simulates S p q := by
  intro bs
  have hstep := h bs
  revert hstep
  cases p bs with
  | ok x =>
      cases q bs with
      | ok y => exact fun hxy => ⟨hRS _ _ hxy.1, hxy.2⟩
      | error e => cases e <;> exact id
  | error e =>
      cases q bs with
      | ok y => cases e <;> exact id
      | error e' => cases e <;> cases e' <;> exact id

/-- What is known of the values of the left reader may be used as well. -/
theorem Simulates.and_consumes {R : α → β → Prop} {Q : α → Prop} {k : Nat} {p : Reader ε α}
    {q : Reader ζ β} (h : Simulates R p q) (hp : Consumes k Q p) :
    Simulates (fun a b => R a b ∧ Q a) p q := by
  intro bs
  have hstep := h bs
  have hpost := (hp bs).2
  revert hstep hpost
  cases p bs with
  | ok x =>
      cases q bs with
      | ok y => exact fun hxy hpost => ⟨⟨hxy.1, (hpost x.1 x.2 rfl).2⟩, hxy.2⟩
      | error e => cases e <;> exact fun hxy _ => hxy
  | error e =>
      cases q bs with
      | ok y => cases e <;> exact fun hxy _ => hxy
      | error e' => cases e <;> cases e' <;> exact fun hxy _ => hxy

theorem Simulates.map {R : α → β → Prop} {S : γ → δ → Prop} {p : Reader ε α} {q : Reader ζ β}
    {f : α → γ} {g : β → δ} (hp : Simulates R p q) (hfg : ∀ a b, R a b → S (f a) (g b)) :
    Simulates S (f <$> p) (g <$> q) := by
  have hbind : Simulates S (p >>= fun a => Pure.pure (f a)) (q >>= fun b => Pure.pure (g b)) :=
    hp.bind fun a b hab => Simulates.pure (hfg a b hab)
  simpa [bind_pure_comp] using hbind

theorem Simulates.map_left {P : α → Prop} {Q : γ → Prop} {f : α → γ} {p : Reader ε α}
    {q : Reader ζ β} (h : Simulates (fun x _ => P x) p q) (hf : ∀ x, P x → Q (f x)) :
    Simulates (fun y _ => Q y) (f <$> p) q := by
  rw [← id_map q]
  exact h.map fun x _ hx => hf x hx

theorem Simulates.mapError {ε' ζ' : Type} {R : α → β → Prop} {p : Reader ε α} {q : Reader ζ β}
    (h : Simulates R p q) (f : ε → ε') (g : ζ → ζ') :
    Simulates R (p.mapError f) (q.mapError g) := by
  intro bs
  have hstep := h bs
  revert hstep
  simp only [Reader.mapError]
  cases p bs with
  | ok x =>
      cases q bs with
      | ok y => exact id
      | error e => cases e <;> exact id
  | error e =>
      cases q bs with
      | ok y => cases e <;> exact id
      | error e' => cases e <;> cases e' <;> exact id

theorem Simulates.mapError_right {η : Type} {R : α → β → Prop} {p : Reader ε α} {q : Reader ζ β}
    (h : Simulates R p q) (g : ζ → η) : Simulates R p (q.mapError g) := by
  intro bs
  have hstep := h bs
  revert hstep
  simp only [Reader.mapError]
  cases p bs with
  | ok x =>
      cases q bs with
      | ok y => exact id
      | error e => cases e <;> exact id
  | error e =>
      cases q bs with
      | ok y => cases e <;> exact id
      | error e' => cases e <;> cases e' <;> exact id

theorem Simulates.fail (R : α → β → Prop) (e : ε) (e' : ζ) :
    Simulates R (Reader.fail e) (Reader.fail e') :=
  fun _ => trivial

theorem Simulates.panic (R : α → β → Prop) (p p' : Panic) :
    Simulates R (Reader.panic p : Reader ε α) (Reader.panic p' : Reader ζ β) :=
  fun _ => trivial

theorem Simulates.takeExact (eof : Nat → Nat → ε) (eof' : Nat → Nat → ζ) (n : Nat) :
    Simulates (fun a b => a = b) (Reader.takeExact eof n) (Reader.takeExact eof' n) := by
  intro bs
  by_cases hshort : bs.length < n
  · simp [Reader.takeExact, hshort, Matching]
  · simp [Reader.takeExact, hshort, Matching]

/-- Repeating two readers that simulate each other gives lists of the same length with
related entries. -/
theorem Simulates.readMany {R : α → β → Prop} {p : Reader ε α} {q : Reader ζ β}
    (h : Simulates R p q) (n : Nat) :
    Simulates (fun as bs => List.Forall₂ R as bs ∧ as.length = n) (Reader.readMany p n)
      (Reader.readMany q n) := by
  induction n with
  | zero => exact Simulates.pure ⟨.nil, rfl⟩
  | succ n ih =>
      refine h.bind fun a b hab => ih.bind fun as bs hrest => Simulates.pure ?_
      exact ⟨.cons hab hrest.1, by rw [List.length_cons, hrest.2]⟩

/-- What is known of every value of the left reader. -/
theorem Simulates.readMany_left {P : α → Prop} {p : Reader ε α} {q : Reader ζ β}
    (h : Simulates (fun a _ => P a) p q) (n : Nat) :
    Simulates (fun as _ => as.length = n ∧ ∀ a ∈ as, P a) (Reader.readMany p n)
      (Reader.readMany q n) := by
  induction n with
  | zero => exact Simulates.pure ⟨rfl, by simp⟩
  | succ n ih =>
      refine h.bind fun a _ ha => ih.bind fun as _ has => Simulates.pure ?_
      exact ⟨by rw [List.length_cons, has.1], List.forall_mem_cons.mpr ⟨ha, has.2⟩⟩

theorem Simulates.ofOutcome {R : α → β → Prop} {o : Outcome ε α} {o' : Outcome ζ β}
    (h : Matching R o o') : Simulates R (Reader.ofOutcome o) (Reader.ofOutcome o') := by
  intro bs
  cases o with
  | ok a =>
      cases o' with
      | ok b => exact ⟨h, rfl⟩
      | error e => cases e <;> exact h
  | error e =>
      cases o' with
      | ok b => cases e <;> exact h
      | error e' => cases e <;> cases e' <;> exact h

/-- A reader that computes without reading against one that returns or stops. -/
theorem Simulates.ofOutcome_ok {R : α → β → Prop} {o : Outcome ε α} {a : α} {b : β}
    (ho : o = .ok a) (h : R a b) :
    Simulates R (Reader.ofOutcome o) (Pure.pure b : Reader ζ β) := by
  subst ho
  exact Simulates.pure h

theorem Simulates.ofOutcome_panic (R : α → β → Prop) {o : Outcome ε α} {p : Panic} (p' : Panic)
    (ho : o = .error (.panic p)) :
    Simulates R (Reader.ofOutcome o) (Reader.panic p' : Reader ζ β) := by
  subst ho
  exact Simulates.panic R p p'

/-- The two sides choose their branch by one condition. -/
theorem Simulates.ite {R : α → β → Prop} {c : Prop} [Decidable c] {p p' : Reader ε α}
    {q q' : Reader ζ β} (hpos : c → Simulates R p q) (hneg : ¬c → Simulates R p' q') :
    Simulates R (if c then p else p') (if c then q else q') := by
  by_cases h : c
  · simpa only [if_pos h] using hpos h
  · simpa only [if_neg h] using hneg h

end Simulates

/-! ## Partial agreement -/

section Extends

variable {ε ζ α β : Type}

/-- Everything that `p` returns `q` returns as well, and leaves the same bytes. -/
def Extends (p : Reader ε α) (q : Reader ζ α) : Prop := ∀ bs x, p bs = .ok x → q bs = .ok x

/-- Readers that end in the same way with the same values return the same. -/
theorem Simulates.extends {p : Reader ζ α} {q : Reader ε α}
    (h : Simulates (fun a b => a = b) p q) : Extends q p := by
  intro bs x hq
  have hstep := h bs
  rw [hq] at hstep
  cases hp : p bs with
  | ok y =>
      rw [hp] at hstep
      rw [Prod.ext hstep.1 hstep.2]
  | error e =>
      rw [hp] at hstep
      cases e <;> exact hstep.elim

/-- What holds of everything that `q` returns holds of everything that `p` returns. -/
theorem Yields.of_extends {Q : α → Prop} {p : Reader ε α} {q : Reader ζ α} (hq : Yields Q q)
    (h : Extends p q) : Yields Q p :=
  fun bs x hx => hq bs x (h bs x hx)

theorem Extends.pure (a : α) : Extends (Pure.pure a : Reader ε α) (Pure.pure a : Reader ζ α) := by
  intro bs x h
  obtain rfl : (a, bs) = x := Except.ok.inj h
  rfl

theorem Extends.bind {p : Reader ε α} {q : Reader ζ α} {f : α → Reader ε β} {g : α → Reader ζ β}
    (hp : Extends p q) (hf : ∀ a, Extends (f a) (g a)) : Extends (p >>= f) (q >>= g) := by
  intro bs x h
  rw [Reader.bind_apply] at h ⊢
  obtain ⟨y, hy, hx⟩ := Outcome.bind_eq_ok.mp h
  rw [hp bs y hy, Outcome.ok_bind]
  exact hf y.1 y.2 x hx

theorem Extends.fail (e : ε) (q : Reader ζ α) : Extends (Reader.fail e) q :=
  fun _ _ h => by simp at h

theorem Extends.panic (p : Panic) (q : Reader ζ α) : Extends (Reader.panic p : Reader ε α) q :=
  fun _ _ h => by simp at h

theorem Extends.ofOutcome (o : Outcome ε α) : Extends (Reader.ofOutcome o) (Reader.ofOutcome o) :=
  fun _ _ h => h

theorem Extends.ite {c : Prop} [Decidable c] {p p' : Reader ε α} {q q' : Reader ζ α}
    (hpos : c → Extends p q) (hneg : ¬c → Extends p' q') :
    Extends (if c then p else p') (if c then q else q') := by
  by_cases h : c
  · simpa only [if_pos h] using hpos h
  · simpa only [if_neg h] using hneg h

theorem Extends.readMany {p : Reader ε α} {q : Reader ζ α} (h : Extends p q) (n : Nat) :
    Extends (Reader.readMany p n) (Reader.readMany q n) := by
  induction n with
  | zero => exact Extends.pure []
  | succ n ih => exact h.bind fun a => ih.bind fun as => Extends.pure (a :: as)

end Extends

end Wire
