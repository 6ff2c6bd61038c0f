import ClickhouseArrow.Wire.Words

/-!
# Readers that are polled

An `AsyncReader` is driven by polls over a stream.  A poll takes the octets that are there and
ends with a result, or it meets a point where the stream is not ready and leaves a reader that
goes on from there.  Besides octets a stream may deliver a failure; behind its last signal it has
ended.  `AsyncReader.run` is the plain reader that it is over the octets of a stream, and a poll
does not change what that one returns (`AsyncReader.run_poll`).

`Reader.Repeats` says what a reader makes of a stream when it is called until it stops.
-/

namespace Wire

variable {ι ε α β : Type}

/-- What a poll of a stream may meet. -/
inductive Signal (ι : Type)
  | pending
  | octet (b : UInt8)
  | failed (e : ι)
  deriving DecidableEq, Repr

namespace Signal

/-- The octets up to the first failure. -/
def octets : List (Signal ι) → Bytes
  | [] => []
  | pending :: stream => octets stream
  | octet b :: stream => b :: octets stream
  | failed _ :: _ => []

/-- The first failure; without one the stream ends. -/
def stop : List (Signal ι) → Option ι
  | [] => none
  | failed e :: _ => some e
  | _ :: stream => stop stream

/-- How often the stream is not ready. -/
def delays : List (Signal ι) → Nat
  | [] => 0
  | pending :: stream => delays stream + 1
  | _ :: stream => delays stream

end Signal

/-- A reader that has ended, or awaits an octet; `stopped` is the error it ends with where there is
none, because the stream has ended or has failed. -/
inductive AsyncReader (ι ε α : Type)
  | done (result : Outcome ε α)
  | await (next : UInt8 → AsyncReader ι ε α) (stopped : Option ι → ε)

namespace AsyncReader

protected def bind : AsyncReader ι ε α → (α → AsyncReader ι ε β) → AsyncReader ι ε β
  | done (.ok a), f => f a
  | done (.error e), _ => done (.error e)
  | await next stopped, f => await (fun b => (next b).bind f) stopped

instance : Monad (AsyncReader ι ε) where
  pure a := done (.ok a)
  bind := AsyncReader.bind

def fail (e : ε) : AsyncReader ι ε α := done (.error (.error e))

/-- Exactly `n` octets. -/
def takeExact (stopped : Option ι → ε) : Nat → AsyncReader ι ε Bytes
  | 0 => done (.ok [])
  | n + 1 => await (fun b => (takeExact stopped n).bind fun bs => done (.ok (b :: bs))) stopped

/-- A word, least significant octet first. -/
def getLe (α : Type) [Word α] (stopped : Option ι → ε) : AsyncReader ι ε α := do
  let bytes ← takeExact stopped (Word.width α)
  pure (Word.ofNat (ofLeBytes bytes))

/-- A poll: what becomes of the reader, and the stream that it leaves. -/
def poll : AsyncReader ι ε α → List (Signal ι) → AsyncReader ι ε α × List (Signal ι)
  | done result, stream => (done result, stream)
  | await _ stopped, [] => (done (.error (.error (stopped none))), [])
  | await next stopped, .pending :: stream => (await next stopped, stream)
  | await next _, .octet b :: stream => (next b).poll stream
  | await _ stopped, .failed e :: stream => (done (.error (.error (stopped (some e)))), stream)

/-- `await`: the reader is polled until it ends. -/
def finish : AsyncReader ι ε α → List (Signal ι) → Outcome ε α × List (Signal ι)
  | done result, stream => (result, stream)
  | await _ stopped, [] => (.error (.error (stopped none)), [])
  | await next stopped, .pending :: stream => (await next stopped).finish stream
  | await next _, .octet b :: stream => (next b).finish stream
  | await _ stopped, .failed e :: stream => (.error (.error (stopped (some e))), stream)

/-- The plain reader over the octets of a stream that stops with `stop`. -/
def run (stop : Option ι) : AsyncReader ι ε α → Reader ε α
  | done result, bs => Reader.ofOutcome result bs
  | await _ stopped, [] => .error (.error (stopped stop))
  | await next _, b :: bs => (next b).run stop bs

section Run

variable {stop : Option ι}

@[simp] theorem run_done (result : Outcome ε α) (bs : Bytes) :
    (done result : AsyncReader ι ε α).run stop bs = Reader.ofOutcome result bs := rfl

/-- Readers in a row are plain readers in a row. -/
theorem run_bind (t : AsyncReader ι ε α) (f : α → AsyncReader ι ε β) :
    (t >>= f).run stop = t.run stop >>= fun a => (f a).run stop := by
  funext bs
  show (t.bind f).run stop bs = _
  induction t generalizing bs with
  | done result =>
      cases result with
      | ok a => rfl
      | error e => rfl
  | await next stopped ih =>
      cases bs with
      | nil => rfl
      | cons b bs => exact ih b bs

theorem run_ite {c : Prop} [Decidable c] (t u : AsyncReader ι ε α) :
    (if c then t else u).run stop = if c then t.run stop else u.run stop := by
  split <;> rfl

theorem run_takeExact (stopped : Option ι → ε) (n : Nat) :
    (takeExact stopped n).run stop = Reader.takeExact (fun _ _ => stopped stop) n := by
  funext bs
  induction n generalizing bs with
  | zero => rfl
  | succ n ih =>
      cases bs with
      | nil => rfl
      | cons b bs =>
          show ((takeExact stopped n).bind _).run stop bs = _
          rw [show (takeExact stopped n).bind _ = takeExact stopped n >>= _ from rfl, run_bind,
            Reader.bind_apply, ih, Reader.takeExact, Reader.takeExact, List.length_cons]
          by_cases hshort : bs.length < n
          · rw [if_pos hshort, if_pos (by omega)]
            rfl
          · rw [if_neg hshort, if_neg (by omega)]
            rfl

theorem run_getLe (α : Type) [Word α] (stopped : Option ι → ε) :
    (getLe α stopped : AsyncReader ι ε α).run stop = Wire.getLe α fun _ _ => stopped stop := by
  rw [getLe, run_bind, run_takeExact]
  rfl

/-- What a reader leaves is no longer than what there was. -/
theorem length_le_of_run {t : AsyncReader ι ε α} {bs rest : Bytes} {a : α}
    (h : t.run stop bs = .ok (a, rest)) : rest.length ≤ bs.length := by
  induction t generalizing bs with
  | done result =>
      cases result with
      | ok a' =>
          cases h
          exact le_rfl
      | error e => cases h
  | await next stopped ih =>
      cases bs with
      | nil => cases h
      | cons b bs =>
          have htail := ih b h
          rw [List.length_cons]
          omega

/-- A reader that has not ended takes an octet before it returns a value. -/
theorem length_lt_of_run_await {next : UInt8 → AsyncReader ι ε α} {stopped : Option ι → ε}
    {bs rest : Bytes} {a : α} (h : (await next stopped).run stop bs = .ok (a, rest)) :
    rest.length < bs.length := by
  cases bs with
  | nil => cases h
  | cons b bs =>
      have htail := length_le_of_run (t := next b) h
      rw [List.length_cons]
      omega

end Run

/-- A poll leaves the result of the plain reader as it is. -/
theorem run_poll (t : AsyncReader ι ε α) (stream : List (Signal ι)) :
    (t.poll stream).1.run (Signal.stop (t.poll stream).2) (Signal.octets (t.poll stream).2) =
      t.run (Signal.stop stream) (Signal.octets stream) := by
  induction stream generalizing t with
  | nil =>
      cases t with
      | done result => rfl
      | await next stopped => rfl
  | cons signal stream ih =>
      cases t with
      | done result => rfl
      | await next stopped =>
          cases signal with
          | pending => rfl
          | octet b => exact ih (next b)
          | failed e => rfl

/-- A reader that is awaited ends as the plain one does. -/
theorem run_finish (t : AsyncReader ι ε α) (stream : List (Signal ι)) :
    (∃ a rest, t.finish stream = (.ok a, rest) ∧ Signal.stop rest = Signal.stop stream ∧
        t.run (Signal.stop stream) (Signal.octets stream) = .ok (a, Signal.octets rest)) ∨
      ∃ e rest, t.finish stream = (.error e, rest) ∧
        t.run (Signal.stop stream) (Signal.octets stream) = .error e := by
  induction stream generalizing t with
  | nil =>
      cases t with
      | done result =>
          cases result with
          | ok a => exact .inl ⟨a, [], rfl, rfl, rfl⟩
          | error e => exact .inr ⟨e, [], rfl, rfl⟩
      | await next stopped => exact .inr ⟨_, [], rfl, rfl⟩
  | cons signal stream ih =>
      cases t with
      | done result =>
          cases result with
          | ok a => exact .inl ⟨a, _, rfl, rfl, rfl⟩
          | error e => exact .inr ⟨e, _, rfl, rfl⟩
      | await next stopped =>
          cases signal with
          | pending => exact ih (await next stopped)
          | octet b => exact ih (next b)
          | failed e => exact .inr ⟨_, stream, rfl, rfl⟩

theorem delays_finish_le (t : AsyncReader ι ε α) (stream : List (Signal ι)) :
    Signal.delays (t.finish stream).2 ≤ Signal.delays stream := by
  induction stream generalizing t with
  | nil => cases t <;> exact le_rfl
  | cons signal stream ih =>
      cases t with
      | done result => exact le_rfl
      | await next stopped =>
          cases signal with
          | pending => exact (ih (await next stopped)).trans (Nat.le_succ _)
          | octet b => exact ih (next b)
          | failed e => exact le_rfl

/-- How a poll can end.  With a value it has met no failure, and it has taken an octet unless the
reader had ended before; a reader that goes on has met a delay. -/
theorem poll_cases (t : AsyncReader ι ε α) (stream : List (Signal ι)) :
    (∃ a rest, t.poll stream = (done (.ok a), rest) ∧ Signal.stop rest = Signal.stop stream ∧
        Signal.delays rest = Signal.delays stream ∧
        ((∃ result, t = done result) ∨ rest.length < stream.length)) ∨
      (∃ e rest, t.poll stream = (done (.error e), rest)) ∨
        ∃ next stopped rest, t.poll stream = (await next stopped, rest) ∧
          Signal.stop rest = Signal.stop stream ∧
          Signal.delays rest + 1 = Signal.delays stream := by
  induction stream generalizing t with
  | nil =>
      cases t with
      | done result =>
          cases result with
          | ok a => exact .inl ⟨a, [], rfl, rfl, rfl, .inl ⟨_, rfl⟩⟩
          | error e => exact .inr (.inl ⟨e, [], rfl⟩)
      | await next stopped => exact .inr (.inl ⟨_, [], rfl⟩)
  | cons signal stream ih =>
      cases t with
      | done result =>
          cases result with
          | ok a => exact .inl ⟨a, _, rfl, rfl, rfl, .inl ⟨_, rfl⟩⟩
          | error e => exact .inr (.inl ⟨e, _, rfl⟩)
      | await next stopped =>
          cases signal with
          | pending => exact .inr (.inr ⟨next, stopped, stream, rfl, rfl, rfl⟩)
          | failed e => exact .inr (.inl ⟨_, stream, rfl⟩)
          | octet b =>
              rcases ih (next b) with ⟨a, rest, hpoll, hstop, hdelays, hshort⟩ | hrest
              · refine .inl ⟨a, rest, hpoll, hstop, hdelays, .inr ?_⟩
                rcases hshort with ⟨result, hdone⟩ | hshort
                · -- the octet was the last one that was awaited
                  rw [hdone, poll] at hpoll
                  rw [← (Prod.mk.inj hpoll).2, List.length_cons]
                  exact Nat.lt_succ_self _
                · rw [List.length_cons]
                  omega
              · exact .inr hrest

end AsyncReader

namespace Reader

/-- A result of the reader and those of its further calls, each behind the bytes that the one before
has left, up to the one that stops with `fault`. -/
inductive Repeats (p : Reader ε α) : Outcome ε (α × Bytes) → List α → Fault ε → Prop
  | stops (fault : Fault ε) : Repeats p (.error fault) [] fault
  | goesOn {a : α} {rest : Bytes} {as : List α} {fault : Fault ε}
      (h : Repeats p (p rest) as fault) : Repeats p (.ok (a, rest)) (a :: as) fault

/-- A reader that takes bytes whenever it returns comes to a stop. -/
theorem exists_repeats {p : Reader ε α}
    (h : ∀ bs a rest, p bs = .ok (a, rest) → rest.length < bs.length) (bs : Bytes) :
    ∃ as fault, Repeats p (p bs) as fault := by
  induction hlength : bs.length using Nat.strongRecOn generalizing bs with
  | _ n ih =>
    subst hlength
    cases hresult : p bs with
    | error fault => exact ⟨[], fault, .stops fault⟩
    | ok x =>
        obtain ⟨as, fault, hrest⟩ := ih x.2.length (h bs x.1 x.2 hresult) x.2 rfl
        exact ⟨x.1 :: as, fault, .goesOn hrest⟩

end Reader

end Wire
