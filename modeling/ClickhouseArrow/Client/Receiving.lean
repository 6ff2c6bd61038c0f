import ClickhouseArrow.Client.PacketReader
import ClickhouseArrow.Client.Scheduling

/-!
# The loop of a connection over its bytes

The server's bytes arrive in any pieces, between the operations that are taken from the
channel.  A pending receive keeps what it has taken from the socket in its future, and
`select!` drops the future when an operation is ready: the bytes are gone.  The books of a
run are the bytes that have arrived, those that each packet was parsed from, and those that
were dropped.
-/

namespace ClickhouseArrow

open Wire Transition

/-- A connection with its socket: the bytes that the pending receive has taken, and those
that it has not. -/
structure Connection (D : Type) where
  loop : InternalConn D
  taken : Bytes
  unread : Bytes

/-- Bytes arrive, the pending receive is polled, or the loop goes on without the socket.
`io` tells which writes fail that follow the packet of the poll. -/
inductive Event (D : Type)
  | arrive (bytes : Bytes)
  | poll (io : Io)
  | input (i : Input D)

namespace Connection

variable {D : Type} (format : ClientFormat D) (revision : UInt64) (chunked : Bool)

def new : Connection D := ⟨.new, [], []⟩

/-- The receive that the loop awaits. -/
def awaited (c : InternalConn D) : Option (Future (Packet D)) :=
  match c.phase, c.executing with
  | .select, some e =>
    match e.state with
    | .header => some (PacketReader.receiveHeader format revision)
    | .inProgress => some (PacketReader.receivePacket format revision)
  | .pinging _, _ => some (PacketReader.receivePacket format revision)
  | _, _ => none

/-- A poll of the pending receive: it goes on where it has stopped, after the bytes that it
has taken. -/
def polled (k : Connection D) : Option (Future (Packet D) × Bytes) :=
  (awaited format revision k.loop).map fun receive =>
    ((receive.feed k.taken).1).feed ((receive.feed k.taken).2 ++ k.unread)

/-- The bytes of a receive that has ended and left `rest`. -/
def consumed (k : Connection D) (rest : Bytes) : Bytes :=
  Future.before (k.taken ++ k.unread) rest

/-- The end of a receive as an input of the loop. -/
def completed (result : Option (Packet D)) (io : Io) : Input D :=
  match result with
  | some p => .packet p io
  | none => .readError

/-- An input of the loop that is no end of a receive. -/
def offSocket : Input D → Bool
  | .packet _ _ | .readError => false
  | _ => true

/-- An operation is the branch of `select!` that drops the pending receive and goes on. -/
def dropsReceive : Input D → Bool
  | .operation _ _ _ => true
  | _ => false

/-- `run` and `run_chunked` with the socket. -/
def step : Machine (Connection D) (Event D) (Effect D) := fun k event =>
  match event with
  | .arrive bytes => some ({ k with unread := k.unread ++ bytes }, [])
  | .poll io =>
    match polled format revision k with
    | none => none
    | some (.read _, _) => some ({ k with taken := k.taken ++ k.unread, unread := [] }, [])
    | some (.ready result, rest) =>
      (InternalConn.step chunked k.loop (completed result io)).map fun r =>
        -- the error of a packet ends the loop, but not the wait for a pong
        let taken := if result.isNone && !r.1.alive then k.consumed rest else []
        (⟨r.1, taken, rest⟩, r.2)
  | .input i =>
    if offSocket i then
      (InternalConn.step chunked k.loop i).map fun r =>
        ({ k with loop := r.1, taken := if dropsReceive i then [] else k.taken }, r.2)
    else none

/-! ## What one step does -/

/-- The four things that a step can be. -/
inductive Step (k : Connection D) : Event D → Connection D → List (Effect D) → Prop
  | arrive (bytes : Bytes) : Step k (.arrive bytes) ⟨k.loop, k.taken, k.unread ++ bytes⟩ []
  | wait {io : Io} {receive : Future (Packet D)} {next : UInt8 → Future (Packet D)}
      (hawaited : awaited format revision k.loop = some receive)
      (hfeed : receive.feed (k.taken ++ k.unread) = (.read next, [])) :
      Step k (.poll io) ⟨k.loop, k.taken ++ k.unread, []⟩ []
  | receive {io : Io} {receive : Future (Packet D)} {result : Option (Packet D)}
      {bytes rest : Bytes} {loop' : InternalConn D} {out : List (Effect D)}
      (hawaited : awaited format revision k.loop = some receive)
      (hfeed : receive.feed bytes = (.ready result, []))
      (hbytes : k.taken ++ k.unread = bytes ++ rest)
      (hstep : InternalConn.step chunked k.loop (completed result io) = some (loop', out)) :
      Step k (.poll io) ⟨loop', if result.isNone && !loop'.alive then bytes else [], rest⟩ out
  | input {i : Input D} {loop' : InternalConn D} {out : List (Effect D)}
      (hoff : offSocket i = true)
      (hstep : InternalConn.step chunked k.loop i = some (loop', out)) :
      Step k (.input i) ⟨loop', if dropsReceive i then [] else k.taken, k.unread⟩ out

variable {format revision chunked}

theorem polled_eq {k : Connection D} {receive : Future (Packet D)}
    (h : awaited format revision k.loop = some receive) :
    polled format revision k = some (receive.feed (k.taken ++ k.unread)) := by
  rw [polled, h, Option.map_some, Future.feed_append receive k.taken k.unread]

/-- A receive that ends leaves the bytes that it has not needed. -/
theorem polled_of_feed {k : Connection D} {receive : Future (Packet D)}
    {result : Option (Packet D)} {bytes rest : Bytes}
    (hawaited : awaited format revision k.loop = some receive)
    (hfeed : receive.feed bytes = (.ready result, []))
    (hbytes : k.taken ++ k.unread = bytes ++ rest) :
    polled format revision k = some (.ready result, rest) := by
  rw [polled_eq hawaited, hbytes, Future.feed_append, hfeed, List.nil_append, Future.feed_ready]

theorem polled_of_awaited_none {k : Connection D}
    (h : awaited format revision k.loop = none) : polled format revision k = none := by
  rw [polled, h, Option.map_none]

theorem consumed_eq {k : Connection D} {bytes rest : Bytes}
    (h : k.taken ++ k.unread = bytes ++ rest) : k.consumed rest = bytes := by
  rw [consumed, h, Future.before_append]

theorem step_cases {k k' : Connection D} {event : Event D} {out : List (Effect D)}
    (h : step format revision chunked k event = some (k', out)) :
    Step format revision chunked k event k' out := by
  cases event with
  | arrive bytes =>
    cases h
    exact .arrive bytes
  | poll io =>
    rw [step] at h
    cases hawaited : awaited format revision k.loop with
    | none =>
      rw [polled_of_awaited_none hawaited] at h
      cases h
    | some receive =>
      rw [polled_eq hawaited] at h
      -- the receive takes the bytes that it has kept, and then those that are there
      match hfeed : receive.feed (k.taken ++ k.unread) with
      | (.read next, rest) =>
        obtain rfl := Future.feed_pending hfeed
        rw [hfeed] at h
        cases h
        exact .wait hawaited hfeed
      | (.ready result, rest) =>
        obtain ⟨bytes, hbytes, htaken⟩ := Future.exists_feed hfeed
        rw [hfeed] at h
        obtain ⟨⟨loop', out'⟩, hstep, hr⟩ := Option.map_eq_some_iff.mp h
        rw [consumed_eq hbytes] at hr
        cases hr
        exact .receive hawaited htaken hbytes hstep
  | input i =>
    rw [step] at h
    split at h
    · rename_i hoff
      obtain ⟨⟨loop', out'⟩, hstep, hr⟩ := Option.map_eq_some_iff.mp h
      cases hr
      exact .input hoff hstep
    · cases h

/-! ## The books -/

/-- A packet that a receive has read, and the bytes that it was parsed from. -/
structure Receipt (D : Type) where
  receive : Future (Packet D)
  bytes : Bytes
  packet : Packet D

variable (format revision)

/-- The bytes that arrive with an event. -/
def arrival : Event D → Bytes
  | .arrive bytes => bytes
  | _ => []

/-- The packet that an event has the loop act upon. -/
def receipt (k : Connection D) (event : Event D) : List (Receipt D) :=
  match event, awaited format revision k.loop, polled format revision k with
  | .poll _, some receive, some (.ready (some p), rest) => [⟨receive, k.consumed rest, p⟩]
  | _, _, _ => []

/-- The bytes that were taken from the socket for a packet that nothing acts upon: those of
a receive that is dropped, and those of a failure that `receive_ping` has returned. -/
def discarded (k : Connection D) (event : Event D) : Bytes :=
  match event with
  | .arrive _ => []
  | .poll _ =>
    match k.loop.phase, polled format revision k with
    | .pinging _, some (.ready none, rest) => k.consumed rest
    | _, _ => []
  | .input i => if dropsReceive i then k.taken else []

/-- A move as one of the loop. -/
def looped (v : Move (Connection D) (Event D) (Effect D)) : InternalConn.History D :=
  match v.input with
  | .arrive _ => []
  | .poll io =>
    match polled format revision v.before with
    | some (.ready result, _) => [⟨v.before.loop, completed result io, v.out, v.after.loop⟩]
    | _ => []
  | .input i => [⟨v.before.loop, i, v.out, v.after.loop⟩]

/-- An operation is taken while the pending receive has taken part of a packet, an operation
or a shutdown while a response waits for room, or the answer to a ping is no packet. -/
def disturbs (k : Connection D) (event : Event D) : Bool :=
  match event with
  | .arrive _ => false
  | .poll _ =>
    match k.loop.phase, polled format revision k with
    | .pinging _, some (.ready none, _) => true
    | _, _ => false
  | .input i => (dropsReceive i && !k.taken.isEmpty) || InternalConn.overtakes k.loop i

variable {format revision}

/-- A receive ends with an error: the loop returns, and the wait for a pong does not. -/
theorem step_readError {c c' : InternalConn D} {out : List (Effect D)}
    (h : InternalConn.step chunked c .readError = some (c', out)) :
    (c.phase = .select ∧ c'.alive = false) ∨
      ((∃ response, c.phase = .pinging response) ∧ c'.alive = true) := by
  simp only [InternalConn.step] at h
  split at h
  · rename_i hphase _
    cases h
    exact .inl ⟨hphase, rfl⟩
  · rename_i response hphase
    cases h
    exact .inr ⟨⟨response, hphase⟩, rfl⟩
  · cases h

/-- No byte is lost but the ones that are discarded. -/
theorem step_bytes {k k' : Connection D} {event : Event D} {out : List (Effect D)}
    (h : Step format revision chunked k event k' out) :
    k.taken ++ k.unread ++ arrival event =
      (receipt format revision k event).flatMap Receipt.bytes ++
        (discarded format revision k event ++ (k'.taken ++ k'.unread)) := by
  cases h with
  | arrive bytes => simp [arrival, receipt, discarded]
  | wait hawaited hfeed =>
    simp [arrival, receipt, discarded, hawaited, polled_eq hawaited, hfeed]
  | @receive io receive result bytes rest loop' out hawaited hfeed hbytes hstep =>
    have hpolled := polled_of_feed hawaited hfeed hbytes
    cases result with
    | some p =>
      simp [arrival, receipt, discarded, hawaited, hpolled, consumed_eq hbytes, hbytes]
    | none =>
      rcases step_readError hstep with ⟨hphase, halive⟩ | ⟨⟨response, hphase⟩, halive⟩
      · simp [arrival, receipt, discarded, hawaited, hpolled, hphase, halive, hbytes]
      · simp [arrival, receipt, discarded, hawaited, hpolled, hphase, halive, hbytes,
          consumed_eq hbytes]
  | @input i loop' out hoff hstep =>
    cases hdrops : dropsReceive i <;> simp [arrival, receipt, discarded, hdrops]

/-- A packet is what its receive makes of its bytes, and of nothing else. -/
theorem receipt_parsed {k k' : Connection D} {event : Event D} {out : List (Effect D)}
    (h : Step format revision chunked k event k' out) :
    ∀ r ∈ receipt format revision k event,
      r.receive.feed r.bytes = (.ready (some r.packet), []) := by
  intro r hr
  cases h with
  | arrive bytes => simp [receipt] at hr
  | wait hawaited hfeed => simp [receipt, hawaited, polled_eq hawaited, hfeed] at hr
  | @receive io receive result bytes rest loop' out hawaited hfeed hbytes hstep =>
    have hpolled := polled_of_feed hawaited hfeed hbytes
    cases result with
    | some p =>
      simp only [receipt, hawaited, hpolled, consumed_eq hbytes, List.mem_singleton] at hr
      subst hr
      exact hfeed
    | none => simp [receipt, hawaited, hpolled] at hr
  | input hoff hstep => simp [receipt] at hr

/-- What a step does to the loop: nothing, or one move. -/
theorem step_loop {k k' : Connection D} {event : Event D} {out : List (Effect D)}
    (h : Step format revision chunked k event k' out) :
    (looped format revision ⟨k, event, out, k'⟩ = [] ∧ k'.loop = k.loop) ∨
      ∃ i, looped format revision ⟨k, event, out, k'⟩ = [⟨k.loop, i, out, k'.loop⟩] ∧
        InternalConn.step chunked k.loop i = some (k'.loop, out) := by
  cases h with
  | arrive bytes => exact .inl ⟨rfl, rfl⟩
  | wait hawaited hfeed =>
    refine .inl ⟨?_, rfl⟩
    simp only [looped, polled_eq hawaited, hfeed]
  | receive hawaited hfeed hbytes hstep =>
    refine .inr ⟨_, ?_, hstep⟩
    simp only [looped, polled_of_feed hawaited hfeed hbytes]
  | input hoff hstep => exact .inr ⟨_, rfl, hstep⟩

/-- A receive awaits a byte before it ends. -/
theorem awaited_feed_nil {c : InternalConn D} {receive : Future (Packet D)}
    (h : awaited format revision c = some receive) : ∃ next, receive = .read next := by
  unfold awaited at h
  split at h
  · split at h
    · cases h
      exact ⟨_, rfl⟩
    · cases h
      exact ⟨_, rfl⟩
  · cases h
    exact ⟨_, rfl⟩
  · cases h

/-- A step is undisturbed if it discards no byte and overtakes no response. -/
theorem disturbs_eq_false {k k' : Connection D} {event : Event D} {out : List (Effect D)}
    (h : Step format revision chunked k event k' out) :
    disturbs format revision k event = false ↔
      discarded format revision k event = [] ∧
        (looped format revision ⟨k, event, out, k'⟩).Patient := by
  cases h with
  | arrive bytes => simp [disturbs, discarded, looped, InternalConn.History.Patient]
  | wait hawaited hfeed =>
    simp [disturbs, discarded, looped, InternalConn.History.Patient, polled_eq hawaited, hfeed]
  | @receive io receive result bytes rest loop' out hawaited hfeed hbytes hstep =>
    have hpolled := polled_of_feed hawaited hfeed hbytes
    have hcalm : InternalConn.overtakes k.loop (completed result io) = false := by
      cases result <;> simp [completed, InternalConn.overtakes]
    have hsome : bytes ≠ [] := by
      obtain ⟨next, rfl⟩ := awaited_feed_nil hawaited
      rintro rfl
      cases hfeed
    cases result with
    | some p => simp [disturbs, discarded, looped, InternalConn.History.Patient, hpolled, hcalm]
    | none =>
      rcases step_readError hstep with ⟨hphase, -⟩ | ⟨⟨response, hphase⟩, -⟩
      · simp [disturbs, discarded, looped, InternalConn.History.Patient, hpolled, hcalm, hphase]
      · simp [disturbs, discarded, hpolled, hphase, consumed_eq hbytes, hsome]
  | @input i loop' out hoff hstep =>
    cases hdrops : dropsReceive i <;>
      simp [disturbs, discarded, looped, InternalConn.History.Patient, hdrops]

/-! ## Runs -/

/-- The moves of a connection with its socket. -/
abbrev History (D : Type) := List (Move (Connection D) (Event D) (Effect D))

namespace History

/-- The server's byte stream, as far as it has arrived. -/
def arrivals (past : History D) : Bytes := past.flatMap fun v => arrival v.input

variable (format revision)

/-- The packets that have been acted upon. -/
def receipts (past : History D) : List (Receipt D) :=
  past.flatMap fun v => receipt format revision v.before v.input

def discarded (past : History D) : Bytes :=
  past.flatMap fun v => Connection.discarded format revision v.before v.input

def looped (past : History D) : InternalConn.History D :=
  past.flatMap (Connection.looped format revision)

/-- Nothing has disturbed the receives. -/
def Undisturbed (past : History D) : Prop :=
  ∀ v ∈ past, disturbs format revision v.before v.input = false

end History

section Concat

variable (past : History D) (v : Move (Connection D) (Event D) (Effect D))

@[simp] theorem arrivals_concat :
    History.arrivals (past ++ [v]) = past.arrivals ++ arrival v.input := by
  simp [History.arrivals]

@[simp] theorem receipts_concat :
    History.receipts format revision (past ++ [v]) =
      past.receipts format revision ++ receipt format revision v.before v.input := by
  simp [History.receipts]

@[simp] theorem discarded_concat :
    History.discarded format revision (past ++ [v]) =
      past.discarded format revision ++ discarded format revision v.before v.input := by
  simp [History.discarded]

@[simp] theorem looped_concat :
    History.looped format revision (past ++ [v]) =
      past.looped format revision ++ looped format revision v := by
  simp [History.looped]

end Concat

variable (format revision)

/-- The books of the bytes and of the loop in a run. -/
structure Books (past : History D) (k : Connection D) : Prop where
  parsed : ∀ r ∈ past.receipts format revision,
    r.receive.feed r.bytes = (.ready (some r.packet), [])
  covers : past.discarded format revision = [] →
    past.arrivals =
      (past.receipts format revision).flatMap Receipt.bytes ++ (k.taken ++ k.unread)
  counted : past.arrivals.length =
    ((past.receipts format revision).flatMap Receipt.bytes).length +
      ((past.discarded format revision).length + (k.taken ++ k.unread).length)
  undisturbed : past.Undisturbed format revision ↔
    past.discarded format revision = [] ∧ (past.looped format revision).Patient
  queue : InternalConn.QueueBooks (past.looped format revision) k.loop
  responses : InternalConn.ResponseBooks (past.looped format revision) k.loop

/-- The packets that have been acted upon are those of the server's byte stream, each parsed
from its own bytes: a reader that is never interrupted makes the same of the stream, and
leaves the bytes that the pending receive has taken and those it has not.  The responses are
sent, in order and each once, to the channel of the query that was executing, up to one that
waits for room. -/
structure InStep (past : History D) (k : Connection D) : Prop where
  stream :
    Future.feedAll ((past.receipts format revision).map Receipt.receive) past.arrivals =
      ((past.receipts format revision).map fun r => (r.bytes, r.packet), k.taken ++ k.unread)
  routed : (past.looped format revision).receipts =
    InternalConn.delivered (past.looped format revision).effects ++ k.loop.waitingItem

variable {format revision}

/-- The books of a run tell whether it has stayed in step. -/
theorem Books.inStep_iff {past : History D} {k : Connection D}
    (hbooks : Books format revision past k) :
    InStep format revision past k ↔ past.Undisturbed format revision := by
  rw [hbooks.undisturbed]
  constructor
  · intro h
    -- the stream is covered to its last byte, so that none has been discarded
    have hcovered : (past.receipts format revision).flatMap Receipt.bytes ++
        (k.taken ++ k.unread) = past.arrivals := by
      have hbytes := Future.feedAll_bytes
        ((past.receipts format revision).map Receipt.receive) past.arrivals
      rw [h.stream, List.flatMap_map] at hbytes
      exact hbytes
    have hdiscarded : past.discarded format revision = [] := by
      have hcounted := hbooks.counted
      rw [← hcovered, List.length_append] at hcounted
      exact List.length_eq_zero_iff.mp (by omega)
    refine ⟨hdiscarded, ?_⟩
    by_contra himpatient
    have hdropped := List.length_pos_iff.mpr (hbooks.responses.overtaken himpatient)
    have hcounted := hbooks.responses.counted
    have hrouted := congrArg List.length h.routed
    rw [List.length_append] at hrouted
    omega
  · rintro ⟨hdiscarded, hpatient⟩
    constructor
    · rw [hbooks.covers hdiscarded]
      exact Future.feedAll_map hbooks.parsed _
    · exact (hbooks.responses.routed hpatient).1

theorem books_step {past : History D} {k k' : Connection D} {event : Event D}
    {out : List (Effect D)} (hbooks : Books format revision past k)
    (h : Step format revision chunked k event k' out) :
    Books format revision (past ++ [⟨k, event, out, k'⟩]) k' := by
  have hbytes := step_bytes h
  have hlength := congrArg List.length hbytes
  let looped' := past.looped format revision ++ looped format revision ⟨k, event, out, k'⟩
  have hloop : InternalConn.QueueBooks looped' k'.loop ∧
      InternalConn.ResponseBooks looped' k'.loop := by
    unfold looped'
    -- the loop makes one move of its own, or none
    rcases step_loop h with ⟨hnone, hsame⟩ | ⟨i, hone, hstep⟩
    · rw [hnone, List.append_nil, hsame]
      exact ⟨hbooks.queue, hbooks.responses⟩
    · rw [hone]
      exact InternalConn.books_step hbooks.queue hbooks.responses hstep
  refine ⟨?_, ?_, ?_, ?_, ?_, ?_⟩
  · rw [receipts_concat]
    intro r hr
    rcases List.mem_append.mp hr with hr | hr
    · exact hbooks.parsed r hr
    · exact receipt_parsed h r hr
  · rw [discarded_concat, List.append_eq_nil_iff]
    rintro ⟨hpast, hnow⟩
    have hnow' : discarded format revision k event = [] := hnow
    rw [hnow', List.nil_append] at hbytes
    rw [arrivals_concat, receipts_concat, hbooks.covers hpast, List.flatMap_append,
      List.append_assoc, hbytes, List.append_assoc]
  · have hcounted := hbooks.counted
    simp only [arrivals_concat, receipts_concat, discarded_concat, List.flatMap_append,
      List.length_append] at hcounted hlength ⊢
    omega
  · have hpatient : (past.looped format revision ++
        looped format revision ⟨k, event, out, k'⟩).Patient ↔
          (past.looped format revision).Patient ∧
            (looped format revision ⟨k, event, out, k'⟩).Patient := by
      unfold InternalConn.History.Patient
      exact List.forall_mem_append
    rw [discarded_concat, looped_concat, List.append_eq_nil_iff, hpatient]
    unfold History.Undisturbed
    rw [List.forall_mem_append, List.forall_mem_singleton, disturbs_eq_false h]
    have := hbooks.undisturbed
    unfold History.Undisturbed at this
    rw [this]
    tauto
  · rw [looped_concat]
    exact hloop.1
  · rw [looped_concat]
    exact hloop.2

variable (format revision chunked)

/-- The history of a new connection under a list of events. -/
def history (events : List (Event D)) : History D :=
  (step format revision chunked).moves new events

/-- The state that a new connection is led to. -/
def reached (events : List (Event D)) : Connection D :=
  (step format revision chunked).final new events

theorem books_new : Books format revision ([] : History D) new := by
  have hundisturbed : History.Undisturbed format revision ([] : History D) := by
    simp [History.Undisturbed]
  have hpatient : InternalConn.History.Patient ([] : InternalConn.History D) := by
    simp [InternalConn.History.Patient]
  obtain ⟨hqueue, hresponses⟩ := InternalConn.books_new (D := D)
  exact
    { parsed := by simp [History.receipts]
      covers := by simp [History.arrivals, History.receipts, new]
      counted := by simp [History.arrivals, History.receipts, History.discarded, new]
      undisturbed := ⟨fun _ => ⟨rfl, hpatient⟩, fun _ => hundisturbed⟩
      queue := hqueue
      responses := hresponses }

theorem books_reached (events : List (Event D)) :
    Books format revision (history format revision chunked events)
      (reached format revision chunked events) :=
  Machine.invariant (books_new format revision)
    (fun _ _ _ _ _ hbooks h => books_step hbooks (step_cases h)) events

/-- No packet is lost or misparsed exactly where nothing disturbs the receives. -/
theorem inStep_iff_undisturbed (events : List (Event D)) :
    InStep format revision (history format revision chunked events)
        (reached format revision chunked events) ↔
      (history format revision chunked events).Undisturbed format revision :=
  (books_reached format revision chunked events).inStep_iff

/-- A client format that reads no block. -/
def blockless : ClientFormat Nat := ⟨.fail, .fail, .fail⟩

/-- The first byte of a progress packet has been taken when a second query arrives: the
numbers of the packet are read as ends of streams. -/
def cutShort : List (Event Nat) :=
  [.input (.operation [1] (.query "SELECT" 10 none) none), .arrive [3], .poll none,
    .input (.operation [2] (.query "SELECT" 20 none) none), .arrive [5, 5, 5, 5, 5, 5, 5],
    .poll none]

theorem not_inStep_cutShort :
    ¬ InStep blockless 54469 (history blockless 54469 false cutShort)
      (reached blockless 54469 false cutShort) := by
  intro h
  have hleft := congrArg Prod.snd h.stream
  revert hleft
  decide

end Connection

end ClickhouseArrow
