import ClickhouseArrow.Client.InternalConn

/-!
# Scheduling of queries and routing of their responses

The history of a connection is the list of its moves.  From it are read off the queries
that have arrived and those that have been written, the number of queries that have ended,
and the responses that have been received and delivered.  One lemma for each function of
the loop says how it changes these (`Tracks`); the invariant of a run follows from them.
-/

namespace ClickhouseArrow

open Wire Transition

namespace InternalConn

variable {D : Type}

/-! ## What is read off the effects and the inputs -/

/-- The queries that are written. -/
def written (effects : List (Effect D)) : List PendingQuery :=
  effects.filterMap fun
    | .write (.query q) => some q
    | _ => none

/-- The number of response channels that are closed, one at the end of each query. -/
def closes (effects : List (Effect D)) : Nat :=
  effects.countP fun
    | .close _ => true
    | _ => false

/-- The responses that are sent to a channel, also where its receiver is gone. -/
def delivered (effects : List (Effect D)) : List (Token × Response D) :=
  effects.filterMap fun
    | .deliver channel item | .refuse channel item => some (channel, item)
    | _ => none

/-- The responses that are dropped with the pending receive. -/
def dropped (effects : List (Effect D)) : List (Token × Response D) :=
  effects.filterMap fun
    | .abandon channel item => some (channel, item)
    | _ => none

/-- The response that waits for room. -/
def waitingItem (c : InternalConn D) : List (Token × Response D) :=
  match c.phase, c.executing with
  | .waiting item, some e => [(e.response.token, item)]
  | _, _ => []

/-- The query id of the executing query. -/
def current (c : InternalConn D) : List Qid :=
  (c.executing.map ExecutingQuery.qid).toList

/-- The query that arrives with an input. -/
def arrival : Input D → List PendingQuery
  | .operation qid (.query query response header) _ => [⟨qid, query, response, header⟩]
  | _ => []

/-- The response that a packet carries. -/
def carried (e : ExecutingQuery) (p : ServerPacket D) : List (Token × Response D) :=
  match p with
  | .data block => [(e.response.token, .data block)]
  | .exception ex => [(e.response.token, .exception ex)]
  | _ => []

/-- The response that is received with an input: the channel is the one of the query that
is executing. -/
def received (c : InternalConn D) (input : Input D) : List (Token × Response D) :=
  match input, c.phase, c.executing with
  | .packet p _, .select, some e => ((read e p).map (carried e)).getD []
  | _, _, _ => []

@[simp] theorem written_nil : written ([] : List (Effect D)) = [] := rfl

@[simp] theorem written_append (a b : List (Effect D)) :
    written (a ++ b) = written a ++ written b := by
  simp [written]

@[simp] theorem closes_nil : closes ([] : List (Effect D)) = 0 := rfl

@[simp] theorem closes_append (a b : List (Effect D)) :
    closes (a ++ b) = closes a + closes b := by
  simp [closes]

@[simp] theorem delivered_nil : delivered ([] : List (Effect D)) = [] := rfl

@[simp] theorem delivered_append (a b : List (Effect D)) :
    delivered (a ++ b) = delivered a ++ delivered b := by
  simp [delivered]

@[simp] theorem dropped_nil : dropped ([] : List (Effect D)) = [] := rfl

@[simp] theorem dropped_append (a b : List (Effect D)) :
    dropped (a ++ b) = dropped a ++ dropped b := by
  simp [dropped]

@[simp] theorem written_close (channel : Token) (effects : List (Effect D)) :
    written (.close channel :: effects) = written effects := rfl

@[simp] theorem closes_close (channel : Token) (effects : List (Effect D)) :
    closes (.close channel :: effects) = closes effects + 1 := by
  simp [closes]

@[simp] theorem delivered_close (channel : Token) (effects : List (Effect D)) :
    delivered (.close channel :: effects) = delivered effects := rfl

@[simp] theorem dropped_close (channel : Token) (effects : List (Effect D)) :
    dropped (.close channel :: effects) = dropped effects := rfl

section Sent

variable (ch : ResponseChannel) (item : Response D) (effects : List (Effect D))

@[simp] theorem written_sent : written (ch.sent item :: effects) = written effects := by
  unfold ResponseChannel.sent
  split <;> rfl

@[simp] theorem closes_sent : closes (ch.sent item :: effects) = closes effects := by
  unfold ResponseChannel.sent
  split <;> simp [closes]

@[simp] theorem delivered_sent :
    delivered (ch.sent item :: effects) = (ch.token, item) :: delivered effects := by
  unfold ResponseChannel.sent
  split <;> rfl

@[simp] theorem dropped_sent : dropped (ch.sent item :: effects) = dropped effects := by
  unfold ResponseChannel.sent
  split <;> rfl

end Sent

/-- An effect that no book records. -/
def quiet : Effect D → Bool
  | .write (.query _) | .deliver _ _ | .refuse _ _ | .abandon _ _ | .close _ => false
  | _ => true

/-- Quiet effects change none of the books. -/
theorem quiet_books {effects : List (Effect D)} (h : ∀ x ∈ effects, quiet x = true) :
    written effects = [] ∧ closes effects = 0 ∧ delivered effects = [] ∧
      dropped effects = [] := by
  refine ⟨?_, ?_, ?_, ?_⟩
  · refine List.filterMap_eq_nil_iff.mpr fun x hx => ?_
    have := h x hx
    split <;> simp_all [quiet]
  · refine List.countP_eq_zero.mpr fun x hx => ?_
    have := h x hx
    split <;> simp_all [quiet]
  · refine List.filterMap_eq_nil_iff.mpr fun x hx => ?_
    have := h x hx
    split <;> simp_all [quiet]
  · refine List.filterMap_eq_nil_iff.mpr fun x hx => ?_
    have := h x hx
    split <;> simp_all [quiet]

theorem attempt_isPrefix (io : Io) (effects : List (Effect D)) :
    (attempt io effects).1 <+: effects := by
  induction io, effects using attempt.induct with
  | case1 => simp [attempt]
  | case2 w effects => simp [attempt]
  | case3 n w effects ih => simpa [attempt, List.prefix_cons_inj] using ih
  | case4 io x effects _ _ ih => simpa [attempt, List.prefix_cons_inj] using ih

theorem attempt_quiet {io : Io} {effects : List (Effect D)}
    (h : ∀ x ∈ effects, quiet x = true) : ∀ x ∈ (attempt io effects).1, quiet x = true :=
  fun x hx => h x ((attempt_isPrefix io effects).subset hx)

theorem flush_quiet (chunked : Bool) :
    ∀ x ∈ (flush chunked : List (Effect D)), quiet x = true := by
  cases chunked <;> simp [flush, quiet]

/-! ## What each function of the loop does to the books -/

/-- The books of one move from `c` that ends in `r`: `arrivals` have come with its input
and `items` have been received with it. -/
structure Tracks (c : InternalConn D) (arrivals : List PendingQuery)
    (items : List (Token × Response D)) (r : InternalConn D × List (Effect D)) : Prop where
  queue : written r.2 ++ r.1.pending = c.pending ++ arrivals
  ended : closes r.2 ≤ (c.current ++ (written r.2).map PendingQuery.qid).length
  current : r.1.alive = true →
    r.1.current = (c.current ++ (written r.2).map PendingQuery.qid).drop (closes r.2)
  settled : (c.executing = none → c.pending = []) →
    r.1.alive = true → r.1.executing = none → r.1.pending = []
  routed : c.waitingItem ++ items = delivered r.2 ++ r.1.waitingItem
  kept : dropped r.2 = []
  waits : ∀ item, r.1.phase = .waiting item → r.1.executing ≠ none

/-- A move with quiet effects that changes neither the queue nor the executing query. -/
theorem tracks_quiet {c c' : InternalConn D} {effects : List (Effect D)}
    (hquiet : ∀ x ∈ effects, quiet x = true) (hpending : c'.pending = c.pending)
    (hcurrent : c'.executing.map ExecutingQuery.qid = c.executing.map ExecutingQuery.qid)
    (hwaiting : c.waitingItem = c'.waitingItem) (hphase : ∀ item, c'.phase ≠ .waiting item) :
    Tracks c [] [] (c', effects) := by
  obtain ⟨hwritten, hcloses, hdelivered, hdropped⟩ := quiet_books hquiet
  have hsame : c'.current = c.current := congrArg Option.toList hcurrent
  refine ⟨?_, ?_, ?_, ?_, ?_, hdropped, fun item h => absurd h (hphase item)⟩
  · simp [hwritten, hpending]
  · simp [hcloses]
  · intro _
    simp [hwritten, hcloses, hsame]
  · intro hsettled _ hnone
    have hnone' : c.executing.map ExecutingQuery.qid = none := by
      rw [← hcurrent, hnone, Option.map_none]
    exact hpending.trans (hsettled (Option.map_eq_none_iff.mp hnone'))
  · simp [hdelivered, hwaiting]

theorem waitingItem_select {c : InternalConn D} (h : c.phase = .select) :
    c.waitingItem = [] := by
  simp [waitingItem, h]

theorem attempt_write_cons {io : Io} (h : io ≠ some 0) (w : Write D)
    (effects : List (Effect D)) :
    ∃ io', attempt io (.write w :: effects) =
      (.write w :: (attempt io' effects).1, (attempt io' effects).2) := by
  match io with
  | none => exact ⟨none, rfl⟩
  | some 0 => exact absurd rfl h
  | some (n + 1) => exact ⟨some n, rfl⟩

/-- `send_query` writes its query, whatever fails after. -/
theorem sendQuery_effects (chunked : Bool) (c : InternalConn D) (q : PendingQuery) (io : Io) :
    ∃ rest, (sendQuery chunked c q io).2 = .write (.query q) :: rest ∧
      ∀ x ∈ rest, quiet x = true := by
  unfold sendQuery
  split
  · exact ⟨_, rfl, by simp [quiet]⟩
  · rename_i hio
    obtain ⟨io', hattempt⟩ := attempt_write_cons (D := D) hio (.query q)
      ([.respond q.response true, .write (.delimiter q.qid)] ++ flush chunked)
    refine ⟨_, congrArg Prod.fst hattempt, attempt_quiet ?_⟩
    intro x hx
    rcases List.mem_append.mp hx with hx | hx
    · rcases List.mem_pair.mp hx with rfl | rfl <;> rfl
    · exact flush_quiet chunked x hx

theorem sendQuery_books (chunked : Bool) (c : InternalConn D) (q : PendingQuery) (io : Io) :
    written (sendQuery chunked c q io).2 = [q] ∧ closes (sendQuery chunked c q io).2 = 0 ∧
      delivered (sendQuery chunked c q io).2 = [] ∧
      dropped (sendQuery chunked c q io).2 = [] := by
  obtain ⟨rest, heffects, hquiet⟩ := sendQuery_effects chunked c q io
  obtain ⟨hwritten, hcloses, hdelivered, hdropped⟩ := quiet_books hquiet
  rw [heffects, ← List.singleton_append]
  simp only [written_append, closes_append, delivered_append, dropped_append, hwritten,
    hcloses, hdelivered, hdropped]
  exact ⟨rfl, rfl, rfl, rfl⟩

@[simp] theorem proceed_waitingItem (c : InternalConn D) (written : Bool) :
    (c.proceed written).waitingItem = [] := by
  cases written <;> simp [proceed, waitingItem]

theorem proceed_phase (c : InternalConn D) (written : Bool) (item : Response D) :
    (c.proceed written).phase ≠ .waiting item := by
  cases written <;> simp [proceed]

/-- After `send_query` the query is executing, unless the loop has returned. -/
theorem sendQuery_state (chunked : Bool) (c : InternalConn D) (q : PendingQuery) (io : Io) :
    (sendQuery chunked c q io).1.pending = c.pending ∧
      (sendQuery chunked c q io).1.waitingItem = [] ∧
      ((sendQuery chunked c q io).1.alive = true →
        (sendQuery chunked c q io).1.current = [q.qid]) ∧
      ∀ item, (sendQuery chunked c q io).1.phase ≠ .waiting item := by
  unfold sendQuery
  split
  · exact ⟨rfl, rfl, nofun, nofun⟩
  · exact ⟨rfl, proceed_waitingItem _ _, fun _ => rfl, proceed_phase _ _⟩

theorem current_eq_nil {c : InternalConn D} : c.current = [] ↔ c.executing = none := by
  simp [current]

/-- A query that is sent while nothing is executing: it has arrived just now, or it was
the first of the pending ones. -/
theorem sendQuery_tracks (chunked : Bool) {c : InternalConn D} {q : PendingQuery} (io : Io)
    {before : InternalConn D} {arrivals : List PendingQuery}
    (hbefore : before.current = []) (hwaiting : before.waitingItem = [])
    (hqueue : q :: c.pending = before.pending ++ arrivals) :
    Tracks before arrivals [] (sendQuery chunked c q io) := by
  obtain ⟨hwritten, hcloses, hdelivered, hdropped⟩ := sendQuery_books chunked c q io
  obtain ⟨hpending, hwaiting', hcurrent, hphase⟩ := sendQuery_state chunked c q io
  refine ⟨?_, ?_, ?_, ?_, ?_, hdropped, fun item h => absurd h (hphase item)⟩
  · rw [hwritten, hpending, ← hqueue]
    rfl
  · simp [hcloses]
  · intro halive
    rw [hcurrent halive, hwritten, hcloses, hbefore]
    rfl
  · intro _ halive hnone
    have := hcurrent halive
    rw [current_eq_nil.mpr hnone] at this
    cases this
  · rw [hwaiting, hdelivered, hwaiting']

/-- Once nothing is executing, the first pending query is sent. -/
theorem nextQuery_tracks (chunked : Bool) {c : InternalConn D} (io : Io)
    (he : c.executing = none) (hphase : c.phase = .select) :
    Tracks c [] [] (nextQuery chunked c io) ∧
      ((nextQuery chunked c io).1.alive = true →
        (nextQuery chunked c io).1.executing = none →
          (nextQuery chunked c io).1.pending = []) := by
  unfold nextQuery
  split
  · rename_i hpending
    exact ⟨tracks_quiet (by simp) rfl rfl rfl (by simp [hphase]), fun _ _ => hpending⟩
  · rename_i q pending hpending
    have htracks : Tracks c [] [] (sendQuery chunked { c with pending := pending } q io) :=
      sendQuery_tracks chunked io (current_eq_nil.mpr he) (waitingItem_select hphase)
        (by simp [hpending])
    refine ⟨htracks, fun halive hnone => ?_⟩
    have hcurrent := (sendQuery_state chunked { c with pending := pending } q io).2.2.1 halive
    rw [current_eq_nil.mpr hnone] at hcurrent
    cases hcurrent

/-- The end of the executing query: its channel is closed, and the next query is sent. -/
theorem endQuery_tracks (chunked : Bool) {c : InternalConn D} {e : ExecutingQuery} (io : Io)
    (he : c.executing.map ExecutingQuery.qid = some e.qid) (hphase : c.phase = .select) :
    Tracks c [] [] (endQuery chunked c e io) := by
  obtain ⟨hnext, hsettled⟩ := nextQuery_tracks chunked (c := { c with executing := none }) io
    rfl hphase
  have hcurrent : c.current = [e.qid] := by rw [current, he, Option.toList_some]
  have hnone : ({ c with executing := none } : InternalConn D).current = [] := rfl
  have hended := hnext.ended
  have hrouted := hnext.routed
  rw [hnone, List.nil_append] at hended
  rw [waitingItem_select (c := { c with executing := none }) hphase, List.append_nil]
    at hrouted
  refine ⟨?_, ?_, ?_, fun _ => hsettled, ?_, ?_, hnext.waits⟩
  · simpa [endQuery] using hnext.queue
  · simpa [endQuery, hcurrent] using hended
  · intro halive
    have := hnext.current halive
    rw [hnone, List.nil_append] at this
    simpa [endQuery, hcurrent] using this
  · rw [waitingItem_select hphase, List.append_nil]
    simpa [endQuery] using hrouted
  · simpa [endQuery] using hnext.kept

/-- The `send` of a response that has room, in `select!` or after a wait. -/
theorem completeResponse_tracks (chunked : Bool) {c : InternalConn D} {e : ExecutingQuery}
    (item : Response D) (io : Io) {items : List (Token × Response D)}
    (he : c.executing.map ExecutingQuery.qid = some e.qid)
    (hitems : c.waitingItem ++ items = [(e.response.token, item)]) :
    Tracks c [] items (completeResponse chunked c e item io) := by
  have hcurrent : c.current = [e.qid] := by rw [current, he, Option.toList_some]
  have hsome : c.executing ≠ none := fun hnone => by simp [hnone] at he
  unfold completeResponse
  cases item with
  | data block =>
    dsimp only
    refine ⟨by simp, by simp, ?_, ?_, ?_, by simp, fun _ h => nomatch h⟩
    · intro _
      simp [hcurrent]
      simp [current]
    · intro _ _ hnone
      cases hnone
    · rw [hitems]
      simp [waitingItem]
  | exception ex =>
    dsimp only
    split
    · refine ⟨by simp, by simp [hcurrent], ?_, ?_, ?_, by simp, fun _ h => nomatch h⟩
      · intro halive
        simp [alive] at halive
      · intro _ halive
        simp [alive] at halive
      · rw [hitems]
        simp [waitingItem]
    -- the exception is delivered, and the next query begins
    · have hend := endQuery_tracks chunked (c := ({ c with phase := .select } : InternalConn D))
        io he rfl
      have hrouted := hend.routed
      rw [waitingItem_select (c := ({ c with phase := .select } : InternalConn D)) rfl,
        List.append_nil] at hrouted
      refine ⟨?_, ?_, ?_, ?_, ?_, ?_, hend.waits⟩
      · simpa using hend.queue
      · simpa [current] using hend.ended
      · intro halive
        simpa [current] using hend.current halive
      · intro _ halive
        exact hend.settled (fun hnone => absurd hnone hsome) halive
      · rw [hitems]
        simp [← hrouted]
      · simpa using hend.kept

theorem respond_tracks (chunked : Bool) {c : InternalConn D} {e : ExecutingQuery}
    (item : Response D) (io : Io) (he : c.executing = some e) (hphase : c.phase = .select) :
    Tracks c [] [(e.response.token, item)] (respond chunked c e item io) := by
  unfold respond
  split
  · refine ⟨by simp, by simp, fun _ => by simp [current], fun hsettled _ hnone => ?_, ?_, rfl,
      fun _ _ => by simp [he]⟩
    · exact hsettled hnone
    · rw [waitingItem_select hphase]
      simp [waitingItem, he]
  · exact completeResponse_tracks chunked item io (by rw [he, Option.map_some])
      (by rw [waitingItem_select hphase, List.nil_append])

theorem handlePacket_tracks (chunked : Bool) {c : InternalConn D} {e : ExecutingQuery}
    (p : ServerPacket D) (io : Io) (he : c.executing = some e) (hphase : c.phase = .select) :
    Tracks c [] (carried e p) (handlePacket chunked c e p io) := by
  cases p with
  | header columns =>
    refine tracks_quiet ?_ rfl (by simp [he]) ?_ (by simp [hphase])
    · intro x hx
      obtain ⟨token, -, rfl⟩ := List.mem_map.mp hx
      rfl
    · rw [waitingItem_select hphase]
      simp [waitingItem, hphase]
  | data block => exact respond_tracks chunked (.data block) io he hphase
  | exception ex => exact respond_tracks chunked (.exception ex) io he hphase
  | endOfStream => exact endQuery_tracks chunked io (by rw [he, Option.map_some]) hphase
  | profileEvents => exact tracks_quiet (by simp [quiet]) rfl rfl rfl (by simp [hphase])
  | progress => exact tracks_quiet (by simp [quiet]) rfl rfl rfl (by simp [hphase])
  | pong => exact tracks_quiet (by simp) rfl rfl rfl (by simp [hphase])
  | ignored => exact tracks_quiet (by simp) rfl rfl rfl (by simp [hphase])

/-- An insert changes no book, whether it is written or fails. -/
theorem sendInsert_tracks (chunked : Bool) {c : InternalConn D} (qid : Qid) (data : List D)
    (response : Token) (io : Io) (hphase : c.phase = .select) :
    Tracks c [] [] (sendInsert chunked c qid data response io) := by
  have hwrites : ∀ x ∈ data.map (fun block => Effect.write
      (.data qid (c.executing.bind ExecutingQuery.header) block)) ++
        [.write (.delimiter qid)], quiet x = true := by
    intro x hx
    rcases List.mem_append.mp hx with hx | hx
    · obtain ⟨block, -, rfl⟩ := List.mem_map.mp hx
      rfl
    · rw [List.mem_singleton.mp hx]
      rfl
  unfold sendInsert
  dsimp only
  split
  -- all blocks are written
  · refine tracks_quiet (attempt_quiet ?_) rfl rfl ?_ (proceed_phase _ _)
    · intro x hx
      rcases List.mem_append.mp hx with hx | hx
      · rcases List.mem_append.mp hx with hx | hx
        · exact hwrites x hx
        · rw [List.mem_singleton.mp hx]
          rfl
      · exact flush_quiet chunked x hx
    · rw [waitingItem_select hphase, proceed_waitingItem]
  · split
    · refine tracks_quiet ?_ rfl rfl ?_ (by simp)
      · intro x hx
        rcases List.mem_append.mp hx with hx | hx
        · exact attempt_quiet hwrites x hx
        · rw [List.mem_singleton.mp hx]
          rfl
      · rw [waitingItem_select hphase]
        rfl
    · rename_i e he
      split
      -- the error waits for room
      · refine tracks_quiet (attempt_quiet hwrites) rfl rfl ?_ (by simp)
        rw [waitingItem_select hphase]
        rfl
      · refine tracks_quiet ?_ rfl (by simp [he]) ?_ (by simp)
        · intro x hx
          rcases List.mem_append.mp hx with hx | hx
          · exact attempt_quiet hwrites x hx
          · rcases List.mem_pair.mp hx with rfl | rfl <;> rfl
        · rw [waitingItem_select hphase]
          rfl

theorem handleOperation_tracks (chunked : Bool) {c : InternalConn D} (qid : Qid)
    (op : Operation D) (io : Io) (hphase : c.phase = .select) :
    Tracks c (arrival (.operation qid op io)) [] (handleOperation chunked c qid op io) := by
  cases op with
  | ping response =>
    unfold handleOperation
    dsimp only
    have hwrites : ∀ x ∈ (Effect.write Write.ping :: flush chunked : List (Effect D)),
        quiet x = true := by
      intro x hx
      rcases List.mem_cons.mp hx with rfl | hx
      · rfl
      · exact flush_quiet chunked x hx
    split
    · split
      · refine tracks_quiet (attempt_quiet hwrites) rfl rfl ?_ (by simp)
        rw [waitingItem_select hphase]
        rfl
      · refine tracks_quiet ?_ rfl rfl ?_ (by simp)
        · intro x hx
          rcases List.mem_append.mp hx with hx | hx
          · exact attempt_quiet hwrites x hx
          · rw [List.mem_singleton.mp hx]
            rfl
        · rw [waitingItem_select hphase]
          rfl
    · exact tracks_quiet (by simp [quiet]) rfl rfl rfl (by simp [hphase])
  | query text response header =>
    unfold handleOperation
    dsimp only
    split
    · rename_i hidle
      refine sendQuery_tracks chunked io (current_eq_nil.mpr hidle.2)
        (waitingItem_select hphase) ?_
      rw [hidle.1]
      rfl
    -- a query that waits keeps its place behind the others
    · rename_i hbusy
      refine ⟨by simp [arrival], by simp, fun _ => by simp [current], ?_, by simp [waitingItem],
        rfl, by simp [hphase]⟩
      intro hsettled _ hnone
      exact absurd ⟨hsettled hnone, hnone⟩ hbusy
  | insert data response => exact sendInsert_tracks chunked qid [data] response io hphase
  | insertMany data response => exact sendInsert_tracks chunked qid data response io hphase

/-- The caller takes a response or drops its receiver: a response that waits is sent. -/
theorem resume_tracks (chunked : Bool) {c : InternalConn D} {e : ExecutingQuery}
    {ch : ResponseChannel} (io : Io) (he : c.executing = some e)
    (hch : ch.token = e.response.token) :
    Tracks c [] [] (resume chunked c e ch io) := by
  unfold resume
  cases hphase : c.phase with
  | waiting item =>
    refine completeResponse_tracks chunked item io (by simp [he]) ?_
    simp [waitingItem, hphase, he, hch]
  | failing response =>
    refine tracks_quiet (by simp [quiet]) rfl (by simp [he]) ?_ (by simp)
    simp [waitingItem, hphase]
  | _ =>
    refine tracks_quiet (by simp) rfl (by simp [he]) ?_ (by simp)
    simp [waitingItem, hphase]

/-- An operation or a shutdown is taken while a response waits for room. -/
def overtakes (c : InternalConn D) (input : Input D) : Bool :=
  match c.phase, input with
  | .waiting _, .operation _ _ _ | .waiting _, .shutdown => true
  | _, _ => false

theorem phase_of_overtakes {c : InternalConn D} {input : Input D}
    (h : overtakes c input = true) : ∃ item, c.phase = .waiting item := by
  cases hphase : c.phase with
  | waiting item => exact ⟨item, rfl⟩
  | _ => simp [overtakes, hphase] at h

theorem received_of_overtakes {c : InternalConn D} {input : Input D}
    (h : overtakes c input = true) : received c input = [] := by
  obtain ⟨item, hphase⟩ := phase_of_overtakes h
  cases input <;> simp [received, hphase]

theorem waitingItem_of_overtakes {c : InternalConn D} {input : Input D}
    (hwaits : ∀ item, c.phase = .waiting item → c.executing ≠ none)
    (h : overtakes c input = true) : c.waitingItem ≠ [] := by
  obtain ⟨item, hphase⟩ := phase_of_overtakes h
  obtain ⟨e, he⟩ := Option.ne_none_iff_exists'.mp (hwaits item hphase)
  simp [waitingItem, hphase, he]

/-- A move that overtakes no response tracks its books. -/
theorem step_tracks {chunked : Bool} {c c' : InternalConn D} {input : Input D}
    {effects : List (Effect D)} (h : step chunked c input = some (c', effects))
    (hovertakes : overtakes c input = false) :
    Tracks c (arrival input) (received c input) (c', effects) := by
  unfold step at h
  split at h
  case h_1 qid op io =>
    split at h
    · rename_i hselecting
      have hphase : c.phase = .select := by
        cases hphase : c.phase <;> simp_all [selecting, overtakes]
      -- an operation, with nothing that waits for room
      have habandoned : c.abandoned = [] := by simp [abandoned, hphase]
      have hc : { c with phase := .select } = c := by rw [← hphase]
      rw [habandoned, hc] at h
      cases h
      exact handleOperation_tracks chunked qid op io hphase
    · cases h
  case h_2 =>
    split at h
    · rename_i hselecting
      have hphase : c.phase = .select := by
        cases hphase : c.phase <;> simp_all [selecting, overtakes]
      have habandoned : c.abandoned = [] := by simp [abandoned, hphase]
      rw [habandoned] at h
      cases h
      refine tracks_quiet (by simp) rfl rfl ?_ (by simp)
      rw [waitingItem_select hphase]
      rfl
    · cases h
  case h_3 p io =>
    split at h
    · rename_i e hphase he
      -- a packet for the query that executes
      have hreceived : received c (.packet p io) = ((read e p).map (carried e)).getD [] := by
        simp [received, hphase, he]
      rw [hreceived]
      split at h
      · rename_i packet hread
        have h := Option.some.inj h
        rw [hread, ← h]
        exact handlePacket_tracks chunked packet io he hphase
      · rename_i hread
        rw [hread]
        cases h
        refine tracks_quiet (by simp) rfl rfl ?_ (by simp)
        rw [waitingItem_select hphase]
        rfl
    · rename_i response hphase
      -- a packet in the place of a pong
      have hreceived : received c (.packet p io) = [] := by simp [received, hphase]
      rw [hreceived]
      cases h
      refine tracks_quiet (by simp [quiet]) rfl rfl ?_ (by simp)
      simp [waitingItem, hphase]
    · cases h
  case h_4 =>
    split at h
    · rename_i hphase _
      cases h
      refine tracks_quiet (by simp) rfl rfl ?_ (by simp)
      rw [waitingItem_select hphase]
      rfl
    · rename_i hphase
      cases h
      refine tracks_quiet (by simp [quiet]) rfl rfl ?_ (by simp)
      simp [waitingItem, hphase]
    · cases h
  case h_5 io =>
    split at h
    · split at h
      · rename_i e he _
        have h := Option.some.inj h
        rw [← h]
        exact resume_tracks chunked io he rfl
      · cases h
    · cases h
  case h_6 io =>
    split at h
    · split at h
      · rename_i e he _
        have h := Option.some.inj h
        rw [← h]
        exact resume_tracks chunked io he rfl
      · cases h
    · cases h

/-- A move that overtakes a response drops it, and otherwise tracks the books of a loop in
which nothing waits. -/
theorem step_overtaking {chunked : Bool} {c c' : InternalConn D} {input : Input D}
    {effects : List (Effect D)} (h : step chunked c input = some (c', effects))
    (hovertakes : overtakes c input = true) :
    ∃ effects', effects = c.abandoned ++ effects' ∧
      Tracks { c with phase := .select } (arrival input) [] (c', effects') := by
  cases hphase : c.phase <;> simp [overtakes, hphase] at hovertakes
  cases input with
  | operation qid op io =>
    simp only [step, selecting, hphase] at h
    cases h
    exact ⟨_, rfl, handleOperation_tracks chunked qid op io rfl⟩
  | shutdown =>
    simp only [step, selecting, hphase] at h
    cases h
    exact ⟨[], (List.append_nil _).symm, tracks_quiet (by simp) rfl rfl rfl (by simp)⟩
  | packet => simp at hovertakes
  | readError => simp at hovertakes
  | taken => simp at hovertakes
  | closed => simp at hovertakes

/-! ## Runs -/

/-- The moves that a connection has made. -/
abbrev History (D : Type) := List (Move (InternalConn D) (Input D) (Effect D))

namespace History

def effects (past : History D) : List (Effect D) := past.flatMap Move.out

/-- The queries that have arrived, in order. -/
def arrivals (past : History D) : List PendingQuery :=
  past.flatMap fun v => arrival v.input

/-- The responses that have been received, each with the channel of the query that was
executing. -/
def receipts (past : History D) : List (Token × Response D) :=
  past.flatMap fun v => InternalConn.received v.before v.input

/-- No operation has been taken while a response was waiting for room. -/
def Patient (past : History D) : Prop :=
  ∀ v ∈ past, overtakes v.before v.input = false

end History

/-- The books of the queue in a run. -/
structure QueueBooks (past : History D) (c : InternalConn D) : Prop where
  queue : written past.effects ++ c.pending = past.arrivals
  ended : closes past.effects ≤ (written past.effects).length
  current : c.alive = true →
    c.current = ((written past.effects).map PendingQuery.qid).drop (closes past.effects)
  settled : c.alive = true → c.executing = none → c.pending = []

/-- The books of the responses in a run. -/
structure ResponseBooks (past : History D) (c : InternalConn D) : Prop where
  waits : ∀ item, c.phase = .waiting item → c.executing ≠ none
  routed : past.Patient →
    past.receipts = delivered past.effects ++ c.waitingItem ∧ dropped past.effects = []
  counted : past.receipts.length =
    (delivered past.effects).length + (dropped past.effects).length + c.waitingItem.length
  overtaken : ¬ past.Patient → dropped past.effects ≠ []

theorem alive_of_step {chunked : Bool} {c : InternalConn D} {input : Input D}
    {r : InternalConn D × List (Effect D)} (h : step chunked c input = some r) :
    c.alive = true := by
  cases hphase : c.phase with
  | returned =>
    cases input <;> simp [step, selecting, alive, hphase] at h
    · split at h <;> cases h
    · split at h <;> cases h
  | _ => simp [alive, hphase]

section Concat

variable (past : History D) (v : Move (InternalConn D) (Input D) (Effect D))

@[simp] theorem effects_concat :
    History.effects (past ++ [v]) = past.effects ++ v.out := by
  simp [History.effects]

@[simp] theorem arrivals_concat :
    History.arrivals (past ++ [v]) = past.arrivals ++ arrival v.input := by
  simp [History.arrivals]

@[simp] theorem receipts_concat :
    History.receipts (past ++ [v]) = past.receipts ++ received v.before v.input := by
  simp [History.receipts]

@[simp] theorem patient_concat :
    History.Patient (past ++ [v]) ↔
      past.Patient ∧ overtakes v.before v.input = false := by
  unfold History.Patient
  rw [List.forall_mem_append, List.forall_mem_singleton]

end Concat

/-- A move keeps the books of the queue.  It may start from a state `c₀` that differs from
the one before the move in its phase only, and have effects that no queue book records. -/
theorem QueueBooks.step {past : History D} {c c₀ c' : InternalConn D} {input : Input D}
    {items : List (Token × Response D)} {effects effects₀ : List (Effect D)}
    (hbooks : QueueBooks past c) (halive : c.alive = true)
    (htracks : Tracks c₀ (arrival input) items (c', effects₀))
    (hpending : c₀.pending = c.pending) (hexecuting : c₀.executing = c.executing)
    (hwritten : written effects = written effects₀)
    (hcloses : closes effects = closes effects₀) :
    QueueBooks (past ++ [⟨c, input, effects, c'⟩]) c' := by
  have hcurrent : c₀.current =
      ((written past.effects).map PendingQuery.qid).drop (closes past.effects) := by
    rw [← hbooks.current halive, InternalConn.current, hexecuting, InternalConn.current]
  have hended := hbooks.ended
  have hle := htracks.ended
  simp only [hcurrent, List.length_append, List.length_drop, List.length_map] at hle
  refine ⟨?_, ?_, ?_, ?_⟩
  · rw [effects_concat, written_append, hwritten, List.append_assoc, htracks.queue, hpending,
      ← List.append_assoc, hbooks.queue, arrivals_concat]
  · simp only [effects_concat, closes_append, written_append, List.length_append, hwritten,
      hcloses]
    omega
  · intro halive'
    rw [effects_concat, closes_append, written_append, hwritten, hcloses, List.map_append,
      ← List.drop_drop, List.drop_append_of_le_length (by simpa using hended), ← hcurrent]
    exact htracks.current halive'
  · intro halive' hnone
    refine htracks.settled (fun hnone₀ => ?_) halive' hnone
    rw [hpending]
    exact hbooks.settled halive (hexecuting ▸ hnone₀)

theorem abandoned_books (c : InternalConn D) :
    written c.abandoned = [] ∧ closes c.abandoned = 0 ∧ delivered c.abandoned = [] ∧
      dropped c.abandoned = c.waitingItem := by
  unfold abandoned waitingItem
  cases c.phase with
  | waiting item => cases c.executing <;> simp [written, closes, delivered, dropped]
  | _ => simp

/-- Each move keeps the books. -/
theorem books_step {chunked : Bool} {past : History D} {c c' : InternalConn D}
    {input : Input D} {effects : List (Effect D)}
    (hqueue : QueueBooks past c) (hresponses : ResponseBooks past c)
    (h : InternalConn.step chunked c input = some (c', effects)) :
    QueueBooks (past ++ [⟨c, input, effects, c'⟩]) c' ∧
      ResponseBooks (past ++ [⟨c, input, effects, c'⟩]) c' := by
  have halive := alive_of_step h
  cases hovertakes : overtakes c input with
  | false =>
    have htracks := step_tracks h hovertakes
    refine ⟨hqueue.step halive htracks rfl rfl rfl rfl, htracks.waits, ?_, ?_, ?_⟩
    · intro hpatient
      obtain ⟨hrouted, hdropped⟩ := hresponses.routed ((patient_concat _ _).mp hpatient).1
      constructor
      · rw [receipts_concat, effects_concat, delivered_append, hrouted, List.append_assoc,
          List.append_assoc, ← htracks.routed]
      · rw [effects_concat, dropped_append, hdropped, htracks.kept, List.append_nil]
    · have hcounted := hresponses.counted
      have hrouted := congrArg List.length htracks.routed
      have hkept := congrArg List.length htracks.kept
      simp only [receipts_concat, effects_concat, delivered_append, dropped_append,
        List.length_append, List.length_nil] at hrouted hkept ⊢
      omega
    · intro himpatient
      have hpast : ¬ past.Patient := fun hpast =>
        himpatient ((patient_concat _ _).mpr ⟨hpast, hovertakes⟩)
      rw [effects_concat, dropped_append]
      exact fun hnil => hresponses.overtaken hpast (List.append_eq_nil_iff.mp hnil).1
  | true =>
    obtain ⟨effects₀, heffects, htracks⟩ := step_overtaking h hovertakes
    obtain ⟨hwritten, hcloses, hdelivered, hdropped⟩ := abandoned_books c
    subst heffects
    refine ⟨hqueue.step halive htracks rfl rfl (by simp [hwritten]) (by simp [hcloses]),
      htracks.waits, ?_, ?_, ?_⟩
    · intro hpatient
      have := ((patient_concat _ _).mp hpatient).2
      simp [hovertakes] at this
    · have hcounted := hresponses.counted
      have hrouted := congrArg List.length htracks.routed
      have hkept := congrArg List.length htracks.kept
      have hreceived : received c input = [] := received_of_overtakes hovertakes
      simp only [receipts_concat, effects_concat, delivered_append, dropped_append, hreceived,
        hdelivered, hdropped, List.length_append, List.length_nil] at hrouted hkept ⊢
      rw [waitingItem_select (c := ({ c with phase := .select } : InternalConn D)) rfl] at hrouted
      simp only [List.length_nil] at hrouted
      omega
    · intro _
      rw [effects_concat, dropped_append, dropped_append, hdropped]
      intro hnil
      -- what waited is among what is dropped
      have hwaiting := (List.append_eq_nil_iff.mp (List.append_eq_nil_iff.mp hnil).2).1
      exact waitingItem_of_overtakes hresponses.waits hovertakes hwaiting

/-- The history of a new connection under a list of inputs. -/
def history (chunked : Bool) (inputs : List (Input D)) : History D :=
  (InternalConn.step chunked).moves new inputs

/-- The state that a new connection is led to. -/
def reached (chunked : Bool) (inputs : List (Input D)) : InternalConn D :=
  (InternalConn.step chunked).final new inputs

theorem books_new : QueueBooks ([] : History D) new ∧ ResponseBooks ([] : History D) new := by
  constructor
  · exact ⟨rfl, Nat.le_refl _, fun _ => rfl, fun _ _ => rfl⟩
  · refine ⟨nofun, fun _ => ⟨rfl, rfl⟩, rfl, fun himpatient => ?_⟩
    exact absurd (fun v hv => nomatch hv) himpatient

theorem books_reached (chunked : Bool) (inputs : List (Input D)) :
    QueueBooks (history chunked inputs) (reached chunked inputs) ∧
      ResponseBooks (history chunked inputs) (reached chunked inputs) :=
  Machine.invariant (I := fun past c => QueueBooks past c ∧ ResponseBooks past c) books_new
    (fun _ _ _ _ _ hbooks h => books_step hbooks.1 hbooks.2 h) inputs

/-- Queries are written in the order in which they have arrived and each once, those that
are left are pending; nothing is pending while nothing is executing; and the responses
that have been received are sent, in order and each once, to the channel of the query that
was executing, up to one that waits for room. -/
structure Scheduled (past : History D) (c : InternalConn D) : Prop where
  queue : written past.effects ++ c.pending = past.arrivals
  settled : c.alive = true → c.executing = none → c.pending = []
  routed : past.receipts = delivered past.effects ++ c.waitingItem

theorem scheduled_of_patient {chunked : Bool} {inputs : List (Input D)}
    (h : (history chunked inputs).Patient) :
    Scheduled (history chunked inputs) (reached chunked inputs) := by
  obtain ⟨hqueue, hresponses⟩ := books_reached chunked inputs
  exact ⟨hqueue.queue, hqueue.settled, (hresponses.routed h).1⟩

/-- Scheduling holds in every run, and routing exactly where no operation overtakes a
response that waits for room. -/
theorem scheduled_iff_patient (chunked : Bool) (inputs : List (Input D)) :
    Scheduled (history chunked inputs) (reached chunked inputs) ↔
      (history chunked inputs).Patient := by
  refine ⟨fun h => ?_, scheduled_of_patient⟩
  by_contra himpatient
  obtain ⟨-, hresponses⟩ := books_reached chunked inputs
  have hcounted := hresponses.counted
  have hlength := congrArg List.length h.routed
  have hdropped := List.length_pos_iff.mpr (hresponses.overtaken himpatient)
  rw [List.length_append] at hlength
  omega

/-- A caller that takes nothing: the thirty-third block waits for room when a second query
is taken from the channel. -/
def crowded : List (Input Nat) :=
  [.operation [1] (.query "SELECT" 10 none) none, .packet (.data (some []) none) none] ++
    (List.range 33).map (fun block => .packet (.data none (some block)) none) ++
    [.operation [2] (.query "SELECT" 20 none) none]

theorem not_scheduled_crowded :
    ¬ Scheduled (history false crowded) (reached false crowded) := by
  intro h
  have hrouted := h.routed
  revert hrouted
  decide

end InternalConn

end ClickhouseArrow
