import ClickhouseArrow.Client.Scheduling

/-!
# What becomes of inserts and pings

An insert is taken from the channel in whatever state the loop is, and is written without a
look at its query id.  A ping that is taken while a query is executing or pending loses its
sender.  Both go right exactly in the runs in which callers take their turn: an insert when
its query is the one that is due by the order of arrival, a ping when every query that has
arrived has ended.
-/

namespace ClickhouseArrow

open Wire Transition

/-- `Operation::Insert` or `Operation::InsertMany`, with the sender of its answer. -/
def Operation.insertResponse {D : Type} : Operation D → Option Token
  | .insert _ response | .insertMany _ response => some response
  | _ => none

namespace InternalConn

variable {D : Type}

/-! ## Effects that concern neither an insert nor a ping -/

/-- An effect that writes no data block and settles no ping. -/
def plain : Effect D → Bool
  | .write (.data _ _ _) | .pong _ _ | .dropPing _ => false
  | _ => true

/-- A result of the loop that concerns neither an insert nor a ping. -/
structure Plain (r : InternalConn D × List (Effect D)) : Prop where
  effects : ∀ x ∈ r.2, plain x = true
  phase : ∀ token, r.1.phase ≠ .pinging token

theorem sendQuery_plain (chunked : Bool) {c : InternalConn D} (q : PendingQuery) (io : Io) :
    Plain (sendQuery chunked c q io) := by
  unfold sendQuery
  split
  · exact ⟨by simp [plain], nofun⟩
  · constructor
    · intro x hx
      have hx := (attempt_isPrefix io _).subset hx
      rcases List.mem_append.mp hx with hx | hx
      · simp only [List.mem_cons, List.not_mem_nil, or_false] at hx
        rcases hx with rfl | rfl | rfl <;> rfl
      · cases chunked <;> simp [flush] at hx
        rw [hx]
        rfl
    · intro token
      simp only [proceed]
      split <;> simp

theorem nextQuery_plain (chunked : Bool) {c : InternalConn D} (io : Io)
    (hphase : ∀ token, c.phase ≠ .pinging token) : Plain (nextQuery chunked c io) := by
  unfold nextQuery
  split
  · exact ⟨by simp, hphase⟩
  · exact sendQuery_plain chunked _ io

theorem endQuery_plain (chunked : Bool) {c : InternalConn D} (e : ExecutingQuery) (io : Io)
    (hphase : ∀ token, c.phase ≠ .pinging token) : Plain (endQuery chunked c e io) := by
  have hnext := nextQuery_plain chunked (c := { c with executing := none }) io hphase
  exact ⟨List.forall_mem_cons.mpr ⟨rfl, hnext.effects⟩, hnext.phase⟩

theorem sent_plain (ch : ResponseChannel) (item : Response D) : plain (ch.sent item) = true := by
  unfold ResponseChannel.sent
  split <;> rfl

theorem completeResponse_plain (chunked : Bool) {c : InternalConn D} (e : ExecutingQuery)
    (item : Response D) (io : Io) : Plain (completeResponse chunked c e item io) := by
  unfold completeResponse
  cases item with
  | data block => exact ⟨by simp [sent_plain], by simp⟩
  | exception ex =>
    dsimp only
    split
    · exact ⟨List.forall_mem_cons.mpr ⟨sent_plain _ _, by simp [plain]⟩, by simp⟩
    · have hend := endQuery_plain chunked (c := ({ c with phase := .select } : InternalConn D))
        e io (by simp)
      exact ⟨List.forall_mem_cons.mpr ⟨sent_plain _ _, hend.effects⟩, hend.phase⟩

theorem respond_plain (chunked : Bool) {c : InternalConn D} (e : ExecutingQuery)
    (item : Response D) (io : Io) : Plain (respond chunked c e item io) := by
  unfold respond
  split
  · exact ⟨by simp, by simp⟩
  · exact completeResponse_plain chunked e item io

theorem handlePacket_plain (chunked : Bool) {c : InternalConn D} (e : ExecutingQuery)
    (p : ServerPacket D) (io : Io) (hphase : c.phase = .select) :
    Plain (handlePacket chunked c e p io) := by
  have hpinging : ∀ token, c.phase ≠ .pinging token := by simp [hphase]
  cases p with
  | header columns =>
    refine ⟨fun x hx => ?_, hpinging⟩
    obtain ⟨token, -, rfl⟩ := List.mem_map.mp hx
    rfl
  | data block => exact respond_plain chunked e _ io
  | exception ex => exact respond_plain chunked e _ io
  | endOfStream => exact endQuery_plain chunked e io hpinging
  | profileEvents => exact ⟨by simp [handlePacket, plain], hpinging⟩
  | progress => exact ⟨by simp [handlePacket, plain], hpinging⟩
  | pong => exact ⟨by simp [handlePacket], hpinging⟩
  | ignored => exact ⟨by simp [handlePacket], hpinging⟩

theorem resume_plain (chunked : Bool) {c : InternalConn D} (e : ExecutingQuery)
    (ch : ResponseChannel) (io : Io) (hphase : ∀ token, c.phase ≠ .pinging token) :
    Plain (resume chunked c e ch io) := by
  unfold resume
  cases h : c.phase with
  | waiting item => exact completeResponse_plain chunked _ item io
  | failing response => exact ⟨by simp [plain], by simp⟩
  | pinging token => exact absurd h (hphase token)
  | select => exact ⟨by simp, by simp⟩
  | returned => exact ⟨by simp, by simp⟩

theorem abandoned_plain (c : InternalConn D) : ∀ x ∈ c.abandoned, plain x = true := by
  unfold abandoned
  split <;> simp [plain]

/-- A move of a loop that does not ping, with an input that is neither an insert nor a
ping. -/
theorem step_plain {chunked : Bool} {c c' : InternalConn D} {input : Input D}
    {effects : List (Effect D)} (h : step chunked c input = some (c', effects))
    (hphase : ∀ token, c.phase ≠ .pinging token)
    (hinput : ∀ qid op io, input = .operation qid op io →
      ∃ query response header, op = .query query response header) :
    Plain (c', effects) := by
  unfold step at h
  split at h
  case h_1 qid op io =>
    -- an operation, which is a query
    obtain ⟨query, response, header, rfl⟩ := hinput qid op io rfl
    split at h
    · cases h
      have hoperation : Plain (handleOperation chunked
          ({ c with phase := .select } : InternalConn D) qid (.query query response header) io) := by
        unfold handleOperation
        dsimp only
        split
        · exact sendQuery_plain chunked _ io
        · exact ⟨by simp, by simp⟩
      refine ⟨fun x hx => ?_, hoperation.phase⟩
      rcases List.mem_append.mp hx with hx | hx
      · exact abandoned_plain c x hx
      · exact hoperation.effects x hx
    · cases h
  case h_2 =>
    split at h
    · cases h
      -- a shutdown drops what waits
      exact ⟨abandoned_plain c, by simp⟩
    · cases h
  case h_3 p io =>
    split at h
    · rename_i e hselect he
      split at h
      -- a packet, for the executing query
      · have h := Option.some.inj h
        rw [← h]
        exact handlePacket_plain chunked e _ io hselect
      · cases h
        exact ⟨by simp, by simp⟩
    · rename_i hpinging
      exact absurd hpinging (hphase _)
    · cases h
  case h_4 =>
    split at h
    · cases h
      exact ⟨by simp, by simp⟩
    · rename_i hpinging
      exact absurd hpinging (hphase _)
    · cases h
  case h_5 io =>
    split at h
    · split at h
      · have h := Option.some.inj h
        rw [← h]
        exact resume_plain chunked _ _ io hphase
      · cases h
    · cases h
  case h_6 io =>
    split at h
    · split at h
      · have h := Option.some.inj h
        rw [← h]
        exact resume_plain chunked _ _ io hphase
      · cases h
    · cases h

/-- A loop that pings with nothing executing answers the ping with its next move. -/
theorem step_pinging {chunked : Bool} {c c' : InternalConn D} {input : Input D}
    {effects : List (Effect D)} (h : step chunked c input = some (c', effects))
    {token : Token} (hphase : c.phase = .pinging token) (he : c.executing = none) :
    (∃ received, effects = [.pong token received]) ∧ c'.phase = .select ∧
      c'.executing = none := by
  cases input with
  | operation qid op io => simp [step, selecting, hphase] at h
  | shutdown => simp [step, selecting, hphase] at h
  | packet p io =>
    simp only [step, hphase] at h
    cases h
    exact ⟨⟨_, rfl⟩, rfl, he⟩
  | readError =>
    simp only [step, hphase] at h
    cases h
    exact ⟨⟨_, rfl⟩, rfl, he⟩
  | taken io => simp [step, he] at h
  | closed io => simp [step, he] at h

/-- A move that takes an operation. -/
theorem step_operation {chunked : Bool} {c c' : InternalConn D} {qid : Qid}
    {op : Operation D} {io : Io} {effects : List (Effect D)}
    (h : step chunked c (.operation qid op io) = some (c', effects)) :
    (c', effects) =
      ((handleOperation chunked { c with phase := .select } qid op io).1,
        c.abandoned ++ (handleOperation chunked { c with phase := .select } qid op io).2) := by
  unfold step at h
  dsimp only at h
  split at h
  · exact (Option.some.inj h).symm
  · cases h

/-! ## Inserts -/

/-- The query ids of the data blocks that are written. -/
def dataWritten (effects : List (Effect D)) : List Qid :=
  effects.filterMap fun
    | .write (.data qid _ _) => some qid
    | _ => none

theorem dataWritten_eq_nil {effects : List (Effect D)}
    (h : ∀ x ∈ effects, ∀ qid header block, x ≠ .write (.data qid header block)) :
    dataWritten effects = [] := by
  refine List.filterMap_eq_nil_iff.mpr fun x hx => ?_
  split
  · exact absurd rfl (h _ hx _ _ _)
  · rfl

theorem not_data_of_plain {x : Effect D} (h : plain x = true) (qid : Qid)
    (header : Option Header) (block : D) : x ≠ .write (.data qid header block) := by
  rintro rfl
  cases h

/-- An effect of an insert with the query id `qid`. -/
def ofInsert (qid : Qid) : Effect D → Prop
  | .write (.data qid' _ _) => qid' = qid
  | .pong _ _ | .dropPing _ => False
  | _ => True

theorem ofInsert_of_plain {qid : Qid} {x : Effect D} (h : plain x = true) :
    ofInsert qid x := by
  unfold plain at h
  unfold ofInsert
  split at h <;> simp_all

theorem dataWritten_of_insert {qid : Qid} {effects : List (Effect D)}
    (h : ∀ x ∈ effects, ofInsert qid x) : ∀ qid' ∈ dataWritten effects, qid' = qid := by
  intro qid' hmem
  obtain ⟨x, hx, hsome⟩ := List.mem_filterMap.mp hmem
  have hof := h x hx
  split at hsome
  · cases hsome
    exact hof
  · cases hsome

theorem attempt_begins (io : Io) (w : Write D) (effects : List (Effect D)) :
    .write w ∈ (attempt io (.write w :: effects)).1 := by
  match io with
  | none => exact List.mem_cons_self
  | some 0 => exact List.mem_cons_self
  | some (n + 1) => exact List.mem_cons_self

/-- The effects of an insert: the blocks carry its query id, and a write is begun. -/
theorem sendInsert_effects (chunked : Bool) (c : InternalConn D) (qid : Qid) (data : List D)
    (response : Token) (io : Io) :
    (∀ x ∈ (sendInsert chunked c qid data response io).2, ofInsert qid x) ∧
      ∃ w, .write w ∈ (sendInsert chunked c qid data response io).2 := by
  -- also without blocks the delimiter is written, so some write is begun
  have hfirst : ∀ more : List (Effect D), ∃ w, .write w ∈ (attempt io (data.map (fun block =>
      Effect.write (.data qid (c.executing.bind ExecutingQuery.header) block)) ++
        [.write (.delimiter qid)] ++ more)).1 := by
    intro more
    cases data with
    | nil => exact ⟨_, attempt_begins io _ _⟩
    | cons block data => exact ⟨_, attempt_begins io _ _⟩
  have hwrites : ∀ x ∈ data.map (fun block =>
      Effect.write (.data qid (c.executing.bind ExecutingQuery.header) block)) ++
        [.write (.delimiter qid)], ofInsert qid x := by
    intro x hx
    rcases List.mem_append.mp hx with hx | hx
    · obtain ⟨block, -, rfl⟩ := List.mem_map.mp hx
      rfl
    · rw [List.mem_singleton.mp hx]
      trivial
  have hattempt (more : List (Effect D)) (hmore : ∀ x ∈ more, ofInsert qid x) :
      ∀ x ∈ (attempt io (data.map (fun block =>
        Effect.write (.data qid (c.executing.bind ExecutingQuery.header) block)) ++
          [.write (.delimiter qid)] ++ more)).1, ofInsert qid x := by
    intro x hx
    rcases List.mem_append.mp ((attempt_isPrefix io _).subset hx) with hx | hx
    · exact hwrites x hx
    · exact hmore x hx
  have hfailed (more : List (Effect D)) (hmore : ∀ x ∈ more, ofInsert qid x) :
      (∀ x ∈ (attempt io (data.map (fun block =>
        Effect.write (.data qid (c.executing.bind ExecutingQuery.header) block)) ++
          [.write (.delimiter qid)])).1 ++ more, ofInsert qid x) ∧
      ∃ w, .write w ∈ (attempt io (data.map (fun block =>
        Effect.write (.data qid (c.executing.bind ExecutingQuery.header) block)) ++
          [.write (.delimiter qid)])).1 ++ more := by
    constructor
    · intro x hx
      rcases List.mem_append.mp hx with hx | hx
      · exact hattempt [] (by simp) x (by simpa using hx)
      · exact hmore x hx
    · obtain ⟨w, hw⟩ := hfirst []
      exact ⟨w, List.mem_append_left _ (by simpa using hw)⟩
  unfold sendInsert
  dsimp only
  split
  · rw [List.append_assoc]
    refine ⟨hattempt _ ?_, hfirst _⟩
    cases chunked <;> simp [flush, ofInsert]
  · split
    -- nothing executes, and the sender of the insert is dropped
    · exact hfailed _ (by simp [ofInsert])
    · split
      · simpa using hfailed [] (by simp)
      · exact hfailed _ (by simp [ofInsert])

theorem sendInsert_phase (chunked : Bool) (c : InternalConn D) (qid : Qid) (data : List D)
    (response : Token) (io : Io) (token : Token) :
    (sendInsert chunked c qid data response io).1.phase ≠ .pinging token := by
  unfold sendInsert
  dsimp only
  split
  · simp only [proceed]
    split <;> simp
  · split
    · simp
    · split <;> simp

/-- An insert that is taken. -/
theorem handleOperation_insert (chunked : Bool) (c : InternalConn D) (qid : Qid)
    {op : Operation D} {token : Token} (io : Io) (h : op.insertResponse = some token) :
    ∃ data, handleOperation chunked c qid op io = sendInsert chunked c qid data token io := by
  cases op with
  | ping => cases h
  | query => cases h
  | insert data response =>
    cases h
    exact ⟨[data], rfl⟩
  | insertMany data response =>
    cases h
    exact ⟨data, rfl⟩

/-- A ping that is taken while the loop is idle is sent; any other loses its sender. -/
theorem handleOperation_ping (chunked : Bool) (c : InternalConn D) (qid : Qid)
    (token : Token) (io : Io) :
    (∀ x ∈ (handleOperation chunked c qid (.ping token) io).2,
      x = .dropPing token ∨ ∃ w, x = .write w ∧ plain x = true) ∧
    (c.Idle →
      ((handleOperation chunked c qid (.ping token) io).1.phase = .pinging token ∧
        (handleOperation chunked c qid (.ping token) io).1.executing = none ∧
        .dropPing token ∉ (handleOperation chunked c qid (.ping token) io).2) ∨
      (handleOperation chunked c qid (.ping token) io).1.phase = .returned) ∧
    (¬ c.Idle → handleOperation chunked c qid (.ping token) io = (c, [.dropPing token])) := by
  have hattempt : ∀ x ∈ (attempt io (.write .ping :: flush chunked : List (Effect D))).1,
      ∃ w, x = .write w ∧ plain x = true := by
    intro x hx
    rcases List.mem_cons.mp ((attempt_isPrefix io _).subset hx) with rfl | hx
    · exact ⟨_, rfl, rfl⟩
    · cases chunked <;> simp [flush] at hx
      exact ⟨_, hx, by rw [hx]; rfl⟩
  unfold handleOperation
  dsimp only
  split
  · rename_i hidle
    split
    · refine ⟨fun x hx => Or.inr (hattempt x hx), fun _ => Or.inl ⟨rfl, hidle.2, ?_⟩,
        fun hbusy => absurd hidle hbusy⟩
      intro hdrop
      obtain ⟨w, hw, -⟩ := hattempt _ hdrop
      cases hw
    · refine ⟨fun x hx => ?_, fun _ => Or.inr rfl, fun hbusy => absurd hidle hbusy⟩
      rcases List.mem_append.mp hx with hx | hx
      · exact Or.inr (hattempt x hx)
      · exact Or.inl (List.mem_singleton.mp hx)
  · rename_i hbusy
    exact ⟨by simp, fun hidle => absurd hidle hbusy, fun _ => rfl⟩

/-- A loop that awaits a pong has no executing query. -/
def PingsAlone (c : InternalConn D) : Prop :=
  ∀ token, c.phase = .pinging token → c.executing = none

/-- The moves of a loop, by what they concern. -/
theorem step_cases {chunked : Bool} {c c' : InternalConn D} {input : Input D}
    {effects : List (Effect D)} (h : InternalConn.step chunked c input = some (c', effects))
    (halone : PingsAlone c) :
    (∃ token received, c.phase = .pinging token ∧ effects = [.pong token received] ∧
      c'.phase = .select ∧ c'.executing = none) ∨
    (∃ qid op io token data, input = .operation qid op io ∧ op.insertResponse = some token ∧
      (c', effects) = ((sendInsert chunked { c with phase := .select } qid data token io).1,
        c.abandoned ++ (sendInsert chunked { c with phase := .select } qid data token io).2)) ∨
    (∃ qid token io, input = .operation qid (.ping token) io ∧ (c', effects) =
      ((handleOperation chunked { c with phase := .select } qid (.ping token) io).1,
        c.abandoned ++
          (handleOperation chunked { c with phase := .select } qid (.ping token) io).2)) ∨
    ((∀ qid op io, input = .operation qid op io →
      ∃ query response header, op = .query query response header) ∧ Plain (c', effects)) := by
  by_cases hpinging : ∃ token, c.phase = .pinging token
  · obtain ⟨token, hphase⟩ := hpinging
    obtain ⟨⟨received, heffects⟩, hnext⟩ := step_pinging h hphase (halone token hphase)
    exact Or.inl ⟨token, received, hphase, heffects, hnext⟩
  · have hphase : ∀ token, c.phase ≠ .pinging token := fun token h => hpinging ⟨token, h⟩
    refine Or.inr ?_
    -- an operation is one of four, and any other input is plain
    cases input with
    | operation qid op io =>
      cases hop : op with
      | ping token =>
        subst hop
        exact Or.inr (Or.inl ⟨qid, token, io, rfl, step_operation h⟩)
      | query query response header =>
        have hquery : ∀ qid' op' io', Input.operation qid op io = .operation qid' op' io' →
            ∃ query response header, op' = .query query response header := by
          intro _ _ _ heq
          cases heq
          exact ⟨query, response, header, hop⟩
        exact Or.inr (Or.inr ⟨hop ▸ hquery, step_plain h hphase hquery⟩)
      | insert data response =>
        subst hop
        exact Or.inl ⟨qid, _, io, response, [data], rfl, rfl, step_operation h⟩
      | insertMany data response =>
        subst hop
        exact Or.inl ⟨qid, _, io, response, data, rfl, rfl, step_operation h⟩
    | _ => exact Or.inr (Or.inr ⟨nofun, step_plain h hphase nofun⟩)

theorem pingsAlone_step {chunked : Bool} {c c' : InternalConn D} {input : Input D}
    {effects : List (Effect D)} (h : InternalConn.step chunked c input = some (c', effects))
    (halone : PingsAlone c) : PingsAlone c' := by
  intro token hphase
  rcases step_cases h halone with ⟨_, _, -, -, hselect, -⟩ |
    ⟨qid, op, io, response, data, -, -, hresult⟩ | ⟨qid, ping, io, -, hresult⟩ | ⟨-, hplain⟩
  · rw [hselect] at hphase
    cases hphase
  · rw [(Prod.mk.inj hresult).1] at hphase
    exact absurd hphase (sendInsert_phase chunked _ qid data response io token)
  · rw [(Prod.mk.inj hresult).1] at hphase ⊢
    obtain ⟨-, hidle, hbusy⟩ := handleOperation_ping chunked
      ({ c with phase := .select } : InternalConn D) qid ping io
    by_cases h : ({ c with phase := .select } : InternalConn D).Idle
    · rcases hidle h with hsent | hreturned
      · exact hsent.2.1
      · rw [hreturned] at hphase
        cases hphase
    · rw [hbusy h] at hphase
      cases hphase
  · exact absurd hphase (hplain.phase token)

/-! ## Inserts in a run -/

/-- The data blocks of an insert are written only while its query is executing; an insert
that is taken at any other moment is answered with an error, and nothing is written. -/
structure InsertsToOwnQuery (past : History D) : Prop where
  blocks : ∀ v ∈ past, ∀ qid ∈ dataWritten v.out, v.before.current = [qid]
  refused : ∀ v ∈ past, ∀ qid op io token, v.input = .operation qid op io →
    op.insertResponse = some token → v.before.current ≠ [qid] →
      .dropInsert token ∈ v.out ∧ ∀ w, .write w ∉ v.out

/-- An insert is taken in its turn: by the order of arrival its query is the next one that
ends. -/
def InsertsInTurn (past : History D) : Prop :=
  ∀ (earlier : History D) v later, past = earlier ++ v :: later → ∀ qid op io token,
    v.input = .operation qid op io → op.insertResponse = some token →
      (earlier.arrivals.map PendingQuery.qid)[closes earlier.effects]? = some qid

/-- The executing query is the one that is due by the order of arrival. -/
theorem current_iff_due {past : History D} {c : InternalConn D} (hbooks : QueueBooks past c)
    (halive : c.alive = true) (qid : Qid) :
    c.current = [qid] ↔
      (past.arrivals.map PendingQuery.qid)[closes past.effects]? = some qid := by
  have hcurrent := hbooks.current halive
  have hended := hbooks.ended
  rw [← hbooks.queue, List.map_append]
  cases he : c.executing with
  | none =>
    have hnil : c.current = [] := current_eq_nil.mpr he
    rw [hnil, eq_comm, List.drop_eq_nil_iff, List.length_map] at hcurrent
    have hlength : ((written past.effects).map PendingQuery.qid).length ≤
        closes past.effects := by simpa using hcurrent
    rw [hbooks.settled halive he, hnil, List.map_nil, List.append_nil,
      List.getElem?_eq_none hlength]
    simp
  | some e =>
    have hone : c.current = [e.qid] := by simp [InternalConn.current, he]
    rw [hone] at hcurrent ⊢
    have hget : ((written past.effects).map PendingQuery.qid)[closes past.effects]? =
        some e.qid := by
      rw [← List.head?_drop, ← hcurrent, List.head?_cons]
    rw [List.getElem?_append_left (List.getElem?_eq_some_iff.mp hget).1, hget]
    simp

/-- The books at a move of a run, and the move itself. -/
theorem books_at {chunked : Bool} {inputs : List (Input D)} {earlier later : History D}
    {v : Move (InternalConn D) (Input D) (Effect D)}
    (h : history chunked inputs = earlier ++ v :: later) :
    QueueBooks earlier v.before ∧ PingsAlone v.before ∧
      InternalConn.step chunked v.before v.input = some (v.after, v.out) := by
  obtain ⟨hbooks, hstep⟩ := Machine.invariant_before
    (I := fun past c => (QueueBooks past c ∧ ResponseBooks past c) ∧ PingsAlone c)
    ⟨books_new, nofun⟩
    (fun _ _ _ _ _ hbooks hmove =>
      ⟨books_step hbooks.1.1 hbooks.1.2 hmove, pingsAlone_step hmove hbooks.2⟩) h
  exact ⟨hbooks.1.1, hbooks.2, hstep⟩

/-- The data blocks of a move are those of an insert that it takes, with its query id. -/
theorem dataWritten_of_step {chunked : Bool} {c c' : InternalConn D} {input : Input D}
    {effects : List (Effect D)} (h : InternalConn.step chunked c input = some (c', effects))
    (halone : PingsAlone c) {qid : Qid} (hqid : qid ∈ dataWritten effects) :
    ∃ op io token, input = .operation qid op io ∧ op.insertResponse = some token := by
  rcases step_cases h halone with ⟨_, _, -, rfl, -⟩ |
    ⟨qid', op, io, response, data, hinput, hop, hresult⟩ | ⟨qid', ping, io, -, hresult⟩ |
    ⟨-, hplain⟩
  · cases hqid
  · rw [(Prod.mk.inj hresult).2] at hqid
    have hof : ∀ x ∈ c.abandoned ++
        (sendInsert chunked { c with phase := .select } qid' data response io).2,
        ofInsert qid' x := by
      intro x hx
      rcases List.mem_append.mp hx with hx | hx
      · exact ofInsert_of_plain (abandoned_plain c x hx)
      · exact (sendInsert_effects chunked _ qid' data response io).1 x hx
    rw [dataWritten_of_insert hof qid hqid]
    exact ⟨op, io, response, hinput, hop⟩
  · rw [(Prod.mk.inj hresult).2] at hqid
    rw [dataWritten_eq_nil] at hqid
    · cases hqid
    · intro x hx
      rcases List.mem_append.mp hx with hx | hx
      · exact not_data_of_plain (abandoned_plain c x hx)
      · rcases (handleOperation_ping chunked _ qid' ping io).1 x hx with rfl | ⟨w, -, hw⟩
        · nofun
        · exact not_data_of_plain hw
  · rw [dataWritten_eq_nil fun x hx => not_data_of_plain (hplain.effects x hx)] at hqid
    cases hqid

/-- Inserts reach their own query exactly in the runs in which each is taken in its turn. -/
theorem insertsToOwnQuery_iff_inTurn (chunked : Bool) (inputs : List (Input D)) :
    InsertsToOwnQuery (history chunked inputs) ↔ InsertsInTurn (history chunked inputs) := by
  constructor
  · intro hown earlier v later hsplit qid op io token hinput hop
    obtain ⟨hbooks, -, hstep⟩ := books_at hsplit
    rw [← current_iff_due hbooks (alive_of_step hstep)]
    by_contra hcurrent
    -- the insert writes in any case
    have hv : v ∈ history chunked inputs := by simp [hsplit]
    have hsilent := (hown.refused v hv qid op io token hinput hop hcurrent).2
    rw [hinput] at hstep
    have hresult := (Prod.mk.inj (step_operation hstep)).2
    obtain ⟨data, hinsert⟩ := handleOperation_insert chunked
      ({ v.before with phase := .select } : InternalConn D) qid io hop
    obtain ⟨w, hw⟩ := (sendInsert_effects chunked
      ({ v.before with phase := .select } : InternalConn D) qid data token io).2
    refine hsilent w ?_
    rw [hresult, hinsert]
    exact List.mem_append_right _ hw
  · intro hturn
    have hcurrent {v : Move (InternalConn D) (Input D) (Effect D)}
        (hv : v ∈ history chunked inputs) {qid op io token}
        (hinput : v.input = .operation qid op io) (hop : op.insertResponse = some token) :
        v.before.current = [qid] := by
      obtain ⟨earlier, later, hsplit⟩ := List.append_of_mem hv
      obtain ⟨hbooks, -, hstep⟩ := books_at hsplit
      rw [current_iff_due hbooks (alive_of_step hstep)]
      exact hturn earlier v later hsplit qid op io token hinput hop
    constructor
    · intro v hv qid hqid
      obtain ⟨earlier, later, hsplit⟩ := List.append_of_mem hv
      obtain ⟨-, halone, hstep⟩ := books_at hsplit
      obtain ⟨op, io, token, hinput, hop⟩ := dataWritten_of_step hstep halone hqid
      exact hcurrent hv hinput hop
    · intro v hv qid op io token hinput hop hother
      exact absurd (hcurrent hv hinput hop) hother

/-- Two callers: the server refuses the first insert's query, the second caller's query is
sent, and then the first caller's insert is taken. -/
def intruding : List (Input Nat) :=
  [.operation [1] (.query "INSERT INTO a" 10 none) none,
    .operation [2] (.query "INSERT INTO b" 20 none) none,
    .packet (.exception ⟨60, "DB::Exception", "unknown table", "", false⟩) none,
    .operation [1] (.insert 7 11) none]

theorem not_insertsToOwnQuery_intruding :
    ¬ InsertsToOwnQuery (history false intruding) := by
  intro h
  have hblocks := h.blocks
  revert hblocks
  decide

/-! ## Pings in a run -/

/-- `ConnectionStatus`. -/
inductive ConnectionStatus
  | opened
  | closed
  | error
  deriving DecidableEq, Repr

/-- What `check_connection` marks the connection as, once its ping is settled: a sender
that is dropped counts as a closed connection. -/
def mark : Effect D → Option ConnectionStatus
  | .dropPing _ => some .closed
  | .pong _ false => some .error
  | _ => none

/-- What the connection has been marked as in a run. -/
def History.marks (past : History D) : List ConnectionStatus := past.effects.filterMap mark

/-- The sender of each ping of a live connection is used: it is not dropped, and the ping is
awaited or the next move answers it.  While the loop is alive the connection has not been
marked as closed. -/
structure PingsAnswered (past : History D) (c : InternalConn D) : Prop where
  answered : ∀ (earlier : History D) v (later : History D), past = earlier ++ v :: later →
    ∀ qid token io, v.input = .operation qid (.ping token) io → v.after.alive = true →
      .dropPing token ∉ v.out ∧
      ((later = [] ∧ c.phase = .pinging token) ∨
        ∃ w more received, later = w :: more ∧ w.out = [.pong token received])
  unmarked : c.alive = true → .closed ∉ past.marks

/-- Each ping is taken when every query that has arrived before it has ended. -/
def PingsAtRest (past : History D) : Prop :=
  ∀ (earlier : History D) v later, past = earlier ++ v :: later → ∀ qid token io,
    v.input = .operation qid (.ping token) io →
      closes earlier.effects = earlier.arrivals.length

/-- The loop is idle when every query that has arrived has ended. -/
theorem idle_iff_ended {past : History D} {c : InternalConn D} (hbooks : QueueBooks past c)
    (halive : c.alive = true) :
    c.Idle ↔ closes past.effects = past.arrivals.length := by
  have hcurrent := hbooks.current halive
  have hended := hbooks.ended
  have hlength := congrArg List.length hbooks.queue
  rw [List.length_append] at hlength
  have hnone : c.executing = none ↔ (written past.effects).length ≤ closes past.effects := by
    rw [← current_eq_nil, hcurrent, List.drop_eq_nil_iff, List.length_map]
  constructor
  · rintro ⟨hpending, he⟩
    have hle := hnone.mp he
    rw [hpending, List.length_nil] at hlength
    omega
  · intro h
    exact ⟨List.eq_nil_of_length_eq_zero (by omega), hnone.mpr (by omega)⟩

/-- A ping that is taken while the loop is idle is awaited, if the loop goes on. -/
theorem ping_step_idle {chunked : Bool} {c c' : InternalConn D} {qid : Qid} {token : Token}
    {io : Io} {effects : List (Effect D)}
    (h : InternalConn.step chunked c (.operation qid (.ping token) io) = some (c', effects))
    (hidle : c.Idle) (halive : c'.alive = true) :
    c'.phase = .pinging token ∧ .dropPing token ∉ effects := by
  have hresult := step_operation h
  have hping := (handleOperation_ping chunked
    ({ c with phase := .select } : InternalConn D) qid token io).2.1 hidle
  rw [(Prod.mk.inj hresult).1] at halive ⊢
  rw [(Prod.mk.inj hresult).2]
  rcases hping with ⟨hphase, -, hdrop⟩ | hreturned
  · refine ⟨hphase, fun hmem => ?_⟩
    rcases List.mem_append.mp hmem with hmem | hmem
    · have := abandoned_plain c _ hmem
      cases this
    · exact hdrop hmem
  · simp [alive, hreturned] at halive

/-- A ping that is taken while a query is executing or pending loses its sender, and the
loop goes on. -/
theorem ping_step_busy {chunked : Bool} {c c' : InternalConn D} {qid : Qid} {token : Token}
    {io : Io} {effects : List (Effect D)}
    (h : InternalConn.step chunked c (.operation qid (.ping token) io) = some (c', effects))
    (hbusy : ¬ c.Idle) : .dropPing token ∈ effects ∧ c'.alive = true := by
  have hresult := step_operation h
  have hping := (handleOperation_ping chunked
    ({ c with phase := .select } : InternalConn D) qid token io).2.2 hbusy
  rw [(Prod.mk.inj hresult).1, (Prod.mk.inj hresult).2, hping]
  exact ⟨by simp, rfl⟩

/-- A ping is dropped only by the move that takes it. -/
theorem dropPing_of_step {chunked : Bool} {c c' : InternalConn D} {input : Input D}
    {effects : List (Effect D)} (h : InternalConn.step chunked c input = some (c', effects))
    (halone : PingsAlone c) {token : Token} (hdrop : .dropPing token ∈ effects) :
    ∃ qid io, input = .operation qid (.ping token) io := by
  rcases step_cases h halone with ⟨_, _, -, rfl, -⟩ |
    ⟨qid, op, io, response, data, -, -, hresult⟩ | ⟨qid, ping, io, hinput, hresult⟩ |
    ⟨-, hplain⟩
  · simp at hdrop
  · rw [(Prod.mk.inj hresult).2] at hdrop
    rcases List.mem_append.mp hdrop with hdrop | hdrop
    · have := abandoned_plain c _ hdrop
      cases this
    · exact absurd ((sendInsert_effects chunked _ qid data response io).1 _ hdrop) id
  · rw [(Prod.mk.inj hresult).2] at hdrop
    rcases List.mem_append.mp hdrop with hdrop | hdrop
    · have := abandoned_plain c _ hdrop
      cases this
    · rcases (handleOperation_ping chunked _ qid ping io).1 _ hdrop with heq | ⟨w, hw, -⟩
      · cases heq
        exact ⟨qid, io, hinput⟩
      · cases hw
  · have := hplain.effects _ hdrop
    cases this

/-- A move keeps the pings answered if it takes a ping only when the loop is idle. -/
theorem pingsAnswered_step {chunked : Bool} {past : History D} {c c' : InternalConn D}
    {input : Input D} {effects : List (Effect D)} (hanswered : PingsAnswered past c)
    (halone : PingsAlone c)
    (h : InternalConn.step chunked c input = some (c', effects))
    (hrest : ∀ qid token io, input = .operation qid (.ping token) io → c.Idle) :
    PingsAnswered (past ++ [⟨c, input, effects, c'⟩]) c' := by
  constructor
  · intro earlier v later hsplit qid token io hinput halive
    rcases List.eq_nil_or_concat later with rfl | ⟨later, last, rfl⟩
    · obtain ⟨rfl, hv⟩ := List.append_inj' hsplit rfl
      cases hv
      subst hinput
      obtain ⟨hphase, hdrop⟩ := ping_step_idle h (hrest qid token io rfl) halive
      exact ⟨hdrop, Or.inl ⟨rfl, hphase⟩⟩
    · rw [List.concat_eq_append, ← List.cons_append, ← List.append_assoc] at hsplit
      obtain ⟨rfl, hlast⟩ := List.append_inj' hsplit rfl
      cases hlast
      obtain ⟨hdrop, hlater⟩ :=
        hanswered.answered earlier v later rfl qid token io hinput halive
      refine ⟨hdrop, ?_⟩
      rcases hlater with ⟨rfl, hphase⟩ | ⟨w, more, received, rfl, hout⟩
      · -- the new move answers the ping
        obtain ⟨⟨received, heffects⟩, -⟩ := step_pinging h hphase (halone token hphase)
        exact Or.inr ⟨_, [], received, rfl, heffects⟩
      -- a ping that has been answered stays so
      · exact Or.inr ⟨w, more ++ [⟨c, input, effects, c'⟩], received, by simp, hout⟩
  -- a mark of this move would come from a ping that is dropped, and an idle loop drops none
  · intro halive hmarked
    unfold History.marks at hmarked
    rw [effects_concat, List.filterMap_append] at hmarked
    rcases List.mem_append.mp hmarked with hmarked | hmarked
    · exact hanswered.unmarked (alive_of_step h) hmarked
    · obtain ⟨x, hx, hmark⟩ := List.mem_filterMap.mp hmarked
      unfold mark at hmark
      split at hmark
      · rename_i token
        obtain ⟨qid, io, hinput⟩ := dropPing_of_step h halone hx
        subst hinput
        exact (ping_step_idle h (hrest qid token io rfl) halive).2 hx
      · cases hmark
      · cases hmark

theorem pingsAnswered_of_atRest {chunked : Bool} {inputs : List (Input D)}
    (h : PingsAtRest (history chunked inputs)) :
    PingsAnswered (history chunked inputs) (reached chunked inputs) := by
  refine (Machine.invariant (m := InternalConn.step chunked) (s := new)
    (I := fun past c => (QueueBooks past c ∧ ResponseBooks past c) ∧ PingsAlone c ∧
      (PingsAtRest past → PingsAnswered past c)) ?_ ?_ inputs).2.2 h
  · exact ⟨books_new, nofun, fun _ => ⟨by simp, by simp [History.marks, History.effects]⟩⟩
  · rintro past c input c' effects ⟨⟨hqueue, hresponses⟩, halone, hanswered⟩ hstep
    refine ⟨books_step hqueue hresponses hstep, pingsAlone_step hstep halone, fun hrest => ?_⟩
    have hpast : PingsAtRest past := fun earlier v later hsplit =>
      hrest earlier v (later ++ [⟨c, input, effects, c'⟩]) (by simp [hsplit])
    refine pingsAnswered_step (hanswered hpast) halone hstep fun qid token io hinput => ?_
    exact (idle_iff_ended hqueue (alive_of_step hstep)).mpr
      (hrest past _ [] rfl qid token io hinput)

/-- Pings are answered, and the connection is not marked as closed, exactly in the runs in
which each ping is taken when every query before it has ended. -/
theorem pingsAnswered_iff_atRest (chunked : Bool) (inputs : List (Input D)) :
    PingsAnswered (history chunked inputs) (reached chunked inputs) ↔
      PingsAtRest (history chunked inputs) := by
  refine ⟨fun h earlier v later hsplit qid token io hinput => ?_, pingsAnswered_of_atRest⟩
  obtain ⟨hbooks, -, hstep⟩ := books_at hsplit
  rw [← idle_iff_ended hbooks (alive_of_step hstep)]
  by_contra hbusy
  rw [hinput] at hstep
  obtain ⟨hdrop, halive⟩ := ping_step_busy hstep hbusy
  exact (h.answered earlier v later hsplit qid token io hinput halive).1 hdrop

/-- A health check while a query is executing: the connection is marked as closed although
its loop is alive. -/
def interrupting : List (Input Nat) :=
  [.operation [1] (.query "SELECT" 10 none) none, .operation [2] (.ping 20) none]

theorem not_pingsAnswered_interrupting :
    ¬ PingsAnswered (history false interrupting) (reached false interrupting) := by
  intro h
  have hunmarked := h.unmarked
  revert hunmarked
  decide

end InternalConn

end ClickhouseArrow
