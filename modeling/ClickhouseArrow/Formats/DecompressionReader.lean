import ClickhouseArrow.Wire.AsyncReader
import ClickhouseArrow.Client.Chunk
import ClickhouseArrow.Formats.FrameSafety

/-!
# Frames as a stream of bytes

`DecompressionReader`, which decompresses one frame after another and serves their data to calls
of `poll_read`.  The inner reader is moved into the future that reads the next frame and comes back
when the frame has been read; a future that fails is dropped together with it.

However the stream arrives and however large the buffers of the calls are, the data of the frames
are served in order.  The reader never ends by itself: where the stream stops, cleanly or not, the
call that finds out returns an error, and only the calls behind it report the end of the data.
-/

namespace ClickhouseArrow

open Wire Transition

/-- The end or the failure of the stream in a part of a frame. -/
def stoppedInFrame (part atEnd : String) : Option IoError → Error
  | none => eofInFrame part atEnd 0 0
  | some e => eofInFrame part e.message 0 0

/-- A word of a frame. -/
def awaitFrameWord (α : Type) [Word α] (part : String) : AsyncReader IoError Error α :=
  AsyncReader.getLe α (stoppedInFrame part "unexpected end of file")

/-- `decompress_data_async`, driven by polls. -/
def decompressDataAsync (codec : Codec) (method : CompressionMethod) :
    AsyncReader IoError Error Bytes := do
  let checksumHigh ← awaitFrameWord UInt64 "checksum high"
  let checksumLow ← awaitFrameWord UInt64 "checksum low"
  let typeByte ← awaitFrameWord UInt8 "compression type"
  if typeByte ≠ method.byte then
    AsyncReader.fail (.protocol [.text "Unexpected compression algorithm for ", .text method.name,
      .text ": ", .hex 2 typeByte.toNat])
  else do
    let compressedSize ← awaitFrameWord UInt32 "compressed size"
    let decompressedSize ← awaitFrameWord UInt32 "decompressed size"
    if maxCompressedSize < compressedSize.toNat ∨ maxDecompressedSize < decompressedSize.toNat then
      AsyncReader.fail (.protocol [.text "Chunk size too large"])
    else if compressedSize.toNat < 9 then AsyncReader.done (.error (.panic .indexOutOfBounds))
    else do
      let payload ← AsyncReader.takeExact (stoppedInFrame "compressed payload" "early eof")
        (compressedSize.toNat - 9)
      let checksum : BitVec 128 := BitVec.ofNat 128
        ((checksumHigh.toNat <<< 64) ||| checksumLow.toNat)
      let calculated := codec.cityhash (frameBody method compressedSize decompressedSize payload)
      if calculated ≠ checksum then
        AsyncReader.fail (.protocol [.text "Checksum mismatch: expected ", .hex 32 checksum.toNat,
          .text ", got ", .hex 32 calculated.toNat])
      else AsyncReader.done (method.decompress codec payload decompressedSize.toNat)

/-- Over a stream that does not fail it is the reader of frames. -/
theorem run_decompressDataAsync (codec : Codec) (method : CompressionMethod) :
    (decompressDataAsync codec method).run none = decompressData codec method := by
  simp only [decompressDataAsync, awaitFrameWord, AsyncReader.run_bind, AsyncReader.run_getLe,
    AsyncReader.run_ite, AsyncReader.run_takeExact]
  rfl

/-- The reader of frames over a stream that stops with `stop`. -/
def frameReader (codec : Codec) (method : CompressionMethod) (stop : Option IoError) :
    Reader Error Bytes :=
  (decompressDataAsync codec method).run stop

/-- Frames one after another are read as their data, and then the end of the stream is met where the
next frame should begin. -/
theorem repeats_frames {codec : Codec} {method : CompressionMethod}
    (frames : List (Frame codec method)) :
    (frameReader codec method none).Repeats
      (frameReader codec method none (frames.flatMap Frame.bytes)) (frames.map Frame.raw)
      (.error (stoppedInFrame "checksum high" "unexpected end of file" none)) := by
  rw [frameReader, run_decompressDataAsync]
  induction frames with
  | nil => exact .stops _
  | cons frame frames ih =>
      rw [List.flatMap_cons, frame.reads, List.map_cons]
      exact .goesOn ih

/-! ## The reader -/

/-- The inner reader, by what it delivers. -/
abbrev SignalStream := List (Signal IoError)

/-- The `io::Error` that `poll_read` makes of an error. -/
structure ReadError where
  kind : ErrorKind
  source : Error

structure DecompressionReader where
  mode : CompressionMethod
  inner : Option SignalStream
  decompressed : Bytes
  position : Nat
  blockReadingFuture : Option (AsyncReader IoError Error Bytes × SignalStream)

namespace DecompressionReader

/-- `new`, which awaits the first frame. -/
def new (codec : Codec) (mode : CompressionMethod) (inner : SignalStream) :
    Outcome Error DecompressionReader :=
  match (decompressDataAsync codec mode).finish inner with
  | (.ok decompressed, rest) => .ok ⟨mode, some rest, decompressed, 0, none⟩
  | (.error e, _) => .error e

/-- What a call returns. -/
abbrev Answer := Poll (Outcome ReadError Unit)

/-- A call has left a reader and a buffer, and returned an answer. -/
abbrev Result := DecompressionReader × ReadBuf × Answer

/-- The part of `poll_read` behind the pending future: data that are there are served; without any
the next frame is asked for, and the call begins anew. -/
def serve (codec : Codec) (r : DecompressionReader) (buf : ReadBuf) :
    Turn (DecompressionReader × ReadBuf) Result :=
  let available := r.decompressed.length - r.position
  if 0 < available then
    let toServe := min available buf.remaining
    .done ({ r with position := r.position + toServe },
      buf.putSlice ((r.decompressed.drop r.position).take toServe), .ready (.ok ()))
  else
    match r.inner with
    | some inner =>
        .again ({ r with
          inner := none
          blockReadingFuture := some (decompressDataAsync codec r.mode, inner) }, buf)
    | none => .done (r, buf, .ready (.ok ()))

/-- `poll_read` up to its call of itself. -/
def turn (codec : Codec) (call : DecompressionReader × ReadBuf) :
    Turn (DecompressionReader × ReadBuf) Result :=
  if call.2.remaining = 0 then .done (call.1, call.2, .ready (.ok ()))
  else
    match call.1.blockReadingFuture with
    | none => serve codec call.1 call.2
    | some (future, inner) =>
        match future.poll inner with
        | (.await next stopped, inner) =>
            .done ({ call.1 with blockReadingFuture := some (.await next stopped, inner) },
              call.2, .pending)
        | (.done (.ok value), inner) =>
            serve codec { call.1 with
              inner := some inner
              decompressed := value
              position := 0
              blockReadingFuture := none } call.2
        | (.done (.error (.error e)), _) =>
            .done ({ call.1 with blockReadingFuture := none }, call.2,
              .ready (.error (.error ⟨.invalidData, e⟩)))
        | (.done (.error (.panic p)), inner) =>
            .done ({ call.1 with blockReadingFuture := some (.done (.error (.panic p)), inner) },
              call.2, .ready (.error (.panic p)))

/-- `poll_read` with a buffer of `n` bytes returns, and does so with this result. -/
def Polls (codec : Codec) (r : DecompressionReader) (n : Nat) (result : Result) : Prop :=
  Loop.Returns (turn codec) (r, .new n) result

/-- A call: the room in its buffer, the bytes that it has placed there, and its answer. -/
structure Call where
  capacity : Nat
  placed : Bytes
  answer : Answer

namespace Call

/-- The call has returned an error or has panicked. -/
def Fails (c : Call) : Prop := ∃ e, c.answer = .ready (.error e)

def Panics (c : Call) : Prop := ∃ p, c.answer = .ready (.error (.panic p))

end Call

/-- Calls one after another, and the reader that they leave.  None is made behind a panic. -/
inductive Calls (codec : Codec) (r : DecompressionReader) : List Call → DecompressionReader → Prop
  | nil : Calls codec r [] r
  | snoc {past : List Call} {r' r'' : DecompressionReader} {n : Nat} {buf : ReadBuf}
      {answer : Answer} (hpast : Calls codec r past r') (halive : ∀ c ∈ past, ¬ c.Panics)
      (hpoll : Polls codec r' n (r'', buf, answer)) :
      Calls codec r (past ++ [⟨n, buf.filled, answer⟩]) r''

/-- What the calls have placed in their buffers. -/
def served (calls : List Call) : Bytes := calls.flatMap Call.placed

/-- The answer to a failure in a frame. -/
def answerOf : Fault Error → Answer
  | .error e => .ready (.error (.error ⟨.invalidData, e⟩))
  | .panic p => .ready (.error (.panic p))

/-- What a call behind others may do, where `data` are the bytes of all frames and `fault` is how
the stream stops. -/
inductive Proper (data : Bytes) (fault : Fault Error) (past : List Call) : Call → Prop
  | noRoom : Proper data fault past ⟨0, [], .ready (.ok ())⟩
  | waits (n : Nat) (hworks : ∀ c ∈ past, ¬ c.Fails) : Proper data fault past ⟨n, [], .pending⟩
  | serves {n : Nat} {bytes : Bytes} (hworks : ∀ c ∈ past, ¬ c.Fails) (hne : bytes ≠ [])
      (hroom : bytes.length ≤ n) (hnext : served past ++ bytes <+: data) :
      Proper data fault past ⟨n, bytes, .ready (.ok ())⟩
  | fails (n : Nat) (hworks : ∀ c ∈ past, ¬ c.Fails) (hall : served past = data) :
      Proper data fault past ⟨n, [], answerOf fault⟩
  | ended (n : Nat) (hfailed : ∃ c ∈ past, c.Fails) (hall : served past = data) :
      Proper data fault past ⟨n, [], .ready (.ok ())⟩

/-- The calls that have room in their buffers. -/
def withRoom (calls : List Call) : Nat := calls.countP fun c => decide (0 < c.capacity)

/-- What is promised of every list of calls. -/
structure Serves (data : Bytes) (fault : Fault Error) (delays : Nat) (calls : List Call) :
    Prop where
  /-- Every call does what it may do behind those before it. -/
  proper : ∀ past c later, calls = past ++ c :: later → Proper data fault past c
  /-- So many calls with room are enough for all of the data. -/
  enough : data.length + delays ≤ withRoom calls → served calls = data

/-- The data of the frames are served in order, for every list of buffers, up to the place where the
stream stops, and there the reader fails. -/
def ServesFrames (codec : Codec) (mode : CompressionMethod) (inner : SignalStream) : Prop :=
  ∀ r, new codec mode inner = .ok r →
    ∃ frames fault,
      (frameReader codec mode (Signal.stop inner)).Repeats
        (frameReader codec mode (Signal.stop inner) (Signal.octets inner)) frames fault ∧
      (∀ calls r', Calls codec r calls r' →
        Serves frames.flatten fault (Signal.delays inner) calls) ∧
      ∀ calls r' n, Calls codec r calls r' → (∀ c ∈ calls, ¬ c.Panics) →
        ∃ result, Polls codec r' n result

/-! ## A call -/

section Poll

variable {codec : Codec} {r : DecompressionReader} {p : Reader Error Bytes} {stop : Option IoError}
  {fault : Fault Error} {left : Bytes} {delays n : Nat}

/-- The reader is at work: it holds the stream or is reading a frame from it.  `left` are the bytes
that it has not served, of this frame and of all others. -/
inductive Works (codec : Codec) (stop : Option IoError) (fault : Fault Error) :
    DecompressionReader → Bytes → Nat → Prop
  | holds {r : DecompressionReader} {inner : SignalStream} {frames : List Bytes}
      (hinner : r.inner = some inner) (hfuture : r.blockReadingFuture = none)
      (hstop : Signal.stop inner = stop)
      (hframes : (frameReader codec r.mode stop).Repeats
        (frameReader codec r.mode stop (Signal.octets inner)) frames fault) :
      Works codec stop fault r (r.decompressed.drop r.position ++ frames.flatten)
        (Signal.delays inner)
  | reads {r : DecompressionReader} {next : UInt8 → AsyncReader IoError Error Bytes}
      {stopped : Option IoError → Error} {inner : SignalStream} {frames : List Bytes}
      (hinner : r.inner = none) (hfuture : r.blockReadingFuture = some (.await next stopped, inner))
      (hserved : r.decompressed.length ≤ r.position) (hstop : Signal.stop inner = stop)
      (hframes : (frameReader codec r.mode stop).Repeats
        ((AsyncReader.await next stopped).run stop (Signal.octets inner)) frames fault) :
      Works codec stop fault r frames.flatten (Signal.delays inner)

/-- A future has failed: there is nothing to read from, and nothing to serve. -/
def Ended (r : DecompressionReader) : Prop :=
  r.inner = none ∧ r.blockReadingFuture = none ∧ r.decompressed.length ≤ r.position

/-- What a call with room for `n > 0` bytes comes to, of a reader at work. -/
inductive Outcomes (codec : Codec) (stop : Option IoError) (fault : Fault Error) (left : Bytes)
    (delays n : Nat) : Result → Prop
  | waits {r : DecompressionReader} {d : Nat} (h : Works codec stop fault r left d)
      (hdelays : d + 1 = delays) : Outcomes codec stop fault left delays n (r, .new n, .pending)
  | serves {r : DecompressionReader} {bytes rest : Bytes} (hne : bytes ≠ [])
      (hroom : bytes.length ≤ n) (hleft : left = bytes ++ rest)
      (h : Works codec stop fault r rest delays) :
      Outcomes codec stop fault left delays n (r, ⟨bytes, n - bytes.length⟩, .ready (.ok ()))
  | fails {r : DecompressionReader} (hleft : left = [])
      (h : Ended r ∨ ∃ p, fault = .panic p) :
      Outcomes codec stop fault left delays n (r, .new n, answerOf fault)

/-- The signals that are left in the stream, twice, and once more where no frame is being read. -/
def work (r : DecompressionReader) : Nat :=
  match r.inner, r.blockReadingFuture with
  | some inner, _ => 2 * inner.length + 1
  | none, some (_, inner) => 2 * inner.length
  | none, none => 0

theorem work_holds {inner : SignalStream} (h : r.inner = some inner) :
    work r = 2 * inner.length + 1 := by
  rw [work, h]

theorem work_reads {future : AsyncReader IoError Error Bytes} {inner : SignalStream}
    (hinner : r.inner = none) (h : r.blockReadingFuture = some (future, inner)) :
    work r = 2 * inner.length := by
  rw [work, hinner, h]

/-- The reader of a frame awaits an octet first. -/
theorem exists_decompressDataAsync (codec : Codec) (mode : CompressionMethod) :
    ∃ next stopped, decompressDataAsync codec mode = .await next stopped :=
  ⟨_, _, rfl⟩

/-- Serving, of a reader that holds the stream: bytes that are there are served, and without any a
frame is asked for. -/
theorem serve_holds {inner : SignalStream} {frames : List Bytes} (hn : 0 < n)
    (hinner : r.inner = some inner) (hfuture : r.blockReadingFuture = none)
    (hstop : Signal.stop inner = stop)
    (hframes : (frameReader codec r.mode stop).Repeats
      (frameReader codec r.mode stop (Signal.octets inner)) frames fault) :
    (∃ result, serve codec r (.new n) = .done result ∧
        Outcomes codec stop fault (r.decompressed.drop r.position ++ frames.flatten)
          (Signal.delays inner) n result) ∨
      ∃ r', serve codec r (.new n) = .again (r', .new n) ∧
        Works codec stop fault r' (r.decompressed.drop r.position ++ frames.flatten)
          (Signal.delays inner) ∧ work r' = 2 * inner.length := by
  unfold serve
  by_cases havailable : 0 < r.decompressed.length - r.position
  · left
    simp only [havailable, if_true]
    refine ⟨_, rfl, ?_⟩
    -- what is served stands before what is left
    have hsplit : r.decompressed.drop r.position =
        (r.decompressed.drop r.position).take (min (r.decompressed.length - r.position) n) ++
          r.decompressed.drop
            (r.position + min (r.decompressed.length - r.position) n) := by
      rw [← List.drop_drop, List.take_append_drop]
    have hlength : ((r.decompressed.drop r.position).take
        (min (r.decompressed.length - r.position) n)).length =
          min (r.decompressed.length - r.position) n := by
      rw [List.length_take, List.length_drop]
      omega
    have hne : (r.decompressed.drop r.position).take
        (min (r.decompressed.length - r.position) n) ≠ [] := by
      rw [← List.length_pos_iff, hlength]
      omega
    have hrest : Works codec stop fault { r with
        position := r.position + min (r.decompressed.length - r.position) n }
        (r.decompressed.drop (r.position + min (r.decompressed.length - r.position) n) ++
          frames.flatten) (Signal.delays inner) :=
      .holds hinner hfuture hstop hframes
    refine Outcomes.serves hne ?_ ?_ hrest
    · exact hlength.trans_le (min_le_right _ n)
    · show _ = _ ++ (r.decompressed.drop _ ++ frames.flatten)
      rw [← List.append_assoc]
      exact congrArg (· ++ frames.flatten) hsplit
  · right
    simp only [havailable, if_false, hinner]
    obtain ⟨next, stopped, htask⟩ := exists_decompressDataAsync codec r.mode
    refine ⟨_, rfl, ?_, rfl⟩
    rw [List.drop_eq_nil_of_le (by omega), List.nil_append]
    refine @Works.reads codec stop fault { r with
      inner := none, blockReadingFuture := some (decompressDataAsync codec r.mode, inner) }
      next stopped inner frames rfl (by rw [htask]) (by simp only; omega) hstop ?_
    rw [← htask]
    exact hframes

/-- One turn of a call with room, of a reader at work. -/
theorem turn_works (hn : 0 < n) (h : Works codec stop fault r left delays) :
    (∃ result, turn codec (r, .new n) = .done result ∧
        Outcomes codec stop fault left delays n result) ∨
      ∃ r', turn codec (r, .new n) = .again (r', .new n) ∧
        Works codec stop fault r' left delays ∧ work r' < work r := by
  have hroom : ¬ (ReadBuf.new n).remaining = 0 := Nat.pos_iff_ne_zero.mp hn
  cases h with
  | holds hinner hfuture hstop hframes =>
      simp only [turn, hroom, if_false, hfuture]
      rcases serve_holds hn hinner hfuture hstop hframes with hdone | ⟨r', hagain, hworks, hwork⟩
      · exact .inl hdone
      · refine .inr ⟨r', hagain, hworks, ?_⟩
        rw [hwork, work_holds hinner]
        exact Nat.lt_succ_self _
  | @reads next stopped inner frames hinner hfuture hserved hstop hframes =>
      have hrun := AsyncReader.run_poll (.await next stopped) inner
      simp only [turn, hroom, if_false, hfuture]
      rcases AsyncReader.poll_cases (.await next stopped) inner with
        ⟨value, rest, hpoll, hrest, hdelays, hshort⟩ | ⟨e, rest, hpoll⟩ |
          ⟨next', stopped', rest, hpoll, hrest, hdelays⟩
      · -- a frame has been read
        rw [hpoll, hrest, hstop] at hrun
        rw [← hrun] at hframes
        obtain ⟨⟩ | ⟨hframes⟩ := hframes
        rename_i frames
        have hshorter : rest.length < inner.length := by
          rcases hshort with ⟨result, hdone⟩ | hshort
          · cases hdone
          · exact hshort
        rw [hpoll, ← hdelays]
        rcases @serve_holds codec
          { r with
            inner := some rest, decompressed := value, position := 0, blockReadingFuture := none }
          stop fault n rest frames hn rfl rfl (hrest.trans hstop) hframes with
          hdone | ⟨r', hagain, hworks, hwork⟩
        · exact .inl hdone
        · refine .inr ⟨r', hagain, hworks, ?_⟩
          rw [hwork, work_reads hinner hfuture]
          omega
      · -- the stream has stopped
        left
        rw [hpoll] at hrun ⊢
        rw [hstop] at hrun
        rw [← hrun] at hframes
        cases hframes with
        | stops =>
            cases fault with
            | error e => exact ⟨_, rfl, .fails rfl (.inl ⟨hinner, rfl, hserved⟩)⟩
            | panic p => exact ⟨_, rfl, .fails rfl (.inr ⟨p, rfl⟩)⟩
      · -- the stream is not ready
        left
        rw [hpoll] at hrun ⊢
        refine ⟨_, rfl, .waits (d := Signal.delays rest) ?_ hdelays⟩
        refine Works.reads (r := { r with
          blockReadingFuture := some (.await next' stopped', rest) }) hinner rfl hserved
          (hrest.trans hstop) ?_
        rw [hrest, hstop] at hrun
        rw [hrun]
        exact hframes

/-- A call with room, of a reader at work, returns. -/
theorem exists_polls (hn : 0 < n) (h : Works codec stop fault r left delays) :
    ∃ result, Polls codec r n result ∧ Outcomes codec stop fault left delays n result := by
  -- a turn that begins the call anew has left less of the stream
  refine Loop.exists_returns
    (I := fun call => call.2 = .new n ∧ Works codec stop fault call.1 left delays)
    (fun call => work call.1) ?_ ⟨rfl, h⟩
  rintro ⟨r, _⟩ ⟨rfl, hworks⟩
  rcases turn_works hn hworks with hdone | ⟨r', hagain, hworks', hwork⟩
  · exact .inl hdone
  · exact .inr ⟨_, hagain, ⟨rfl, hworks'⟩, hwork⟩

theorem polls_noRoom (r : DecompressionReader) :
    Polls codec r 0 (r, .new 0, .ready (.ok ())) :=
  (Loop.returns_done (by simp [turn, ReadBuf.new])).mpr rfl

theorem polls_ended (h : Ended r) : Polls codec r n (r, .new n, .ready (.ok ())) := by
  obtain ⟨hinner, hfuture, hserved⟩ := h
  refine (Loop.returns_done ?_).mpr rfl
  have hnone : ¬ 0 < r.decompressed.length - r.position := by omega
  simp only [turn, hfuture, serve, hinner, hnone, if_false, ite_self]

end Poll

/-! ## Calls one after another -/

section Calls

variable {codec : Codec} {r : DecompressionReader} {stop : Option IoError} {fault : Fault Error}
  {data : Bytes} {total n : Nat} {calls past : List Call} {placed : Bytes} {answer : Answer}

theorem served_snoc (c : Call) : served (past ++ [c]) = served past ++ c.placed := by
  rw [served, served, List.flatMap_append, List.flatMap_cons, List.flatMap_nil, List.append_nil]

theorem withRoom_snoc_le (c : Call) : withRoom (past ++ [c]) ≤ withRoom past + 1 := by
  rw [withRoom, List.countP_append]
  exact Nat.add_le_add_left List.countP_le_length _

theorem withRoom_snoc_noRoom : withRoom (past ++ [⟨0, placed, answer⟩]) = withRoom past := by
  rw [withRoom, List.countP_append]
  rfl

theorem fails_answerOf (n : Nat) (placed : Bytes) (fault : Fault Error) :
    (⟨n, placed, answerOf fault⟩ : Call).Fails := by
  cases fault with
  | error e => exact ⟨_, rfl⟩
  | panic p => exact ⟨_, rfl⟩

theorem not_fails_snoc {last : Call} (h : ∀ c ∈ past, ¬ c.Fails) (hlast : ¬ last.Fails) :
    ∀ c ∈ past ++ [last], ¬ c.Fails := by
  intro c hc
  rcases List.mem_append.mp hc with hc | hc
  · exact h c hc
  · rw [List.mem_singleton.mp hc]
    exact hlast

/-- How a run stands: the reader is at work, and what it has served and what is left are the data;
or a call has failed, behind all of the data.  Each call with room has served an octet or met one of
the delays. -/
inductive Stands (codec : Codec) (stop : Option IoError) (fault : Fault Error) (data : Bytes)
    (total : Nat) (calls : List Call) (r : DecompressionReader) : Prop
  | works {left : Bytes} {delays : Nat} (h : Works codec stop fault r left delays)
      (hworks : ∀ c ∈ calls, ¬ c.Fails) (hdata : served calls ++ left = data)
      (hcount : withRoom calls + delays ≤ (served calls).length + total)
  | failed (h : Ended r ∨ ∃ c ∈ calls, c.Panics) (hfailed : ∃ c ∈ calls, c.Fails)
      (hall : served calls = data)

/-- A call does what it may do, and keeps the run as it should stand. -/
theorem Stands.step {r' : DecompressionReader} {buf : ReadBuf}
    (h : Stands codec stop fault data total past r) (halive : ∀ c ∈ past, ¬ c.Panics)
    (hpoll : Polls codec r n (r', buf, answer)) :
    Proper data fault past ⟨n, buf.filled, answer⟩ ∧
      Stands codec stop fault data total (past ++ [⟨n, buf.filled, answer⟩]) r' := by
  rcases Nat.eq_zero_or_pos n with rfl | hn
  · -- without room nothing happens
    have hsame := hpoll.unique (polls_noRoom r)
    cases hsame
    refine ⟨.noRoom, ?_⟩
    have hserved : served (past ++ [⟨0, (ReadBuf.new 0).filled, .ready (.ok ())⟩]) = served past :=
      (served_snoc _).trans (List.append_nil _)
    cases h with
    | works h hworks hdata hcount =>
        refine .works h (not_fails_snoc hworks ?_) (by rw [hserved, hdata]) ?_
        · rintro ⟨e, he⟩
          cases he
        · rw [hserved, withRoom_snoc_noRoom]
          exact hcount
    | failed h hfailed hall =>
        obtain ⟨c, hc, hfails⟩ := hfailed
        refine .failed ?_ ⟨c, List.mem_append_left _ hc, hfails⟩ (hserved.trans hall)
        rcases h with h | ⟨c, hc, hpanics⟩
        · exact .inl h
        · exact absurd hpanics (halive c hc)
  · cases h with
    | works h hworks hdata hcount =>
        obtain ⟨result, hresult, hcases⟩ := exists_polls hn h
        have hsame := hpoll.unique hresult
        subst hsame
        have hroom : withRoom (past ++ [⟨n, buf.filled, answer⟩]) ≤ withRoom past + 1 :=
          withRoom_snoc_le _
        cases hcases with
        | waits hnext hdelays =>
            refine ⟨.waits n hworks, .works hnext (not_fails_snoc hworks ?_) ?_ ?_⟩
            · rintro ⟨e, he⟩
              cases he
            · rw [served_snoc]
              exact (congrArg (· ++ _) (List.append_nil _)).trans hdata
            -- a delay is paid for by the call
            · rw [served_snoc, List.length_append]
              omega
        | @serves _ bytes rest hne hshort hleft hnext =>
            subst hleft
            refine ⟨.serves hworks hne hshort ⟨rest, ?_⟩,
              .works hnext (not_fails_snoc hworks ?_) ?_ ?_⟩
            · rw [List.append_assoc]
              exact hdata
            · rintro ⟨e, he⟩
              cases he
            · rw [served_snoc, List.append_assoc]
              exact hdata
            · have hpositive := List.length_pos_iff.mpr hne
              rw [served_snoc, List.length_append]
              simp only at hroom ⊢
              omega
        | fails hleft hend =>
            rw [hleft, List.append_nil] at hdata
            refine ⟨.fails n hworks hdata, .failed ?_ ⟨_, List.mem_append_right _
              (List.mem_singleton_self _), fails_answerOf n _ fault⟩ ?_⟩
            · rcases hend with hend | ⟨p, rfl⟩
              · exact .inl hend
              · exact .inr ⟨_, List.mem_append_right _ (List.mem_singleton_self _), p, rfl⟩
            · rw [served_snoc]
              exact (List.append_nil _).trans hdata
    | failed h hfailed hall =>
        -- behind the failure nothing is polled any more
        have hended : Ended r := by
          rcases h with h | ⟨c, hc, hpanics⟩
          · exact h
          · exact absurd hpanics (halive c hc)
        have hsame := hpoll.unique (polls_ended hended)
        cases hsame
        obtain ⟨c, hc, hfails⟩ := hfailed
        refine ⟨.ended n ⟨c, hc, hfails⟩ hall, .failed (.inl hended)
          ⟨c, List.mem_append_left _ hc, hfails⟩ ?_⟩
        rw [served_snoc]
        exact (List.append_nil _).trans hall

/-- Every list of calls keeps the run as it should stand. -/
theorem Calls.stands {r' : DecompressionReader} (h : Calls codec r calls r')
    (hstart : Stands codec stop fault data total [] r) :
    Stands codec stop fault data total calls r' ∧
      ∀ past c later, calls = past ++ c :: later → Proper data fault past c := by
  induction h with
  | nil => exact ⟨hstart, fun past c later h => by simp at h⟩
  | snoc _ halive hpoll ih =>
      obtain ⟨hstands, hproper⟩ := ih
      obtain ⟨hlast, hstands'⟩ := hstands.step halive hpoll
      refine ⟨hstands', fun past c later hsplit => ?_⟩
      rcases List.eq_nil_or_concat later with rfl | ⟨later, last, rfl⟩
      · obtain ⟨rfl, hc⟩ := List.append_inj' hsplit rfl
        cases hc
        exact hlast
      · rw [List.concat_eq_append, ← List.cons_append, ← List.append_assoc] at hsplit
        exact hproper past c later (List.append_inj' hsplit rfl).1

/-- A run that stands as it should has served all of the data after enough calls. -/
theorem Stands.enough (h : Stands codec stop fault data total calls r)
    (henough : data.length + total ≤ withRoom calls) : served calls = data := by
  cases h with
  | failed h hfailed hall => exact hall
  | @works left delays h hworks hdata hcount =>
      have hlength := congrArg List.length hdata
      rw [List.length_append] at hlength
      have hleft : left = [] := List.eq_nil_of_length_eq_zero (by omega)
      rw [hleft, List.append_nil] at hdata
      exact hdata

/-- A call behind others returns. -/
theorem Stands.exists_polls (h : Stands codec stop fault data total calls r)
    (halive : ∀ c ∈ calls, ¬ c.Panics) (n : Nat) : ∃ result, Polls codec r n result := by
  rcases Nat.eq_zero_or_pos n with rfl | hn
  · exact ⟨_, polls_noRoom r⟩
  · cases h with
    | works h hworks hdata hcount =>
        obtain ⟨result, hresult, -⟩ := DecompressionReader.exists_polls hn h
        exact ⟨result, hresult⟩
    | failed h hfailed hall =>
        rcases h with h | ⟨c, hc, hpanics⟩
        · exact ⟨_, polls_ended h⟩
        · exact absurd hpanics (halive c hc)

end Calls

/-- However a stream of frames arrives and however large the buffers are, the reader serves the data
of the frames in order: every call returns, and serves the next bytes, or waits because the stream
is not ready; where the stream stops, the first call that finds all of the data served returns an
error, and those behind it report the end. -/
theorem servesFrames (codec : Codec) (mode : CompressionMethod) (inner : SignalStream) :
    ServesFrames codec mode inner := by
  intro r hnew
  unfold new at hnew
  rcases (decompressDataAsync codec mode).run_finish inner with
    ⟨value, rest, hfinish, hstop, hrun⟩ | ⟨e, rest, hfinish, hrun⟩
  · rw [hfinish] at hnew
    cases hnew
    obtain ⟨next, stopped, htask⟩ := exists_decompressDataAsync codec mode
    obtain ⟨frames, fault, hframes⟩ := Reader.exists_repeats
      (p := frameReader codec mode (Signal.stop inner)) (fun bs a rest h => by
        rw [frameReader, htask] at h
        exact AsyncReader.length_lt_of_run_await h) (Signal.octets rest)
    -- the first frame is there, and the stream behind it
    have hdelays : Signal.delays rest ≤ Signal.delays inner :=
      (congrArg (fun x => Signal.delays x.2) hfinish).symm.trans_le
        (AsyncReader.delays_finish_le _ _)
    have hstart : Stands codec (Signal.stop inner) fault (value :: frames).flatten
        (Signal.delays inner) [] ⟨mode, some rest, value, 0, none⟩ :=
      .works (.holds rfl rfl hstop hframes) (fun c hc => by simp at hc) rfl (by
        show 0 + Signal.delays rest ≤ 0 + Signal.delays inner
        omega)
    refine ⟨value :: frames, fault, ?_, fun calls r' hcalls => ?_,
      fun calls r' n hcalls halive => ?_⟩
    · rw [frameReader, hrun]
      exact .goesOn hframes
    · obtain ⟨hstands, hproper⟩ := hcalls.stands hstart
      exact ⟨hproper, hstands.enough⟩
    · exact (hcalls.stands hstart).1.exists_polls halive n
  · rw [hfinish] at hnew
    cases hnew

end DecompressionReader

end ClickhouseArrow
