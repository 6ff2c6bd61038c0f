import ClickhouseArrow.Client.Chunk

/-!
# Calls of `ChunkReader::poll_read`

A call walks along the stream: headers, and data up to the room in the caller's buffer.  It
returns unless the stream ends where the walk needs a header, and while it returns it hands
out the payload of the chunks.
-/

namespace ClickhouseArrow

namespace ChunkReader

open Wire Transition

/-! ## Calls at the end of the stream -/

/-- The stream ends where the walk from `position`, with room for `room` more bytes, has come
to a header.  A header is what a single read brings, however short. -/
inductive RunsDry : Position → Nat → Inner → Prop
  | ended {room : Nat} : RunsDry .header room []
  | terminator {room : Nat} {inner rest : Inner} {bs : Bytes}
      (hpoll : inner.pollRead 4 = (.ready (.ok bs), rest)) (hsize : ofLeBytes bs = 0)
      (hrest : RunsDry .header room rest) : RunsDry .header room inner
  | chunk {room : Nat} {inner rest : Inner} {bs : Bytes}
      (hpoll : inner.pollRead 4 = (.ready (.ok bs), rest)) (hpos : 0 < ofLeBytes bs)
      (hle : ofLeBytes bs ≤ maxChunk) (hrest : RunsDry (.data (ofLeBytes bs)) room rest) :
      RunsDry .header room inner
  | data {left room : Nat} {inner rest : Inner} {bs : Bytes}
      (hpoll : inner.pollRead (min room left) = (.ready (.ok bs), rest)) (hbs : bs ≠ [])
      (hroom : bs.length < room)
      (hrest : RunsDry (.within (left - bs.length)) (room - bs.length) rest) :
      RunsDry (.data left) room inner
  | closed {room : Nat} {inner : Inner} (hroom : 0 < room) (hrest : RunsDry .header room inner) :
      RunsDry (.data 0) room inner

/-- No bytes are kept from an earlier call, and the stream runs dry at a header. -/
def Stalls (reader : ChunkReader) (buf : ReadBuf) : Prop :=
  reader.buffer.length ≤ reader.bufferPos ∧ RunsDry reader.position buf.remaining reader.inner

/-- The end of the stream as a caller sees it: nothing is placed, or `UnexpectedEof`. -/
def ReportsEnd (buf : ReadBuf) (r : Result) : Prop :=
  (r.2 = .ready (.ok ()) ∧ r.1.buf = buf) ∨
    ∃ message, r.2 = .ready (.error ⟨.unexpectedEof, message⟩)

/-- The call returns, and reports the end of the stream if the inner reader has. -/
def ReturnsAtEnd (reader : ChunkReader) (buf : ReadBuf) : Prop :=
  ∃ r, Polls reader buf r ∧ (r.1.ended = true → ReportsEnd buf r)

/-- A call at a header position that runs dry makes a turn to another such position. -/
theorem runsDry_turn {c : Call} (h : RunsDry c.reader.position c.buf.remaining c.reader.inner) :
    ∃ c', turn c = .again c' ∧
      RunsDry c'.reader.position c'.buf.remaining c'.reader.inner := by
  generalize hposition : c.reader.position = position at h
  generalize hremaining : c.buf.remaining = room at h
  generalize hinner : c.reader.inner = inner at h
  -- each way of running dry is one turn, and the rest of the stream runs dry behind it
  cases h with
  | ended =>
    have hstate := position_eq_header.mp hposition
    have hpoll : c.reader.inner.pollRead 4 = (.ready (.ok []), []) := by
      rw [hinner]
      rfl
    refine ⟨_, turn_header hstate hpoll, ?_⟩
    have hnext : ((c.polled [] []).setChunkSize 0).reader.position = .header :=
      position_eq_header.mpr hstate
    rw [hnext]
    exact .ended
  | @terminator _ _ rest bs hpoll hsize hrest =>
    have hstate := position_eq_header.mp hposition
    rw [← hinner] at hpoll
    have hturn := turn_header hstate hpoll
    rw [if_pos hsize] at hturn
    refine ⟨_, hturn, ?_⟩
    have hnext : ((c.polled rest bs).setChunkSize 0).reader.position = .header :=
      position_eq_header.mpr hstate
    rw [← hremaining] at hrest
    rw [hnext]
    exact hrest
  | chunk hpoll hpos hle hrest =>
    have hstate := position_eq_header.mp hposition
    rw [← hinner] at hpoll
    have hturn := turn_header hstate hpoll
    rw [if_neg (by omega), if_neg (by omega)] at hturn
    refine ⟨_, hturn, ?_⟩
    rw [← hremaining] at hrest
    exact hrest
  | data hpoll hbs hroom hrest =>
    obtain ⟨hstate, hleft⟩ := position_eq_data.mp hposition
    subst hleft hremaining
    rw [← hinner] at hpoll
    have hturn := turn_data hstate hpoll hbs
    rw [if_neg (by omega)] at hturn
    refine ⟨_, hturn, ?_⟩
    rw [position_took]
    exact hrest
  | closed hroom hrest =>
    obtain ⟨hstate, hleft⟩ := position_eq_data.mp hposition
    rw [← hremaining] at hroom hrest
    refine ⟨_, turn_data_closed hstate hleft hroom, ?_⟩
    rw [← hinner] at hrest
    exact hrest

/-- What is left to do before the stream is read to its end. -/
def Call.work (c : Call) : Nat :=
  2 * c.reader.inner.size + match c.reader.state with
    | .header => 0
    | .data => 1

theorem work_took {c : Call} {inner : Inner} {bs : Bytes} (h : inner.size < c.reader.inner.size) :
    (c.took inner bs).work < c.work := by
  have hle : (match (c.took inner bs).reader.state with
      | .header => 0
      | .data => 1) ≤ 1 := by
    split <;> omega
  show 2 * inner.size + _ < 2 * c.reader.inner.size + _
  omega

/-- What holds between two turns of a call that does not run dry: the end of the stream has
not been reported, and a caller's buffer without room is as it was given. -/
structure Going (buf : ReadBuf) (c : Call) : Prop where
  notDry : ¬ RunsDry c.reader.position c.buf.remaining c.reader.inner
  ended : c.ended = false
  full : c.buf.remaining = 0 → c.buf = buf

/-- A turn of such a call returns or makes progress. -/
theorem Going.turn {buf : ReadBuf} {c : Call} (h : Going buf c) :
    (∃ r, turn c = .done r ∧ (r.1.ended = true → ReportsEnd buf r)) ∨
      ∃ c', turn c = .again c' ∧ Going buf c' ∧ c'.work < c.work := by
  have hnotEnded : ¬ c.ended = true := by simp [h.ended]
  cases hstate : c.reader.state with
  | header =>
    have hposition := position_eq_header.mpr hstate
    rcases hpoll : c.reader.inner.pollRead 4 with ⟨_ | e | bs, inner⟩
    · exact .inl ⟨_, turn_header_pending hstate hpoll, fun he => absurd he hnotEnded⟩
    · exact .inl ⟨_, turn_header_error hstate hpoll, fun he => absurd he hnotEnded⟩
    · -- at the end of the stream the call would run dry
      have hbs : bs ≠ [] := by
        rintro rfl
        have hnil := Inner.eq_nil_of_pollRead hpoll (by omega)
        exact h.notDry (by rw [hposition, hnil]; exact .ended)
      have hsize := Inner.size_of_pollRead hpoll hbs
      have hended : (c.polled inner bs).ended = false := by
        simp [Call.polled, h.ended, hbs]
      have hturn := turn_header hstate hpoll
      by_cases hzero : ofLeBytes bs = 0
      · rw [if_pos hzero] at hturn
        have hnext : ((c.polled inner bs).setChunkSize 0).reader.position = .header :=
          position_eq_header.mpr hstate
        refine .inr ⟨_, hturn, ⟨?_, hended, h.full⟩, ?_⟩
        · intro hdry
          rw [hnext] at hdry
          exact h.notDry (by rw [hposition]; exact .terminator hpoll hzero hdry)
        · show 2 * inner.size + _ < 2 * c.reader.inner.size + _
          simp only [Call.setChunkSize, Call.polled, hstate]
          omega
      · rw [if_neg hzero] at hturn
        -- a chunk that is too large is an error, and the call is over
        by_cases hmax : maxChunk < ofLeBytes bs
        · rw [if_pos hmax] at hturn
          exact .inl ⟨_, hturn, fun he => absurd he (by simp [Call.setChunkSize, hended])⟩
        · rw [if_neg hmax] at hturn
          refine .inr ⟨_, hturn, ⟨?_, hended, h.full⟩, ?_⟩
          · intro hdry
            exact h.notDry (by
              rw [hposition]
              exact .chunk hpoll (by omega) (by omega) hdry)
          · show 2 * inner.size + _ < 2 * c.reader.inner.size + _
            simp only [Call.setState, hstate]
            omega
  | data =>
    have hposition := position_eq_data.mpr ⟨hstate, rfl⟩
    by_cases hasks : c.Asks
    · rcases hpoll : c.reader.inner.pollRead (min c.buf.remaining c.reader.chunkSize) with
        ⟨_ | e | ⟨_ | ⟨b, bs⟩⟩, inner⟩
      · exact .inl ⟨_, turn_data_pending hstate hasks hpoll, fun he => absurd he hnotEnded⟩
      · exact .inl ⟨_, turn_data_error hstate hasks hpoll, fun he => absurd he hnotEnded⟩
      · rcases Nat.eq_zero_or_pos c.reader.chunkSize with hchunk | hchunk
        · -- an empty chunk and an empty buffer
          have hfull : c.buf.remaining = 0 := by
            rcases hasks with hpos | hfull
            · omega
            · exact hfull
          exact .inl ⟨_, turn_data_full hstate hchunk hfull hpoll, fun _ =>
            .inl ⟨rfl, h.full hfull⟩⟩
        · exact .inl ⟨_, turn_data_nil hstate hchunk hpoll, fun _ => .inr ⟨_, rfl⟩⟩
      · have hturn := turn_data hstate hpoll (List.cons_ne_nil b bs)
        have hsize := Inner.size_of_pollRead hpoll (List.cons_ne_nil b bs)
        by_cases hroom : c.buf.remaining - (b :: bs).length = 0
        · rw [if_pos hroom] at hturn
          exact .inl ⟨_, hturn, fun he => absurd he hnotEnded⟩
        · rw [if_neg hroom] at hturn
          refine .inr ⟨_, hturn, ⟨?_, h.ended, fun hfull => absurd hfull hroom⟩,
            work_took hsize⟩
          intro hdry
          rw [position_took] at hdry
          exact h.notDry (by
            rw [hposition]
            exact .data hpoll (List.cons_ne_nil b bs) (by omega) hdry)
    -- the chunk is used up: the state changes without a poll
    · have hcases : c.reader.chunkSize = 0 ∧ 0 < c.buf.remaining := by
        unfold Call.Asks at hasks
        omega
      obtain ⟨hchunk, hroom⟩ := hcases
      refine .inr ⟨_, turn_data_closed hstate hchunk hroom, ⟨?_, h.ended, h.full⟩, ?_⟩
      · intro hdry
        exact h.notDry (by
          rw [hposition, hchunk]
          exact .closed hroom hdry)
      · simp [Call.work, Call.setState, hstate]

theorem polls_of_unbuffered {reader : ChunkReader} {buf : ReadBuf} {r : Result}
    (h : reader.buffer.length ≤ reader.bufferPos) :
    Polls reader buf r ↔ Loop.Returns turn ⟨reader, buf, false⟩ r := by
  rw [Polls, if_neg (by omega)]

theorem not_returnsAtEnd_of_stalls {reader : ChunkReader} {buf : ReadBuf}
    (h : Stalls reader buf) : ¬ ReturnsAtEnd reader buf := by
  rintro ⟨r, hr, -⟩
  rw [polls_of_unbuffered h.1] at hr
  exact Loop.not_returns
    (I := fun c => RunsDry c.reader.position c.buf.remaining c.reader.inner)
    (fun c hc => runsDry_turn hc) h.2 hr

theorem returnsAtEnd_of_not_stalls {reader : ChunkReader} {buf : ReadBuf}
    (h : ¬ Stalls reader buf) : ReturnsAtEnd reader buf := by
  by_cases hbuffered : reader.bufferPos < reader.buffer.length
  · -- what is served from the kept bytes asks nothing of the inner reader
    refine ⟨(serveBuffered ⟨reader, buf, false⟩, .ready (.ok ())), ?_, ?_⟩
    · rw [Polls, if_pos hbuffered]
    · intro hended
      refine absurd hended ?_
      simp only [serveBuffered]
      split <;> simp
  · have hgoing : Going buf ⟨reader, buf, false⟩ :=
      ⟨fun hdry => h ⟨by omega, hdry⟩, rfl, fun _ => rfl⟩
    obtain ⟨r, hr, hend⟩ := Loop.exists_returns Call.work (fun c hc => Going.turn hc) hgoing
    exact ⟨r, (polls_of_unbuffered (by omega)).mpr hr, hend⟩

/-- A call comes back at the end of the stream unless it stalls there. -/
theorem returnsAtEnd_iff_not_stalls (reader : ChunkReader) (buf : ReadBuf) :
    ReturnsAtEnd reader buf ↔ ¬ Stalls reader buf :=
  ⟨fun h hstalls => not_returnsAtEnd_of_stalls hstalls h, returnsAtEnd_of_not_stalls⟩

/-- A reader of an empty stream never comes back. -/
theorem not_returnsAtEnd_empty : ¬ ReturnsAtEnd (ChunkReader.new []) (.new 1) :=
  not_returnsAtEnd_of_stalls ⟨Nat.le_refl 0, .ended⟩

end ChunkReader

end ClickhouseArrow
