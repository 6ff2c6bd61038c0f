import ClickhouseArrow.Client.ChunkReading
import Mathlib.Data.List.Forall2
import Mathlib.Logic.Relation

/-!
# What chunks carry

Between the bytes of a stream and the payload of its chunks stands the relation `Ahead`: from
a position of the reader, these bytes are still to come, and they carry this payload.  Each
read of a whole header, and each read of data, leads from one such position to another.
-/

namespace ClickhouseArrow

open Wire Transition

/-! ## Bytes in transit -/

namespace Inner

/-- The bytes that are to come. -/
def content : Inner → Bytes
  | [] => []
  | .bytes b bs :: rest => (b :: bs) ++ content rest
  | _ :: rest => content rest

@[simp] theorem content_ofBytes_append (bs : Bytes) (rest : Inner) :
    (ofBytes bs ++ rest).content = bs ++ rest.content := by
  cases bs <;> simp [ofBytes, content]

/-- A read takes its bytes off the front. -/
theorem content_of_pollRead {inner rest : Inner} {room : Nat} {bs : Bytes}
    (h : inner.pollRead room = (.ready (.ok bs), rest)) :
    inner.content = bs ++ rest.content := by
  match inner, h with
  | [], h => cases h; rfl
  | .bytes b bs' :: rest', h =>
    cases h
    rw [content_ofBytes_append, ← List.append_assoc, List.take_append_drop]
    rfl

/-- Where all bytes have arrived, a read is filled as far as there are bytes. -/
theorem pollRead_ofBytes (bs : Bytes) (room : Nat) :
    (ofBytes bs).pollRead room = (.ready (.ok (bs.take room)), ofBytes (bs.drop room)) := by
  cases bs with
  | nil => simp [ofBytes, pollRead]
  | cons b bs => simp [ofBytes, pollRead]

end Inner

/-! ## Chunks of a stream -/

/-- A chunk as it is sent: its length, its bytes, and a zero length. -/
def frame (chunk : Bytes) : Bytes := leBytes 4 chunk.length ++ chunk ++ leBytes 4 0

namespace ChunkReader

/-- From a position, the bytes to come carry a payload, and `rest` follows the last chunk. -/
inductive Ahead (rest : Bytes) : Position → Bytes → Bytes → Prop
  | stop : Ahead rest .header rest []
  | terminator {wire payload : Bytes} (h : Ahead rest .header wire payload) :
      Ahead rest .header (leBytes 4 0 ++ wire) payload
  | chunk {bs wire payload : Bytes} (hne : bs ≠ []) (hle : bs.length ≤ maxChunk)
      (h : Ahead rest .header wire payload) :
      Ahead rest .header (leBytes 4 bs.length ++ (bs ++ wire)) (bs ++ payload)
  | data {bs wire payload : Bytes} (hne : bs ≠ []) (h : Ahead rest .header wire payload) :
      Ahead rest (.data bs.length) (bs ++ wire) (bs ++ payload)

variable {rest wire payload bs : Bytes} {left : Nat}

theorem Ahead.frame {chunk : Bytes} (hne : chunk ≠ []) (hle : chunk.length ≤ maxChunk)
    (h : Ahead rest .header wire payload) :
    Ahead rest .header (frame chunk ++ wire) (chunk ++ payload) := by
  have hchunk := Ahead.chunk hne hle (Ahead.terminator h)
  simpa [ClickhouseArrow.frame, List.append_assoc] using hchunk

theorem Ahead.frames {chunks : List Bytes}
    (hchunks : ∀ chunk ∈ chunks, chunk ≠ [] ∧ chunk.length ≤ maxChunk) :
    Ahead rest .header (chunks.flatMap ClickhouseArrow.frame ++ rest) chunks.flatten := by
  induction chunks with
  | nil => exact .stop
  | cons chunk chunks ih =>
    have hchunk := hchunks chunk (by simp)
    have hframe := Ahead.frame hchunk.1 hchunk.2 (ih fun c hc => hchunks c (by simp [hc]))
    simpa [List.append_assoc] using hframe

/-- While payload is ahead, so is a whole header. -/
theorem Ahead.header_le (h : Ahead rest .header wire payload) (hpayload : payload ≠ []) :
    4 ≤ wire.length := by
  cases h with
  | stop => exact absurd rfl hpayload
  | terminator h =>
    rw [List.length_append, leBytes_length]
    omega
  | chunk hne hle h =>
    rw [List.length_append, leBytes_length]
    omega

/-- The four bytes of a header tell what follows. -/
theorem Ahead.header (h : Ahead rest .header (bs ++ wire) payload) (hbs : bs.length = 4)
    (hahead : payload ≠ [] ∨ rest = []) :
    (ofLeBytes bs = 0 ∧ Ahead rest .header wire payload) ∨
      (0 < ofLeBytes bs ∧ ofLeBytes bs ≤ maxChunk ∧
        Ahead rest (.data (ofLeBytes bs)) wire payload) := by
  generalize hall : bs ++ wire = all at h
  cases h with
  | stop =>
    rcases hahead with hpayload | hrest
    · exact absurd rfl hpayload
    · rw [hrest, List.append_eq_nil_iff] at hall
      rw [hall.1] at hbs
      exact absurd hbs (by simp)
  | terminator h =>
    obtain ⟨rfl, rfl⟩ := List.append_inj hall (by rw [hbs, leBytes_length])
    exact .inl ⟨ofLeBytes_leBytes 4 0 (by decide), h⟩
  | @chunk chunk wire' payload' hne hle h =>
    obtain ⟨rfl, rfl⟩ := List.append_inj hall (by rw [hbs, leBytes_length])
    have hlength : ofLeBytes (leBytes 4 chunk.length) = chunk.length :=
      ofLeBytes_leBytes 4 _ (by
        unfold maxChunk at hle
        omega)
    rw [hlength]
    exact .inr ⟨List.length_pos_iff.mpr hne, hle, .data hne h⟩

/-- Bytes of a chunk are payload. -/
theorem Ahead.data_append (h : Ahead rest (.data left) (bs ++ wire) payload)
    (hbs : bs.length ≤ left) :
    ∃ payload', payload = bs ++ payload' ∧
      Ahead rest (.within (left - bs.length)) wire payload' := by
  generalize hall : bs ++ wire = all at h
  cases h with
  | @data chunk wire' payload' hne h =>
    obtain ⟨more, rfl, rfl⟩ : ∃ more, chunk = bs ++ more ∧ wire = more ++ wire' := by
      have htake : bs = chunk.take bs.length := by
        have hcut := congrArg (List.take bs.length) hall
        rw [List.take_left, List.take_append_of_le_length hbs] at hcut
        exact hcut
      refine ⟨chunk.drop bs.length, ?_, ?_⟩
      · conv_lhs => rw [← List.take_append_drop bs.length chunk, ← htake]
      · have hcut := congrArg (List.drop bs.length) hall
        rw [List.drop_left, List.drop_append_of_le_length hbs] at hcut
        exact hcut
    refine ⟨more ++ payload', by rw [List.append_assoc], ?_⟩
    have hleft : (bs ++ more).length - bs.length = more.length := by
      rw [List.length_append]
      omega
    rw [hleft, Position.within]
    by_cases hmore : more.length = 0
    · rw [if_pos hmore]
      rw [List.length_eq_zero_iff] at hmore
      subst hmore
      exact h
    · rw [if_neg hmore]
      exact .data (by rintro rfl; exact hmore rfl) h

theorem Ahead.data_le (h : Ahead rest (.data left) wire payload) :
    0 < left ∧ left ≤ wire.length := by
  cases h with
  | data hne h => exact ⟨List.length_pos_iff.mpr hne, by rw [List.length_append]; omega⟩

/-! ## Reads that are always filled -/

/-- No bytes are kept from an earlier read. -/
def Unbuffered (r : ChunkReader) : Prop := r.buffer.length ≤ r.bufferPos

/-- Between two turns of a call for `n` bytes, of a reader all of whose bytes have arrived:
what has been placed and what is ahead make up `total`, and enough is ahead. -/
structure Serving (rest total : Bytes) (n : Nat) (c : Call) (wire payload : Bytes) : Prop where
  inner : c.reader.inner = Inner.ofBytes wire
  ahead : Ahead rest c.reader.position wire payload
  total : c.buf.filled ++ payload = total
  capacity : c.buf.filled.length + c.buf.remaining = n
  room : n = 0 ∨ 0 < c.buf.remaining
  enough : payload ≠ [] ∧ c.buf.remaining ≤ payload.length
  unbuffered : c.reader.Unbuffered

/-- What such a call leaves: `n` bytes of the payload are placed, and the call is a success
unless none were asked for. -/
structure Served (rest total : Bytes) (n : Nat) (r : Result) (wire payload : Bytes) : Prop where
  inner : r.1.reader.inner = Inner.ofBytes wire
  ahead : Ahead rest r.1.reader.position wire payload
  total : r.1.buf.filled ++ payload = total
  capacity : r.1.buf.filled.length = n
  outcome : 0 < n → r.2 = .ready (.ok ())
  unbuffered : r.1.reader.Unbuffered

theorem Serving.turn_header {rest total wire payload : Bytes} {n : Nat} {c : Call}
    (h : Serving rest total n c wire payload) (hstate : c.reader.state = .header) :
    ∃ c' wire', turn c = .again c' ∧ Serving rest total n c' wire' payload ∧
      c'.work < c.work := by
  have hahead := h.ahead
  rw [position_eq_header.mpr hstate] at hahead
  have hlength : (wire.take 4).length = 4 := by
    have hle := hahead.header_le h.enough.1
    rw [List.length_take]
    omega
  have hpoll : c.reader.inner.pollRead 4 =
      (.ready (.ok (wire.take 4)), Inner.ofBytes (wire.drop 4)) := by
    rw [h.inner, Inner.pollRead_ofBytes]
  have hsize := Inner.size_of_pollRead hpoll (by
    intro hnil
    rw [hnil] at hlength
    exact absurd hlength (by simp))
  have hturn := ChunkReader.turn_header hstate hpoll
  rw [← List.take_append_drop 4 wire] at hahead
  -- a chunk without bytes is passed over, and the header of the next one follows
  rcases hahead.header hlength (.inl h.enough.1) with ⟨hzero, hnext⟩ | ⟨hpos, hle, hnext⟩
  · rw [if_pos hzero] at hturn
    refine ⟨_, wire.drop 4, hturn, ⟨rfl, ?_, h.total, h.capacity, h.room, h.enough,
      h.unbuffered⟩, ?_⟩
    · have hposition : ((c.polled (Inner.ofBytes (wire.drop 4)) (wire.take 4)).setChunkSize
          0).reader.position = .header := position_eq_header.mpr hstate
      rw [hposition]
      exact hnext
    · show 2 * (Inner.ofBytes (wire.drop 4)).size + _ < 2 * c.reader.inner.size + _
      simp only [Call.setChunkSize, Call.polled, hstate]
      omega
  · rw [if_neg (by omega), if_neg (by omega)] at hturn
    refine ⟨_, wire.drop 4, hturn, ⟨rfl, hnext, h.total, h.capacity, h.room, h.enough,
      h.unbuffered⟩, ?_⟩
    show 2 * (Inner.ofBytes (wire.drop 4)).size + _ < 2 * c.reader.inner.size + _
    simp only [Call.setState, hstate]
    omega

theorem Serving.turn_data {rest total wire payload : Bytes} {n : Nat} {c : Call}
    (h : Serving rest total n c wire payload) (hstate : c.reader.state = .data) :
    (∃ r wire' payload', turn c = .done r ∧ Served rest total n r wire' payload') ∨
      ∃ c' wire' payload', turn c = .again c' ∧ Serving rest total n c' wire' payload' ∧
        c'.work < c.work := by
  have hahead := h.ahead
  have hposition : c.reader.position = .data c.reader.chunkSize :=
    position_eq_data.mpr ⟨hstate, rfl⟩
  rw [hposition] at hahead
  obtain ⟨hchunk, hwire⟩ := hahead.data_le
  have hpoll : c.reader.inner.pollRead (min c.buf.remaining c.reader.chunkSize) =
      (.ready (.ok (wire.take (min c.buf.remaining c.reader.chunkSize))),
        Inner.ofBytes (wire.drop (min c.buf.remaining c.reader.chunkSize))) := by
    rw [h.inner, Inner.pollRead_ofBytes]
  have hlength : (wire.take (min c.buf.remaining c.reader.chunkSize)).length =
      min c.buf.remaining c.reader.chunkSize := by
    rw [List.length_take]
    omega
  generalize htaken : wire.take (min c.buf.remaining c.reader.chunkSize) = taken at hpoll hlength
  have hcut : wire = taken ++ wire.drop (min c.buf.remaining c.reader.chunkSize) := by
    rw [← htaken, List.take_append_drop]
  generalize wire.drop (min c.buf.remaining c.reader.chunkSize) = after at hpoll hcut
  have hcapacity := h.capacity
  have henough := h.enough.2
  rcases Nat.eq_zero_or_pos c.buf.remaining with hfull | hroom
  · -- nothing is asked for, and nothing is read
    have hn : n = 0 := by
      rcases h.room with hn | hpos
      · exact hn
      · omega
    have hnil : taken = [] := by
      rw [← List.length_eq_zero_iff]
      omega
    subst hnil
    refine .inl ⟨_, wire, payload, turn_data_nil hstate hchunk hpoll,
      ⟨?_, h.ahead, h.total, ?_, fun hpos => absurd hpos (by omega), h.unbuffered⟩⟩
    · rw [hcut]
      rfl
    · show c.buf.filled.length = n
      omega
  · have hne : taken ≠ [] := by
      rw [← List.length_pos_iff]
      omega
    have hturn := ChunkReader.turn_data hstate hpoll hne
    rw [hcut] at hahead
    obtain ⟨payload', rfl, hnext⟩ := hahead.data_append (by omega)
    have htotal : (c.buf.filled ++ taken) ++ payload' = total := by
      rw [List.append_assoc]
      exact h.total
    -- with the room used up the call returns, else it goes on in the same chunk or behind it
    by_cases hdone : c.buf.remaining - taken.length = 0
    · rw [if_pos hdone] at hturn
      refine .inl ⟨_, after, payload', hturn, ⟨rfl, ?_, htotal, ?_, fun _ => rfl,
        h.unbuffered⟩⟩
      · rw [position_took]
        exact hnext
      · show (c.buf.filled ++ taken).length = n
        rw [List.length_append]
        omega
    · rw [if_neg hdone] at hturn
      rw [List.length_append] at henough
      refine .inr ⟨_, after, payload', hturn, ⟨rfl, ?_, htotal, ?_, .inr ?_, ⟨?_, ?_⟩,
        h.unbuffered⟩, work_took (Inner.size_of_pollRead hpoll hne)⟩
      · rw [position_took]
        exact hnext
      · show (c.buf.filled ++ taken).length + (c.buf.remaining - taken.length) = n
        rw [List.length_append]
        omega
      · show 0 < c.buf.remaining - taken.length
        omega
      · rw [← List.length_pos_iff]
        omega
      · show c.buf.remaining - taken.length ≤ payload'.length
        omega

/-- A call for no more than is ahead hands out exactly what comes next. -/
theorem exists_served {rest wire payload : Bytes} {n : Nat} {reader : ChunkReader}
    (hinner : reader.inner = Inner.ofBytes wire) (hahead : Ahead rest reader.position wire payload)
    (hunbuffered : reader.Unbuffered) (hpayload : 0 < payload.length)
    (hn : n ≤ payload.length) :
    ∃ r, Polls reader (.new n) r ∧ ∃ wire' payload', Served rest payload n r wire' payload' := by
  have hserving : Serving rest payload n ⟨reader, .new n, false⟩ wire payload :=
    { inner := hinner
      ahead := hahead
      total := rfl
      capacity := Nat.zero_add n
      room := Nat.eq_zero_or_pos n
      enough := ⟨List.length_pos_iff.mp hpayload, hn⟩
      unbuffered := hunbuffered }
  have hturn : ∀ c, (∃ wire payload', Serving rest payload n c wire payload') →
      (∃ r, turn c = .done r ∧ ∃ wire' payload', Served rest payload n r wire' payload') ∨
        ∃ c', turn c = .again c' ∧ (∃ wire payload', Serving rest payload n c' wire payload') ∧
          c'.work < c.work := by
    rintro c ⟨wire', payload', hc⟩
    cases hstate : c.reader.state with
    | header =>
      obtain ⟨c', wire'', hturn, hc', hlt⟩ := hc.turn_header hstate
      exact .inr ⟨c', hturn, ⟨wire'', payload', hc'⟩, hlt⟩
    | data =>
      rcases hc.turn_data hstate with ⟨r, wire'', payload'', hturn, hr⟩ |
        ⟨c', wire'', payload'', hturn, hc', hlt⟩
      · exact .inl ⟨r, hturn, wire'', payload'', hr⟩
      · exact .inr ⟨c', hturn, ⟨wire'', payload'', hc'⟩, hlt⟩
  obtain ⟨r, hr, hserved⟩ := Loop.exists_returns Call.work hturn ⟨wire, payload, hserving⟩
  exact ⟨r, (polls_of_unbuffered hunbuffered).mpr hr, hserved⟩

/-- Calls with buffers of these capacities, one after another, and what they return. -/
inductive Calls : ChunkReader → List Nat → List Result → Prop
  | nil {reader : ChunkReader} : Calls reader [] []
  | cons {reader : ChunkReader} {n : Nat} {ns : List Nat} {r : Result} {rs : List Result}
      (h : Polls reader (.new n) r) (hrest : Calls r.1.reader ns rs) :
      Calls reader (n :: ns) (r :: rs)

/-- Each call is made while payload is left, and for no more than is left. -/
def Within : Nat → List Nat → Prop
  | _, [] => True
  | left, n :: ns => 0 < left ∧ n ≤ left ∧ Within (left - n) ns

/-- A call has filled its buffer, and has succeeded unless the buffer was empty. -/
def Fills (n : Nat) (r : Result) : Prop :=
  r.1.buf.filled.length = n ∧ (0 < n → r.2 = .ready (.ok ()))

theorem exists_calls {rest wire payload : Bytes} {reader : ChunkReader} {ns : List Nat}
    (hinner : reader.inner = Inner.ofBytes wire) (hahead : Ahead rest reader.position wire payload)
    (hunbuffered : reader.Unbuffered) (hwithin : Within payload.length ns) :
    ∃ rs, Calls reader ns rs ∧ List.Forall₂ Fills ns rs ∧
      rs.flatMap (fun r => r.1.buf.filled) = payload.take ns.sum := by
  induction ns generalizing reader wire payload with
  | nil => exact ⟨[], .nil, .nil, by simp⟩
  | cons n ns ih =>
    obtain ⟨hpayload, hn, hwithin⟩ := hwithin
    obtain ⟨r, hr, wire', payload', hserved⟩ :=
      exists_served hinner hahead hunbuffered hpayload hn
    have hplaced : payload = r.1.buf.filled ++ payload' := hserved.total.symm
    have hleft : payload.length - n = payload'.length := by
      rw [hplaced, List.length_append, hserved.capacity]
      omega
    rw [hleft] at hwithin
    obtain ⟨rs, hrs, hfills, hconcat⟩ :=
      ih hserved.inner hserved.ahead hserved.unbuffered hwithin
    refine ⟨r :: rs, .cons hr hrs, .cons ⟨hserved.capacity, hserved.outcome⟩ hfills, ?_⟩
    rw [List.flatMap_cons, hconcat, hplaced, List.sum_cons, ← hserved.capacity,
      List.take_length_add_append]

end ChunkReader

namespace ChunkReader

/-! ## Reads that the inner reader splits -/

/-- From a position, with room for `room` more bytes and `placed` telling whether the call has
placed bytes already: the headers come whole, and what is pending comes before any byte is
placed.  A call that comes to the end of the stream at a header does not return. -/
inductive Smooth : Position → Nat → Bool → Inner → Prop
  | ended {room : Nat} {placed : Bool} : Smooth .header room placed []
  | pending {position : Position} {room : Nat} {inner : Inner} :
      Smooth position room false (.pending :: inner)
  | terminator {room : Nat} {placed : Bool} {inner rest : Inner} {bs : Bytes}
      (hpoll : inner.pollRead 4 = (.ready (.ok bs), rest)) (hwhole : bs.length = 4)
      (hsize : ofLeBytes bs = 0) (hrest : Smooth .header room placed rest) :
      Smooth .header room placed inner
  | chunk {room : Nat} {placed : Bool} {inner rest : Inner} {bs : Bytes}
      (hpoll : inner.pollRead 4 = (.ready (.ok bs), rest)) (hwhole : bs.length = 4)
      (hsize : ofLeBytes bs ≠ 0) (hrest : Smooth (.data (ofLeBytes bs)) room placed rest) :
      Smooth .header room placed inner
  | fills {left room : Nat} {placed : Bool} {inner rest : Inner} {bs : Bytes}
      (hpoll : inner.pollRead (min room left) = (.ready (.ok bs), rest)) (hbs : bs ≠ [])
      (hroom : bs.length = room) : Smooth (.data left) room placed inner
  | data {left room : Nat} {placed : Bool} {inner rest : Inner} {bs : Bytes}
      (hpoll : inner.pollRead (min room left) = (.ready (.ok bs), rest)) (hbs : bs ≠ [])
      (hroom : bs.length < room)
      (hrest : Smooth (.within (left - bs.length)) (room - bs.length) true rest) :
      Smooth (.data left) room placed inner

/-- A reader in the hands of a caller: what its successful calls have placed, and whether one
has failed. -/
structure Reading where
  reader : ChunkReader
  delivered : Bytes
  failed : Bool
  deriving DecidableEq, Repr

namespace Reading

def start (inner : Inner) : Reading := ⟨.new inner, [], false⟩

/-- Only what a call places that returns `Ready(Ok)` is delivered. -/
def after (s : Reading) (r : Result) : Reading :=
  match r.2 with
  | .pending => { s with reader := r.1.reader }
  | .ready (.error _) => { s with reader := r.1.reader, failed := true }
  | .ready (.ok ()) =>
    { s with reader := r.1.reader, delivered := s.delivered ++ r.1.buf.filled }

/-- A call with a buffer of `n` bytes that returns. -/
def Reads (n : Nat) (s s' : Reading) : Prop :=
  ∃ r, Polls s.reader (.new n) r ∧ s' = s.after r

/-- A call with room in its buffer, from where the stream is smooth. -/
def ReadsSmoothly (s s' : Reading) : Prop :=
  ∃ n, 0 < n ∧ Smooth s.reader.position n false s.reader.inner ∧ Reads n s s'

/-- No call has failed; what was delivered is the beginning of the payload, and the rest of the
payload is still ahead. -/
def Unchanged (payload : Bytes) (s : Reading) : Prop :=
  s.failed = false ∧ ∃ left, payload = s.delivered ++ left ∧
    Ahead [] s.reader.position s.reader.inner.content left

end Reading

/-- Between two turns of a call from where the stream is smooth: what has been placed and what
is ahead make up `total`. -/
structure Flowing (total : Bytes) (c : Call) (payload : Bytes) : Prop where
  ahead : Ahead [] c.reader.position c.reader.inner.content payload
  total : c.buf.filled ++ payload = total
  room : 0 < c.buf.remaining
  smooth : Smooth c.reader.position c.buf.remaining (!c.buf.filled.isEmpty) c.reader.inner
  unbuffered : c.reader.Unbuffered

/-- What such a call leaves: it is pending without a byte placed, or a success. -/
structure Flowed (total : Bytes) (r : Result) (payload : Bytes) : Prop where
  ahead : Ahead [] r.1.reader.position r.1.reader.inner.content payload
  total : r.1.buf.filled ++ payload = total
  outcome : (r.2 = .pending ∧ r.1.buf.filled = []) ∨ r.2 = .ready (.ok ())
  unbuffered : r.1.reader.Unbuffered

/-- A poll that is pending ends the call, at any position. -/
theorem turn_pending {c : Call} {inner : Inner} (hinner : c.reader.inner = .pending :: inner)
    (hasks : c.reader.state = .data → c.Asks) :
    turn c = .done ({ c with reader := { c.reader with inner := inner } }, .pending) := by
  have hpoll : ∀ room, c.reader.inner.pollRead room = (.pending, inner) := by
    intro room
    rw [hinner]
    rfl
  cases hstate : c.reader.state with
  | header => exact turn_header_pending hstate (hpoll _)
  | data => exact turn_data_pending hstate (hasks hstate) (hpoll _)

/-- A turn of such a call. -/
theorem Flowing.turn {total payload : Bytes} {c : Call} (h : Flowing total c payload) :
    (∃ r payload', turn c = .done r ∧ Flowed total r payload') ∨
      ∃ c' payload', turn c = .again c' ∧ Flowing total c' payload' := by
  have hahead := h.ahead
  have hsmooth := h.smooth
  have hroom := h.room
  generalize hposition : c.reader.position = position at hahead hsmooth
  generalize hremaining : c.buf.remaining = room at hsmooth hroom
  generalize hplaced : (!c.buf.filled.isEmpty) = placed at hsmooth
  generalize hinner : c.reader.inner = inner at hahead hsmooth
  -- one case for each poll of the smooth stream
  cases hsmooth with
  | ended =>
    have hstate := position_eq_header.mp hposition
    have hpoll : c.reader.inner.pollRead 4 = (.ready (.ok []), []) := by
      rw [hinner]
      rfl
    have hnext : ((c.polled [] []).setChunkSize 0).reader.position = .header :=
      position_eq_header.mpr hstate
    refine .inr ⟨_, payload, turn_header hstate hpoll, ⟨?_, h.total, h.room, ?_, h.unbuffered⟩⟩
    · rw [hnext]
      exact hahead
    · rw [hnext]
      exact .ended
  | @pending _ _ rest =>
    have hempty : c.buf.filled = [] := by simpa using hplaced
    -- ahead of data the chunk is not empty, so the call does poll
    have hasks : c.reader.state = .data → c.Asks := by
      intro hstate
      rw [position_eq_data.mpr ⟨hstate, rfl⟩] at hposition
      rw [← hposition] at hahead
      exact .inl hahead.data_le.1
    have hdone := turn_pending hinner hasks
    refine .inl ⟨_, payload, hdone, ⟨?_, h.total, .inl ⟨rfl, hempty⟩, h.unbuffered⟩⟩
    rw [← hposition] at hahead
    exact hahead
  | @terminator _ _ _ rest bs hpoll hwhole hsize hrest =>
    have hstate := position_eq_header.mp hposition
    rw [Inner.content_of_pollRead hpoll] at hahead
    rw [← hinner] at hpoll
    have hturn := turn_header hstate hpoll
    rw [if_pos hsize] at hturn
    have hnext : ((c.polled rest bs).setChunkSize 0).reader.position = .header :=
      position_eq_header.mpr hstate
    rcases hahead.header hwhole (.inr rfl) with ⟨-, hahead'⟩ | ⟨hpos, -, -⟩
    · refine .inr ⟨_, payload, hturn, ⟨?_, h.total, h.room, ?_, h.unbuffered⟩⟩
      · rw [hnext]
        exact hahead'
      · rw [hnext]
        show Smooth .header c.buf.remaining (!c.buf.filled.isEmpty) rest
        rw [hremaining, hplaced]
        exact hrest
    · omega
  | @chunk _ _ _ rest bs hpoll hwhole hsize hrest =>
    have hstate := position_eq_header.mp hposition
    rw [Inner.content_of_pollRead hpoll] at hahead
    rw [← hinner] at hpoll
    have hturn := turn_header hstate hpoll
    rw [if_neg hsize] at hturn
    rcases hahead.header hwhole (.inr rfl) with ⟨hzero, -⟩ | ⟨-, hle, hahead'⟩
    · exact absurd hzero hsize
    · rw [if_neg (by omega)] at hturn
      refine .inr ⟨_, payload, hturn, ⟨hahead', h.total, h.room, ?_, h.unbuffered⟩⟩
      show Smooth (.data (ofLeBytes bs)) c.buf.remaining (!c.buf.filled.isEmpty) rest
      rw [hremaining, hplaced]
      exact hrest
  | @fills left _ _ _ rest bs hpoll hbs hfull =>
    obtain ⟨hstate, hleft⟩ := position_eq_data.mp hposition
    subst hleft hremaining
    have hle := Inner.length_le_of_pollRead hpoll
    rw [Inner.content_of_pollRead hpoll] at hahead
    rw [← hinner] at hpoll
    have hturn := turn_data hstate hpoll hbs
    rw [if_pos (by omega)] at hturn
    obtain ⟨payload', rfl, hahead'⟩ := hahead.data_append (by omega)
    refine .inl ⟨_, payload', hturn, ⟨?_, ?_, .inr rfl, h.unbuffered⟩⟩
    · rw [position_took]
      exact hahead'
    · show (c.buf.filled ++ bs) ++ payload' = total
      rw [List.append_assoc]
      exact h.total
  | @data left _ _ _ rest bs hpoll hbs hlt hrest =>
    obtain ⟨hstate, hleft⟩ := position_eq_data.mp hposition
    subst hleft hremaining
    have hle := Inner.length_le_of_pollRead hpoll
    rw [Inner.content_of_pollRead hpoll] at hahead
    rw [← hinner] at hpoll
    have hturn := turn_data hstate hpoll hbs
    rw [if_neg (by omega)] at hturn
    obtain ⟨payload', rfl, hahead'⟩ := hahead.data_append (by omega)
    refine .inr ⟨_, payload', hturn, ⟨?_, ?_, ?_, ?_, h.unbuffered⟩⟩
    · rw [position_took]
      exact hahead'
    · show (c.buf.filled ++ bs) ++ payload' = total
      rw [List.append_assoc]
      exact h.total
    · show 0 < c.buf.remaining - bs.length
      omega
    · have hplaced' : (!(c.took rest bs).buf.filled.isEmpty) = true := by
        simp [Call.took, ReadBuf.putSlice, hbs]
      rw [position_took, hplaced']
      exact hrest

theorem polls_flowed {payload : Bytes} {n : Nat} {reader : ChunkReader} {r : Result}
    (hahead : Ahead [] reader.position reader.inner.content payload)
    (hunbuffered : reader.Unbuffered) (hn : 0 < n)
    (hsmooth : Smooth reader.position n false reader.inner) (hr : Polls reader (.new n) r) :
    ∃ payload', Flowed payload r payload' := by
  have hflowing : Flowing payload ⟨reader, .new n, false⟩ payload :=
    { ahead := hahead
      total := rfl
      room := hn
      smooth := hsmooth
      unbuffered := hunbuffered }
  refine Loop.Returns.rule (I := fun c => ∃ payload', Flowing payload c payload')
    (Q := fun r => ∃ payload', Flowed payload r payload') ?_ ?_
    ((polls_of_unbuffered hunbuffered).mp hr) ⟨payload, hflowing⟩
  · rintro c c' ⟨payload', hc⟩ hturn
    rcases hc.turn with ⟨r, payload'', hdone, -⟩ | ⟨c'', payload'', hagain, hc''⟩
    · rw [hturn] at hdone
      exact absurd hdone (by simp)
    · rw [hturn] at hagain
      cases hagain
      exact ⟨payload'', hc''⟩
  · rintro c r ⟨payload', hc⟩ hturn
    rcases hc.turn with ⟨r', payload'', hdone, hr'⟩ | ⟨c'', payload'', hagain, -⟩
    · rw [hturn] at hdone
      cases hdone
      exact ⟨payload'', hr'⟩
    · rw [hturn] at hagain
      exact absurd hagain (by simp)

namespace Reading

/-- A smooth call keeps what has been delivered and what is ahead together. -/
theorem Unchanged.step {payload : Bytes} {s s' : Reading}
    (h : s.Unchanged payload ∧ s.reader.Unbuffered) (hstep : ReadsSmoothly s s') :
    s'.Unchanged payload ∧ s'.reader.Unbuffered := by
  obtain ⟨⟨hfailed, left, hpayload, hahead⟩, hunbuffered⟩ := h
  obtain ⟨n, hn, hsmooth, r, hr, rfl⟩ := hstep
  obtain ⟨left', hflowed⟩ := polls_flowed hahead hunbuffered hn hsmooth hr
  rcases hflowed.outcome with ⟨hpending, hempty⟩ | hready
  · have hafter : s.after r = { s with reader := r.1.reader } := by
      rw [after, hpending]
    have hleft : left' = left := by
      have htotal := hflowed.total
      rw [hempty] at htotal
      exact htotal
    rw [hafter]
    refine ⟨⟨hfailed, left, hpayload, ?_⟩, hflowed.unbuffered⟩
    rw [← hleft]
    exact hflowed.ahead
  · have hafter : s.after r =
        { s with reader := r.1.reader, delivered := s.delivered ++ r.1.buf.filled } := by
      rw [after, hready]
    rw [hafter]
    refine ⟨⟨hfailed, left', ?_, hflowed.ahead⟩, hflowed.unbuffered⟩
    show payload = s.delivered ++ r.1.buf.filled ++ left'
    rw [List.append_assoc, hflowed.total]
    exact hpayload

/-- While the calls are smooth, the payload of the chunks is delivered unchanged, however the
inner reader splits the stream. -/
theorem unchanged_of_smooth (chunks : List Bytes) (inner : Inner)
    (hchunks : ∀ chunk ∈ chunks, chunk ≠ [] ∧ chunk.length ≤ maxChunk)
    (hinner : inner.content = chunks.flatMap frame) (s : Reading)
    (hrun : Relation.ReflTransGen ReadsSmoothly (start inner) s) :
    s.Unchanged chunks.flatten := by
  have hstart : (start inner).Unchanged chunks.flatten := by
    refine ⟨rfl, chunks.flatten, rfl, ?_⟩
    have hframes : Ahead [] .header (chunks.flatMap frame ++ []) chunks.flatten :=
      Ahead.frames hchunks
    rw [List.append_nil, ← hinner] at hframes
    exact hframes
  have hall : s.Unchanged chunks.flatten ∧ s.reader.Unbuffered := by
    induction hrun with
    | refl => exact ⟨hstart, Nat.le_refl 0⟩
    | tail _ hstep ih => exact Unchanged.step ih hstep
  exact hall.1

/-- Two chunks, of three bytes and of two.  Behind the first header nothing has come yet, and the
data of the first chunk comes in two pieces. -/
def sampleInner : Inner :=
  [.bytes 3 [0, 0, 0], .pending, .bytes 65 [66], .bytes 67 [0, 0, 0, 0],
    .bytes 2 [0, 0, 0, 68, 69, 0, 0, 0, 0]]

/-- A call that is pending, one for four bytes that runs into the second chunk, and one for the
last byte. -/
theorem unchanged_of_smooth_sample :
    ∃ s, Relation.ReflTransGen ReadsSmoothly (start sampleInner) s ∧
      s.delivered = [65, 66, 67, 68, 69] ∧ s.Unchanged [[65, 66, 67], [68, 69]].flatten := by
  -- the header comes, and behind it nothing
  have hpending : ReadsSmoothly (start sampleInner)
      ⟨⟨sampleInner.drop 2, .data, [], 0, 3⟩, [], false⟩ := by
    have hheader : sampleInner.pollRead 4 = (.ready (.ok [3, 0, 0, 0]), sampleInner.drop 1) := rfl
    have hsmooth : Smooth .header 4 false sampleInner :=
      .chunk hheader rfl (by decide) .pending
    exact ⟨4, by decide, hsmooth,
      (⟨⟨sampleInner.drop 2, .data, [], 0, 3⟩, .new 4, false⟩, .pending), ⟨2, rfl⟩, rfl⟩
  -- two bytes, the third one, and the first one of the next chunk
  have hacross : ReadsSmoothly ⟨⟨sampleInner.drop 2, .data, [], 0, 3⟩, [], false⟩
      ⟨⟨Inner.ofBytes [69, 0, 0, 0, 0], .data, [], 0, 1⟩, [65, 66, 67, 68], false⟩ := by
    have hheader : Inner.pollRead (sampleInner.drop 4) 4 =
        (.ready (.ok [2, 0, 0, 0]), Inner.ofBytes [68, 69, 0, 0, 0, 0]) := rfl
    have hfirst : (Inner.ofBytes [68, 69, 0, 0, 0, 0]).pollRead 1 =
        (.ready (.ok [68]), Inner.ofBytes [69, 0, 0, 0, 0]) := rfl
    have hnext : Smooth .header 1 true (sampleInner.drop 4) :=
      .chunk hheader rfl (by decide) (.fills hfirst (by decide) rfl)
    have hterminator : Inner.pollRead (Inner.ofBytes [0, 0, 0, 0] ++ sampleInner.drop 4) 4 =
        (.ready (.ok [0, 0, 0, 0]), sampleInner.drop 4) := rfl
    have hthird : Inner.pollRead (sampleInner.drop 3) 1 =
        (.ready (.ok [67]), Inner.ofBytes [0, 0, 0, 0] ++ sampleInner.drop 4) := rfl
    have hshort : Inner.pollRead (sampleInner.drop 2) 3 =
        (.ready (.ok [65, 66]), sampleInner.drop 3) := rfl
    have hrest : Smooth (.data 1) 2 true (sampleInner.drop 3) :=
      .data hthird (by decide) (by decide) (.terminator hterminator rfl (by decide) hnext)
    have hsmooth : Smooth (.data 3) 4 false (sampleInner.drop 2) :=
      .data hshort (by decide) (by decide) hrest
    exact ⟨4, by decide, hsmooth,
      (⟨⟨Inner.ofBytes [69, 0, 0, 0, 0], .data, [], 0, 1⟩, ⟨[65, 66, 67, 68], 0⟩, false⟩,
        .ready (.ok ())), ⟨5, rfl⟩, rfl⟩
  have hlast : ReadsSmoothly
      ⟨⟨Inner.ofBytes [69, 0, 0, 0, 0], .data, [], 0, 1⟩, [65, 66, 67, 68], false⟩
      ⟨⟨Inner.ofBytes [0, 0, 0, 0], .header, [], 0, 0⟩, [65, 66, 67, 68, 69], false⟩ := by
    have hdata : (Inner.ofBytes [69, 0, 0, 0, 0]).pollRead 1 =
        (.ready (.ok [69]), Inner.ofBytes [0, 0, 0, 0]) := rfl
    have hsmooth : Smooth (.data 1) 1 false (Inner.ofBytes [69, 0, 0, 0, 0]) :=
      .fills hdata (by decide) rfl
    exact ⟨1, by decide, hsmooth,
      (⟨⟨Inner.ofBytes [0, 0, 0, 0], .header, [], 0, 0⟩, ⟨[69], 0⟩, false⟩,
        .ready (.ok ())), ⟨1, rfl⟩, rfl⟩
  have hrun := ((Relation.ReflTransGen.single hpending).tail hacross).tail hlast
  exact ⟨_, hrun, rfl, unchanged_of_smooth [[65, 66, 67], [68, 69]] sampleInner (by decide) rfl
    _ hrun⟩

/-- Whatever the calls and however the stream arrives, the payload is delivered unchanged. -/
def DeliversUnchanged (chunks : List Bytes) (inner : Inner) : Prop :=
  ∀ s, Relation.ReflTransGen (fun s s' => ∃ n, Reads n s s') (start inner) s →
    s.Unchanged chunks.flatten

/-- A header that comes in two reads, a buffer without room, and a pending read behind the end
of a chunk. -/
theorem not_deliversUnchanged_samples :
    ¬ DeliversUnchanged [[65]] [.bytes 1 [], .bytes 0 [0, 0, 65, 0, 0, 0, 0]] ∧
      ¬ DeliversUnchanged [[65]] (Inner.ofBytes (frame [65])) ∧
      ¬ DeliversUnchanged [[65], [66]] (Inner.ofBytes (frame [65]) ++
        .pending :: Inner.ofBytes (frame [66])) := by
  refine ⟨fun h => ?_, fun h => ?_, fun h => ?_⟩
  · have hread : Reads 1 (start [.bytes 1 [], .bytes 0 [0, 0, 65, 0, 0, 0, 0]])
        ⟨⟨Inner.ofBytes [0, 0, 65, 0, 0, 0, 0], .header, [], 0, 0⟩, [0], false⟩ :=
      ⟨(⟨⟨Inner.ofBytes [0, 0, 65, 0, 0, 0, 0], .header, [], 0, 0⟩, ⟨[0], 0⟩, false⟩,
        .ready (.ok ())), ⟨2, rfl⟩, rfl⟩
    obtain ⟨-, left, hleft, -⟩ := h _ (.single ⟨1, hread⟩)
    exact absurd hleft (by simp)
  · have hread : Reads 0 (start (Inner.ofBytes (frame [65])))
        ⟨⟨Inner.ofBytes [65, 0, 0, 0, 0], .data, [], 0, 1⟩, [], true⟩ :=
      ⟨(⟨⟨Inner.ofBytes [65, 0, 0, 0, 0], .data, [], 0, 1⟩, ⟨[], 0⟩, true⟩,
        .ready (.error ⟨.unexpectedEof, "Unexpected EOF in chunk data"⟩)), ⟨2, rfl⟩, rfl⟩
    obtain ⟨hfailed, -⟩ := h _ (.single ⟨0, hread⟩)
    exact absurd hfailed (by decide)
  · -- the first call has placed a byte when it becomes pending
    have hpending : Reads 2 (start (Inner.ofBytes (frame [65]) ++
          .pending :: Inner.ofBytes (frame [66])))
        ⟨⟨Inner.ofBytes (frame [66]), .header, [], 0, 0⟩, [], false⟩ :=
      ⟨(⟨⟨Inner.ofBytes (frame [66]), .header, [], 0, 0⟩, ⟨[65], 1⟩, false⟩, .pending),
        ⟨4, rfl⟩, rfl⟩
    have hread : Reads 1 ⟨⟨Inner.ofBytes (frame [66]), .header, [], 0, 0⟩, [], false⟩
        ⟨⟨Inner.ofBytes (leBytes 4 0), .header, [], 0, 0⟩, [66], false⟩ :=
      ⟨(⟨⟨Inner.ofBytes (leBytes 4 0), .header, [], 0, 0⟩, ⟨[66], 0⟩, false⟩,
        .ready (.ok ())), ⟨2, rfl⟩, rfl⟩
    obtain ⟨-, left, hleft, -⟩ :=
      h _ (Relation.ReflTransGen.tail (.single ⟨2, hpending⟩) ⟨1, hread⟩)
    exact absurd hleft (by simp)

end Reading

end ChunkReader

/-! ## The writer and the reader -/

namespace ChunkWriter

/-- A use of the writer. -/
inductive Op
  | write (buf : Bytes)
  | finish
  deriving DecidableEq, Repr

def perform (w : ChunkWriter) : Op → ChunkWriter
  | .write buf => (w.pollWrite buf).1
  | .finish => w.finishChunk

/-- What is written between one `finish_chunk` and the next, after `held` has been written. -/
def groupsFrom : Bytes → List Op → List Bytes
  | _, [] => []
  | held, .write buf :: ops => groupsFrom (held ++ buf) ops
  | held, .finish :: ops => held :: groupsFrom [] ops

/-- What is written up to each `finish_chunk`, since the one before. -/
def groups (ops : List Op) : List Bytes := groupsFrom [] ops

/-- Nothing goes out for a `finish_chunk` with nothing written, else one chunk. -/
def sent (group : Bytes) : Bytes := if group.isEmpty then [] else frame group

theorem finishChunk_eq (w : ChunkWriter) : w.finishChunk = ⟨[], w.inner ++ sent w.buffer⟩ := by
  cases hbuffer : w.buffer with
  | nil =>
    cases w
    simp_all [finishChunk, sent]
  | cons b bs => simp [finishChunk, sent, frame, hbuffer]

/-- The chunks go out in the order in which they were finished, each of them once. -/
theorem foldl_perform_inner (ops : List Op) (w : ChunkWriter) :
    (ops.foldl perform w).inner = w.inner ++ (groupsFrom w.buffer ops).flatMap sent := by
  induction ops generalizing w with
  | nil => simp [groupsFrom]
  | cons op ops ih =>
    rw [List.foldl_cons, ih]
    cases op with
    | write buf => rfl
    | finish =>
      show w.finishChunk.inner ++ (groupsFrom w.finishChunk.buffer ops).flatMap sent = _
      rw [finishChunk_eq, groupsFrom, List.flatMap_cons, List.append_assoc]

theorem ahead_groups {rest : Bytes} {groups : List Bytes}
    (hmax : ∀ group ∈ groups, group.length ≤ ChunkReader.maxChunk) :
    ChunkReader.Ahead rest .header (groups.flatMap sent ++ rest) groups.flatten := by
  induction groups with
  | nil => exact .stop
  | cons group groups ih =>
    have hgroups := ih fun g hg => hmax g (by simp [hg])
    cases group with
    | nil => simpa [sent] using hgroups
    | cons b bs =>
      have hframe := hgroups.frame (List.cons_ne_nil b bs) (hmax _ (by simp))
      simpa [sent, List.append_assoc] using hframe

/-- The writer sends nothing but the finished chunks, and nothing for an empty one; the reader
of what it sends hands the finished bytes out, call by call, whatever comes after them. -/
theorem chunks_agree (ops : List Op) (rest : Bytes) (ns : List Nat)
    (hmax : ∀ group ∈ groups ops, group.length ≤ ChunkReader.maxChunk)
    (hwithin : ChunkReader.Within (groups ops).flatten.length ns) :
    (ops.foldl perform (new [])).inner = (groups ops).flatMap sent ∧
      (∀ w : ChunkWriter, w.buffer = [] → w.finishChunk = w) ∧
      ∃ rs, ChunkReader.Calls
          (ChunkReader.new (Inner.ofBytes ((ops.foldl perform (new [])).inner ++ rest))) ns rs ∧
        List.Forall₂ ChunkReader.Fills ns rs ∧
        rs.flatMap (fun r => r.1.buf.filled) = (groups ops).flatten.take ns.sum := by
  have hemitted : (ops.foldl perform (new [])).inner = (groups ops).flatMap sent :=
    foldl_perform_inner ops (new [])
  refine ⟨hemitted, ?_, ?_⟩
  · intro w hw
    rw [finishChunk, hw]
    rfl
  · rw [hemitted]
    exact ChunkReader.exists_calls rfl (ahead_groups hmax) (Nat.le_refl 0) hwithin

/-- Two chunks of one byte each, with an empty one between them, read by one call. -/
theorem chunks_agree_sample :
    ∃ rs, ChunkReader.Calls (ChunkReader.new (Inner.ofBytes
        (([.write [65], .finish, .finish, .write [66], .finish, .write [67]] : List Op).foldl
          perform (new [])).inner)) [2] rs ∧
      rs.flatMap (fun r => r.1.buf.filled) = [65, 66] := by
  obtain ⟨-, -, rs, hrs, -, hconcat⟩ := chunks_agree
    [.write [65], .finish, .finish, .write [66], .finish, .write [67]] [] [2]
    (by decide) ⟨by decide, by decide, trivial⟩
  rw [List.append_nil] at hrs
  exact ⟨rs, hrs, hconcat⟩

end ChunkWriter

end ClickhouseArrow
