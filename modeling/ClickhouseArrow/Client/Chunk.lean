import ClickhouseArrow.Transition.Loop
import ClickhouseArrow.Wire.Words

/-!
# The chunked transport

`ChunkWriter` keeps what is written until `finish_chunk`, and then sends it as one chunk: its
length, the bytes, and a zero length.  `ChunkReader::poll_read` takes the chunks apart again.
The inner reader is given by what it will deliver: bytes that a single read may return,
`Pending`s and errors, and after the last of them the end of the stream.
-/

namespace ClickhouseArrow

open Wire Transition

inductive ErrorKind
  | unexpectedEof
  | invalidData
  | other
  deriving DecidableEq, Repr

/-- `io::Error`. -/
structure IoError where
  kind : ErrorKind
  message : String
  deriving DecidableEq, Repr

inductive Poll (α : Type)
  | pending
  | ready (a : α)
  deriving DecidableEq, Repr

/-- What one poll of the inner reader may find.  Bytes are never empty: a read that fills
nothing is the end of the stream. -/
inductive Arrival
  | pending
  | bytes (first : UInt8) (rest : Bytes)
  | error (e : IoError)
  deriving DecidableEq, Repr

/-- The inner reader, as the list of what arrives. -/
abbrev Inner := List Arrival

namespace Inner

/-- Bytes that have all arrived. -/
def ofBytes : Bytes → Inner
  | [] => []
  | b :: bs => [.bytes b bs]

/-- `poll_read` of the inner reader with room for `room` bytes. -/
def pollRead : Inner → Nat → Poll (Except IoError Bytes) × Inner
  | [], _ => (.ready (.ok []), [])
  | .pending :: rest, _ => (.pending, rest)
  | .error e :: rest, _ => (.ready (.error e), rest)
  | .bytes b bs :: rest, room =>
    (.ready (.ok ((b :: bs).take room)), ofBytes ((b :: bs).drop room) ++ rest)

/-- How much there is left to poll for. -/
def size : Inner → Nat
  | [] => 0
  | .bytes _ bs :: rest => bs.length + 1 + size rest
  | _ :: rest => 1 + size rest

theorem size_ofBytes_append (bs : Bytes) (rest : Inner) :
    (ofBytes bs ++ rest).size = bs.length + size rest := by
  cases bs <;> simp [ofBytes, size]

variable {inner rest : Inner} {room : Nat} {bs : Bytes}

theorem length_le_of_pollRead (h : inner.pollRead room = (.ready (.ok bs), rest)) :
    bs.length ≤ room := by
  match inner, h with
  | [], h => cases h; exact Nat.zero_le _
  | .bytes b bs' :: rest', h => cases h; exact List.length_take_le _ _

/-- A read that fills something leaves less to read. -/
theorem size_of_pollRead (h : inner.pollRead room = (.ready (.ok bs), rest)) (hbs : bs ≠ []) :
    rest.size < inner.size := by
  match inner, h with
  | [], h => cases h; exact absurd rfl hbs
  | .bytes b bs' :: rest', h =>
    cases h
    have hroom : room ≠ 0 := by
      rintro rfl
      exact hbs rfl
    rw [size_ofBytes_append, List.length_drop, List.length_cons, size]
    omega

/-- With room, a read fills nothing only at the end of the stream. -/
theorem eq_nil_of_pollRead (h : inner.pollRead room = (.ready (.ok []), rest)) (hroom : 0 < room) :
    inner = [] := by
  match inner, h with
  | [], _ => rfl
  | .bytes b bs' :: rest', h =>
    have hempty : (b :: bs').take room = [] := by
      injection h with h _
      injection h with h
      injection h
    rw [List.take_eq_nil_iff] at hempty
    simp at hempty
    omega

end Inner

/-! ## The writer -/

structure ChunkWriter where
  buffer : Bytes
  inner : Bytes
  deriving DecidableEq, Repr

namespace ChunkWriter

def new (inner : Bytes) : ChunkWriter := ⟨[], inner⟩

/-- `finish_chunk`.  The length is cut to a `u32`. -/
def finishChunk (w : ChunkWriter) : ChunkWriter :=
  if w.buffer.isEmpty then w
  else ⟨[], w.inner ++ leBytes 4 w.buffer.length ++ w.buffer ++ leBytes 4 0⟩

/-- `poll_write`, with the number of bytes that it reports as written. -/
def pollWrite (w : ChunkWriter) (buf : Bytes) : ChunkWriter × Nat :=
  ({ w with buffer := w.buffer ++ buf }, buf.length)

end ChunkWriter

/-! ## The reader -/

inductive ReaderState
  | header
  | data
  deriving DecidableEq, Repr

/-- `ChunkReader`.  The scratch buffer for a single read is left out. -/
structure ChunkReader where
  inner : Inner
  state : ReaderState
  buffer : Bytes
  bufferPos : Nat
  chunkSize : Nat
  deriving DecidableEq, Repr

/-- `ReadBuf` of the caller. -/
structure ReadBuf where
  filled : Bytes
  remaining : Nat
  deriving DecidableEq, Repr

namespace ReadBuf

def new (capacity : Nat) : ReadBuf := ⟨[], capacity⟩

def putSlice (buf : ReadBuf) (bs : Bytes) : ReadBuf :=
  ⟨buf.filled ++ bs, buf.remaining - bs.length⟩

@[simp] theorem putSlice_nil (buf : ReadBuf) : buf.putSlice [] = buf := by
  simp [putSlice]

end ReadBuf

namespace ChunkReader

def new (inner : Inner) : ChunkReader := ⟨inner, .header, [], 0, 0⟩

def maxChunk : Nat := 100000000

/-- A call of `poll_read` between two turns of its loop, and whether the inner reader has
reported the end of the stream to it. -/
structure Call where
  reader : ChunkReader
  buf : ReadBuf
  ended : Bool
  deriving DecidableEq, Repr

namespace Call

/-- After a read of the inner reader that filled `filled`. -/
def polled (c : Call) (inner : Inner) (filled : Bytes) : Call :=
  { c with reader := { c.reader with inner := inner }, ended := c.ended || filled.isEmpty }

def setState (c : Call) (state : ReaderState) : Call :=
  { c with reader := { c.reader with state := state } }

def setChunkSize (c : Call) (chunkSize : Nat) : Call :=
  { c with reader := { c.reader with chunkSize := chunkSize } }

end Call

/-- The outcome of a call. -/
abbrev Result := Call × Poll (Except IoError Unit)

/-- What the match on a completed header makes of its four bytes. -/
def acceptHeader (c : Call) (header : Bytes) : Turn Call Result :=
  -- the length of the array, not of what was filled
  if header.length < 4 then
    .done (c, .ready (.error ⟨.unexpectedEof, "Incomplete chunk header"⟩))
  else
    let c := c.setChunkSize (ofLeBytes header)
    if c.reader.chunkSize = 0 then .again c
    else if maxChunk < c.reader.chunkSize then
      .done (c, .ready (.error ⟨.invalidData, "Chunk size too large"⟩))
    else .again (c.setState .data)

/-- What the data branch makes of the bytes of one read. -/
def acceptData (c : Call) (filled : Bytes) : Turn Call Result :=
  if filled.isEmpty ∧ 0 < c.reader.chunkSize then
    .done (c, .ready (.error ⟨.unexpectedEof, "Unexpected EOF in chunk data"⟩))
  else
    let toCopy := min filled.length c.buf.remaining
    let buf := c.buf.putSlice (filled.take toCopy)
    let buffer := if toCopy < filled.length then filled.drop toCopy else c.reader.buffer
    let chunkSize := c.reader.chunkSize - filled.length
    let state := if chunkSize = 0 then .header else c.reader.state
    let c := { c with reader := { c.reader with buffer, chunkSize, state }, buf := buf }
    if c.buf.remaining = 0 then .done (c, .ready (.ok ())) else .again c

/-- One turn of the loop of `poll_read`. -/
def turn (c : Call) : Turn Call Result :=
  match c.reader.state with
  | .header =>
    match c.reader.inner.pollRead 4 with
    | (.pending, inner) => .done ({ c with reader := { c.reader with inner } }, .pending)
    | (.ready (.error e), inner) =>
      .done ({ c with reader := { c.reader with inner } }, .ready (.error e))
    | (.ready (.ok filled), inner) =>
      acceptHeader (c.polled inner filled) (filled ++ List.replicate (4 - filled.length) 0)
  | .data =>
    let toRead := min c.buf.remaining c.reader.chunkSize
    if toRead = 0 ∧ 0 < c.buf.remaining then .again (c.setState .header)
    else
      match c.reader.inner.pollRead toRead with
      | (.pending, inner) => .done ({ c with reader := { c.reader with inner } }, .pending)
      | (.ready (.error e), inner) =>
        .done ({ c with reader := { c.reader with inner } }, .ready (.error e))
      | (.ready (.ok filled), inner) => acceptData (c.polled inner filled) filled

/-- What is served from the bytes that an earlier call has kept. -/
def serveBuffered (c : Call) : Call :=
  let available := c.reader.buffer.drop c.reader.bufferPos
  let toCopy := min available.length c.buf.remaining
  let buf := c.buf.putSlice (available.take toCopy)
  let bufferPos := c.reader.bufferPos + toCopy
  if c.reader.buffer.length ≤ bufferPos then
    { c with reader := { c.reader with buffer := [], bufferPos := 0 }, buf := buf }
  else { c with reader := { c.reader with bufferPos }, buf := buf }

/-- `poll_read` returns, and does so with this outcome. -/
def Polls (reader : ChunkReader) (buf : ReadBuf) (r : Result) : Prop :=
  if reader.bufferPos < reader.buffer.length then
    r = (serveBuffered ⟨reader, buf, false⟩, .ready (.ok ()))
  else Loop.Returns turn ⟨reader, buf, false⟩ r

/-! ## What a turn does -/

/-- Where the reader stands in the stream: before a header, or before `left` more bytes of a
chunk. -/
inductive Position
  | header
  | data (left : Nat)
  deriving DecidableEq, Repr

def position (r : ChunkReader) : Position :=
  match r.state with
  | .header => .header
  | .data => .data r.chunkSize

/-- The position after a chunk of which `left` bytes are left. -/
def Position.within (left : Nat) : Position := if left = 0 then .header else .data left

/-- After a read of chunk data that filled `filled`. -/
def Call.took (c : Call) (inner : Inner) (filled : Bytes) : Call :=
  { reader :=
      { c.reader with
        inner := inner
        chunkSize := c.reader.chunkSize - filled.length
        state := if c.reader.chunkSize - filled.length = 0 then .header else .data }
    buf := c.buf.putSlice filled
    ended := c.ended }

theorem position_took (c : Call) (inner : Inner) (filled : Bytes) :
    (c.took inner filled).reader.position =
      Position.within (c.reader.chunkSize - filled.length) := by
  simp only [Call.took, position, Position.within]
  by_cases h : c.reader.chunkSize - filled.length = 0 <;> simp [h]

theorem position_eq_header {r : ChunkReader} : r.position = .header ↔ r.state = .header := by
  unfold position
  cases r.state <;> simp

theorem position_eq_data {r : ChunkReader} {left : Nat} :
    r.position = .data left ↔ r.state = .data ∧ r.chunkSize = left := by
  unfold position
  cases r.state <;> simp

variable {c : Call} {inner : Inner} {bs : Bytes}

/-- A header is the number of the bytes that came, however few they are. -/
theorem turn_header (hstate : c.reader.state = .header)
    (hpoll : c.reader.inner.pollRead 4 = (.ready (.ok bs), inner)) :
    turn c =
      if ofLeBytes bs = 0 then .again ((c.polled inner bs).setChunkSize 0)
      else if maxChunk < ofLeBytes bs then
        .done ((c.polled inner bs).setChunkSize (ofLeBytes bs),
          .ready (.error ⟨.invalidData, "Chunk size too large"⟩))
      else .again (((c.polled inner bs).setChunkSize (ofLeBytes bs)).setState .data) := by
  have hle : bs.length ≤ 4 := Inner.length_le_of_pollRead hpoll
  have hlength : ¬ (bs ++ List.replicate (4 - bs.length) 0).length < 4 := by
    rw [List.length_append, List.length_replicate]
    omega
  simp only [turn, hstate, hpoll, acceptHeader, if_neg hlength, ofLeBytes_append_zeros,
    Call.setChunkSize]
  by_cases hzero : ofLeBytes bs = 0
  · simp only [hzero, if_true]
  · simp only [if_neg hzero]

theorem turn_header_pending (hstate : c.reader.state = .header)
    (hpoll : c.reader.inner.pollRead 4 = (.pending, inner)) :
    turn c = .done ({ c with reader := { c.reader with inner := inner } }, .pending) := by
  simp only [turn, hstate, hpoll]

theorem turn_header_error {e : IoError} (hstate : c.reader.state = .header)
    (hpoll : c.reader.inner.pollRead 4 = (.ready (.error e), inner)) :
    turn c = .done ({ c with reader := { c.reader with inner := inner } }, .ready (.error e)) := by
  simp only [turn, hstate, hpoll]

theorem turn_data_closed (hstate : c.reader.state = .data) (hchunk : c.reader.chunkSize = 0)
    (hroom : 0 < c.buf.remaining) : turn c = .again (c.setState .header) := by
  simp [turn, hstate, hchunk, hroom]

/-- There is something to read for, or nothing is asked for. -/
def Call.Asks (c : Call) : Prop := 0 < c.reader.chunkSize ∨ c.buf.remaining = 0

theorem Call.Asks.cond (h : c.Asks) :
    ¬ (min c.buf.remaining c.reader.chunkSize = 0 ∧ 0 < c.buf.remaining) := by
  unfold Call.Asks at h
  omega

theorem turn_data_pending (hstate : c.reader.state = .data) (hasks : c.Asks)
    (hpoll : c.reader.inner.pollRead (min c.buf.remaining c.reader.chunkSize) =
      (.pending, inner)) :
    turn c = .done ({ c with reader := { c.reader with inner := inner } }, .pending) := by
  simp only [turn, hstate, if_neg hasks.cond, hpoll]

theorem turn_data_error {e : IoError} (hstate : c.reader.state = .data) (hasks : c.Asks)
    (hpoll : c.reader.inner.pollRead (min c.buf.remaining c.reader.chunkSize) =
      (.ready (.error e), inner)) :
    turn c = .done ({ c with reader := { c.reader with inner := inner } }, .ready (.error e)) := by
  simp only [turn, hstate, if_neg hasks.cond, hpoll]

/-- A read that fills nothing inside a chunk is an unexpected end, also where the caller's
buffer has no room. -/
theorem turn_data_nil (hstate : c.reader.state = .data) (hchunk : 0 < c.reader.chunkSize)
    (hpoll : c.reader.inner.pollRead (min c.buf.remaining c.reader.chunkSize) =
      (.ready (.ok []), inner)) :
    turn c = .done (c.polled inner [],
      .ready (.error ⟨.unexpectedEof, "Unexpected EOF in chunk data"⟩)) := by
  have hasks : c.Asks := .inl hchunk
  simp only [turn, hstate, if_neg hasks.cond, hpoll, acceptData]
  simp [Call.polled, hchunk]

theorem turn_data_full (hstate : c.reader.state = .data) (hchunk : c.reader.chunkSize = 0)
    (hroom : c.buf.remaining = 0)
    (hpoll : c.reader.inner.pollRead (min c.buf.remaining c.reader.chunkSize) =
      (.ready (.ok []), inner)) :
    turn c = .done ((c.polled inner []).setState .header, .ready (.ok ())) := by
  have hasks : c.Asks := .inr hroom
  simp only [turn, hstate, if_neg hasks.cond, hpoll, acceptData]
  simp [Call.polled, Call.setState, hchunk, hroom]

/-- The bytes of a read are placed, none of them is kept for later. -/
theorem turn_data (hstate : c.reader.state = .data)
    (hpoll : c.reader.inner.pollRead (min c.buf.remaining c.reader.chunkSize) =
      (.ready (.ok bs), inner)) (hbs : bs ≠ []) :
    turn c =
      if c.buf.remaining - bs.length = 0 then .done (c.took inner bs, .ready (.ok ()))
      else .again (c.took inner bs) := by
  have hle : bs.length ≤ min c.buf.remaining c.reader.chunkSize :=
    Inner.length_le_of_pollRead hpoll
  have hpos : 0 < bs.length := List.length_pos_iff.mpr hbs
  have hasks : c.Asks := .inl (by omega)
  have hcopy : min bs.length c.buf.remaining = bs.length := by omega
  have hempty : bs.isEmpty = false := by simpa using hbs
  simp only [turn, hstate, if_neg hasks.cond, hpoll, acceptData]
  simp [Call.polled, Call.took, hempty, hcopy, ReadBuf.putSlice, hstate]

end ChunkReader

end ClickhouseArrow
