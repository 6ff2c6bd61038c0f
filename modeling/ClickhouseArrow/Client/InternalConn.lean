import ClickhouseArrow.Client.Load
import ClickhouseArrow.Native.Types
import ClickhouseArrow.Transition.Machine

/-!
# The loop of a connection

`InternalConn::run` turns operations from the channel and packets from the socket into
packets to the server and answers to the callers.  An input of the model is what ends one
`await` of the loop: an operation is taken from the channel, the pending receive has read a
packet, or the caller makes room in the channel of the executing query.  A failure of a
write is part of the input that leads to the write.
-/

namespace ClickhouseArrow

open Wire Transition

/-- A oneshot sender, by which a caller is answered. -/
abbrev Token := Nat

/-- The columns of a header block. -/
abbrev Header := List (String × ChType)

/-- `ServerException`, with `fatal` for an error code under `Severity::Server`. -/
structure ServerException where
  code : Int
  name : String
  message : String
  stackTrace : String
  fatal : Bool
  deriving DecidableEq, Repr

/-- `Operation`.  The settings and the parameters of a query are handed to the writer with
its text. -/
inductive Operation (D : Type)
  | ping (response : Token)
  | query (query : String) (response : Token) (header : Option Token)
  | insert (data : D) (response : Token)
  | insertMany (data : List D) (response : Token)
  deriving DecidableEq, Repr

structure PendingQuery where
  qid : Qid
  query : String
  response : Token
  header : Option Token
  deriving DecidableEq, Repr

inductive QueryState
  | header
  | inProgress
  deriving DecidableEq, Repr

/-- `mpsc::channel(32)`: the responses that the caller has not taken yet, and whether it
still holds the receiver. -/
structure ResponseChannel where
  token : Token
  queued : Nat
  received : Bool
  deriving DecidableEq, Repr

namespace ResponseChannel

def capacity : Nat := 32

/-- `send` has to wait. -/
def Full (ch : ResponseChannel) : Prop := ch.received = true ∧ capacity ≤ ch.queued

instance (ch : ResponseChannel) : Decidable ch.Full :=
  inferInstanceAs (Decidable (ch.received = true ∧ capacity ≤ ch.queued))

end ResponseChannel

structure ExecutingQuery where
  qid : Qid
  state : QueryState
  header : Option Header
  headerResponse : Option Token
  response : ResponseChannel

/-- What the server has sent to the response channel of a query. -/
inductive Response (D : Type)
  | data (block : D)
  | exception (e : ServerException)
  deriving DecidableEq, Repr

/-- Where the loop awaits: in `select!`, with a received packet whose response has to wait
for room, in `receive_ping`, or with the error of an insert that has to wait for room. -/
inductive Phase (D : Type)
  | select
  | waiting (item : Response D)
  | pinging (response : Token)
  | failing (response : Token)
  | returned
  deriving DecidableEq, Repr

structure InternalConn (D : Type) where
  pending : List PendingQuery
  executing : Option ExecutingQuery
  phase : Phase D

/-- A packet of the server.  A data packet carries what `read_block` and what `read_data`
make of its block. -/
inductive Packet (D : Type)
  | hello
  | data (columns : Option Header) (block : Option D)
  | exception (e : ServerException)
  | progress
  | pong
  | endOfStream
  | profileInfo
  | totals (block : Option D)
  | extremes (block : Option D)
  | tablesStatusResponse
  | log
  | tableColumns
  | partUuids
  | readTaskRequest
  | profileEvents
  | mergeTreeAllRangesAnnouncement
  | mergeTreeReadTaskRequest
  | timezoneUpdate
  | sshChallenge

/-- The packets that the loop tells apart. -/
inductive ServerPacket (D : Type)
  | header (columns : Header)
  | data (block : D)
  | profileEvents
  | progress
  | exception (e : ServerException)
  | endOfStream
  | pong
  | ignored

namespace Reader

variable {D : Type}

/-- `Reader::receive_header`. -/
def receiveHeader : Packet D → Option (ServerPacket D)
  | .data (some columns) _ => some (.header columns)
  | .progress => some .progress
  | .tableColumns => some .ignored
  | .endOfStream => some .endOfStream
  | .exception e => some (.exception e)
  | _ => none

/-- `Reader::receive_packet`. -/
def receivePacket : Packet D → Option (ServerPacket D)
  | .hello => none
  | .data _ (some block) => some (.data block)
  | .exception e => some (.exception e)
  | .progress => some .progress
  | .pong => some .pong
  | .endOfStream => some .endOfStream
  | .profileEvents => some .profileEvents
  | _ => some .ignored

end Reader

/-- What goes to the socket. -/
inductive Write (D : Type)
  | query (query : PendingQuery)
  | data (qid : Qid) (header : Option Header) (block : D)
  | delimiter (qid : Qid)
  | ping
  | chunkEnd

/-- What the loop does.  A write is listed when it is begun, also where it fails. -/
inductive Effect (D : Type)
  | write (w : Write D)
  | respond (query : Token) (sent : Bool)
  | sendHeader (query : Token) (columns : Header)
  | inserted (insert : Token)
  | dropInsert (insert : Token)
  | pong (ping : Token) (received : Bool)
  | dropPing (ping : Token)
  | event (qid : Qid)
  | deliver (channel : Token) (item : Response D)
  | refuse (channel : Token) (item : Response D)
  | abandon (channel : Token) (item : Response D)
  | insertError (channel : Token) (received : Bool)
  | close (channel : Token)

/-- How many writes succeed before one fails. -/
abbrev Io := Option Nat

inductive Input (D : Type)
  | operation (qid : Qid) (op : Operation D) (io : Io)
  | shutdown
  | packet (p : Packet D) (io : Io)
  | readError
  | taken (io : Io)
  | closed (io : Io)

/-- Effects one after another, up to the write that fails. -/
def attempt {D : Type} : Io → List (Effect D) → List (Effect D) × Bool
  | _, [] => ([], true)
  | some 0, .write w :: _ => ([.write w], false)
  | some (n + 1), .write w :: effects =>
    (.write w :: (attempt (some n) effects).1, (attempt (some n) effects).2)
  | io, effect :: effects => (effect :: (attempt io effects).1, (attempt io effects).2)

namespace ResponseChannel

/-- `send` on a channel that is not full; it fails where the receiver is gone. -/
def push (ch : ResponseChannel) : ResponseChannel :=
  if ch.received then { ch with queued := ch.queued + 1 } else ch

/-- The response that is sent. -/
def sent {D : Type} (ch : ResponseChannel) (item : Response D) : Effect D :=
  if ch.received then .deliver ch.token item else .refuse ch.token item

end ResponseChannel

namespace InternalConn

variable {D : Type}

def new : InternalConn D := ⟨[], none, .select⟩

/-- No query is executing and none is pending. -/
def Idle (c : InternalConn D) : Prop := c.pending = [] ∧ c.executing = none

instance (c : InternalConn D) : Decidable c.Idle :=
  decidable_of_iff (c.pending.isEmpty = true ∧ c.executing.isNone = true) (by simp [Idle])

/-- The loop goes on after its writes, or returns with the error of one of them. -/
def proceed (c : InternalConn D) (written : Bool) : InternalConn D :=
  { c with phase := if written then .select else .returned }

/-- `finish_chunk`, at the boundaries of `run_chunked`. -/
def flush (chunked : Bool) : List (Effect D) :=
  if chunked then [.write .chunkEnd] else []

/-- `send_query`. -/
def sendQuery (chunked : Bool) (c : InternalConn D) (q : PendingQuery) (io : Io) :
    InternalConn D × List (Effect D) :=
  if io = some 0 then
    ({ c with phase := .returned }, [.write (.query q), .respond q.response false])
  else
    let r := attempt io ([.write (.query q), .respond q.response true,
      .write (.delimiter q.qid)] ++ flush chunked)
    let executing := ⟨q.qid, .header, none, q.header, ⟨q.response, 0, true⟩⟩
    (proceed { c with executing := some executing } r.2, r.1)

/-- `send_insert`, and what `handle_operation` makes of its result. -/
def sendInsert (chunked : Bool) (c : InternalConn D) (qid : Qid) (data : List D)
    (response : Token) (io : Io) : InternalConn D × List (Effect D) :=
  let header := c.executing.bind ExecutingQuery.header
  let writes := data.map (fun block => Effect.write (.data qid header block)) ++
    [.write (.delimiter qid)]
  if (attempt io writes).2 then
    -- the insert is answered before the flush
    let r := attempt io (writes ++ [.inserted response] ++ flush chunked)
    (c.proceed r.2, r.1)
  else
    match c.executing with
    | none =>
      ({ c with phase := .returned }, (attempt io writes).1 ++ [.dropInsert response])
    | some e =>
      -- the error goes to the query that executes, not to the insert
      if e.response.Full then ({ c with phase := .failing response }, (attempt io writes).1)
      else
        let e' := { e with response := e.response.push }
        ({ c with executing := some e', phase := .returned },
          (attempt io writes).1 ++
            [.insertError e.response.token e.response.received, .dropInsert response])

/-- `handle_operation`. -/
def handleOperation (chunked : Bool) (c : InternalConn D) (qid : Qid) (op : Operation D)
    (io : Io) : InternalConn D × List (Effect D) :=
  match op with
  | .ping response =>
    if c.Idle then
      let r := attempt io (.write .ping :: flush chunked)
      if r.2 then ({ c with phase := .pinging response }, r.1)
      else ({ c with phase := .returned }, r.1 ++ [.dropPing response])
    -- the sender is dropped without an answer
    else (c, [.dropPing response])
  | .query query response header =>
    if c.Idle then sendQuery chunked c ⟨qid, query, response, header⟩ io
    -- a busy loop keeps the query for later
    else ({ c with pending := c.pending ++ [⟨qid, query, response, header⟩] }, [])
  | .insert data response => sendInsert chunked c qid [data] response io
  | .insertMany data response => sendInsert chunked c qid data response io

/-- The next pending query, once nothing is executing. -/
def nextQuery (chunked : Bool) (c : InternalConn D) (io : Io) :
    InternalConn D × List (Effect D) :=
  match c.pending with
  | [] => (c, [])
  | q :: pending => sendQuery chunked { c with pending := pending } q io

/-- `drop(self.executing.take())`. -/
def endQuery (chunked : Bool) (c : InternalConn D) (e : ExecutingQuery) (io : Io) :
    InternalConn D × List (Effect D) :=
  let r := nextQuery chunked ({ c with executing := none }) io
  (r.1, .close e.response.token :: r.2)

/-- What follows the `send` of a response that has room. -/
def completeResponse (chunked : Bool) (c : InternalConn D) (e : ExecutingQuery)
    (item : Response D) (io : Io) : InternalConn D × List (Effect D) :=
  match item with
  | .exception ex =>
    -- an exception that is fatal ends the loop, any other one the query
    if ex.fatal then
      ({ c with executing := none, phase := .returned },
        [e.response.sent item, .close e.response.token])
    else
      let r := endQuery chunked { c with phase := .select } e io
      (r.1, e.response.sent item :: r.2)
  | .data _ =>
    ({ c with executing := some { e with response := e.response.push }, phase := .select },
      [e.response.sent item])

/-- `send` on the response channel of the executing query. -/
def respond (chunked : Bool) (c : InternalConn D) (e : ExecutingQuery) (item : Response D)
    (io : Io) : InternalConn D × List (Effect D) :=
  if e.response.Full then ({ c with phase := .waiting item }, [])
  else completeResponse chunked c e item io

/-- `receive_packet`, once the packet has been read. -/
def handlePacket (chunked : Bool) (c : InternalConn D) (e : ExecutingQuery)
    (p : ServerPacket D) (io : Io) : InternalConn D × List (Effect D) :=
  match p with
  | .header columns =>
    let e' := { e with state := .inProgress, header := some columns, headerResponse := none }
    ({ c with executing := some e' },
      e.headerResponse.toList.map fun token => .sendHeader token columns)
  | .data block => respond chunked c e (.data block) io
  | .exception ex => respond chunked c e (.exception ex) io
  | .endOfStream => endQuery chunked c e io
  | .profileEvents | .progress => (c, [.event e.qid])
  | .pong | .ignored => (c, [])

/-- The packet as the state of the executing query has it read. -/
def read (e : ExecutingQuery) (p : Packet D) : Option (ServerPacket D) :=
  match e.state with
  | .header => Reader.receiveHeader p
  | .inProgress => Reader.receivePacket p

/-- The loop is in `select!`. -/
def selecting (c : InternalConn D) : Bool :=
  match c.phase with
  | .select | .waiting _ => true
  | _ => false

/-- The loop has not returned. -/
def alive (c : InternalConn D) : Bool :=
  match c.phase with
  | .returned => false
  | _ => true

/-- The response that is dropped with the pending receive when another branch is taken. -/
def abandoned (c : InternalConn D) : List (Effect D) :=
  match c.phase, c.executing with
  | .waiting item, some e => [.abandon e.response.token item]
  | _, _ => []

/-- The send that waits goes on with the channel `ch`. -/
def resume (chunked : Bool) (c : InternalConn D) (e : ExecutingQuery) (ch : ResponseChannel)
    (io : Io) : InternalConn D × List (Effect D) :=
  match c.phase with
  | .waiting item => completeResponse chunked c { e with response := ch } item io
  | .failing response =>
    ({ c with executing := some { e with response := ch.push }, phase := .returned },
      [.insertError ch.token ch.received, .dropInsert response])
  | _ => ({ c with executing := some { e with response := ch } }, [])

/-- `run` and `run_chunked`. -/
def step (chunked : Bool) : Machine (InternalConn D) (Input D) (Effect D) := fun c input =>
  match input with
  | .operation qid op io =>
    if c.selecting then
      let r := handleOperation chunked { c with phase := .select } qid op io
      some (r.1, c.abandoned ++ r.2)
    else none
  | .shutdown =>
    if c.selecting then some ({ c with phase := .returned }, c.abandoned) else none
  | .packet p io =>
    match c.phase, c.executing with
    | .select, some e =>
      match read e p with
      | some packet => some (handlePacket chunked c e packet io)
      -- a packet that is not expected ends the loop
      | none => some ({ c with phase := .returned }, [])
    | .pinging response, _ =>
      -- whatever comes in is taken for the answer
      some ({ c with phase := .select },
        [.pong response (decide (p matches .pong))])
    | _, _ => none
  | .readError =>
    match c.phase, c.executing with
    | .select, some _ => some ({ c with phase := .returned }, [])
    | .pinging response, _ => some ({ c with phase := .select }, [.pong response false])
    | _, _ => none
  | .taken io =>
    match c.executing with
    | some e =>
      if c.alive ∧ e.response.received ∧ 0 < e.response.queued then
        some (resume chunked c e { e.response with queued := e.response.queued - 1 } io)
      else none
    | none => none
  | .closed io =>
    match c.executing with
    | some e =>
      if c.alive ∧ e.response.received then
        some (resume chunked c e { e.response with received := false } io)
      else none
    | none => none

end InternalConn

end ClickhouseArrow
