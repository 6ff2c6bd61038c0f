import ClickhouseArrow.Client.PacketReader
import ClickhouseArrow.Settings.RoundTrip

/-!
# The handshake

`Connection::perform_handshake`: the client says hello, reads the hello of the server, in which
every field but the first has come with some revision, settles with it whether packets are sent in
chunks, and answers with an addendum.  Of the other end only the bytes are described: the fields
that a server says, and the fields that it is told.

From the modes that the client has settled `Connection::establish_connection` takes the framing
of both directions.  How a server frames its packets is not part of the repository; it is a
parameter, `ServerFraming`, with the rule of the protocol as its hypotheses.  The module says when
both ends do the same.
-/

namespace Wire

variable {ε α β : Type}

/-- A field that is there or not. -/
def Reader.when (supported : Bool) (field : Reader ε α) : Reader ε (Option α) :=
  if supported then do
    let x ← field
    pure (some x)
  else pure none

/-- The bytes of such a field. -/
def bytesWhen (supported : Bool) (bytes : Bytes) : Bytes := if supported then bytes else []

/-- The field itself. -/
def fieldWhen (supported : Bool) (a : α) : Option α := if supported then some a else none

theorem Reads.when {p : Reader ε α} {bs : Bytes} {a : α} (hp : Reads p bs a) (supported : Bool) :
    Reads (Reader.when supported p) (bytesWhen supported bs) (fieldWhen supported a) := by
  cases supported with
  | false => exact Reads.pure none
  | true => exact hp.bind_nil (Reads.pure _)

/-- Whatever follows the bytes, the reader ends in the outcome, and behind the bytes if it is a
value. -/
def Concludes (p : Reader ε α) (bs : Bytes) (o : Outcome ε α) : Prop :=
  ∀ rest, p (bs ++ rest) = o.map fun a => (a, rest)

theorem Reads.concludes {p : Reader ε α} {bs : Bytes} {a : α} (hp : Reads p bs a) :
    Concludes p bs (.ok a) := hp

theorem Concludes.ofOutcome (o : Outcome ε α) : Concludes (Reader.ofOutcome o) [] o := by
  intro rest
  cases o <;> rfl

/-- What stands behind an outcome that is an error does not matter. -/
theorem Concludes.bind {p : Reader ε α} {f : α → Reader ε β} {s t : Bytes} {o : Outcome ε α}
    {g : α → Outcome ε β} (hp : Concludes p s o) (hf : ∀ a, o = .ok a → Concludes (f a) t (g a)) :
    Concludes (p >>= f) (s ++ t) (o >>= g) := by
  intro rest
  rw [Reader.bind_apply, List.append_assoc, hp]
  cases o with
  | ok a => exact hf a rfl rest
  | error e => rfl

theorem Concludes.bind_error {p : Reader ε α} {s : Bytes} {e : Fault ε}
    (hp : Concludes p s (.error e)) (f : α → Reader ε β) (t : Bytes) :
    Concludes (p >>= f) (s ++ t) (.error e) := by
  intro rest
  rw [Reader.bind_apply, List.append_assoc, hp]
  rfl

theorem Reads.bind_concludes {p : Reader ε α} {f : α → Reader ε β} {s t : Bytes} {a : α}
    {o : Outcome ε β} (hp : Reads p s a) (hf : Concludes (f a) t o) :
    Concludes (p >>= f) (s ++ t) o := by
  intro rest
  rw [Reader.bind_apply, List.append_assoc, hp]
  exact hf rest

theorem Concludes.when {p : Reader ε α} {bs : Bytes} {o : Outcome ε α} (hp : Concludes p bs o)
    (supported : Bool) :
    Concludes (Reader.when supported p) (bytesWhen supported bs)
      (if supported then o.map some else .ok none) := by
  cases supported with
  | false => exact (Reads.pure none).concludes
  | true =>
    intro rest
    show (p >>= fun x => pure (some x)) (bs ++ rest) = _
    rw [Reader.bind_apply, hp rest]
    cases o <;> rfl

end Wire

namespace ClickhouseArrow

open Wire

/-! ## Revisions -/

def minRevisionWithServerTimezone : Nat := 54058
def minRevisionWithServerDisplayName : Nat := 54372
def minRevisionWithVersionPatch : Nat := 54401
def minProtocolVersionWithAddendum : Nat := 54458
def minProtocolVersionWithQuotaKey : Nat := 54458
def minProtocolVersionWithPasswordComplexityRules : Nat := 54461
def minRevisionWithInterserverSecretV2 : Nat := 54462
def minProtocolVersionWithChunkedPackets : Nat := 54470
def minRevisionWithVersionedParallelReplicasProtocol : Nat := 54471
def minRevisionWithServerSettings : Nat := 54474
def minRevisionWithQueryPlanSerialization : Nat := 54477
def minRevisionWithVersionedClusterFunctionProtocol : Nat := 54479

/-- `DBMS_TCP_PROTOCOL_VERSION`. -/
def tcpProtocolVersion : Nat := minRevisionWithVersionedClusterFunctionProtocol

/-- `DBMS_PARALLEL_REPLICAS_PROTOCOL_VERSION`. -/
def parallelReplicasProtocolVersion : Nat := 4

/-! ## Chunks -/

inductive ChunkedProtocolMode
  | chunkedOptional
  | chunked
  | notChunkedOptional
  | notChunked
  deriving DecidableEq, Repr

namespace ChunkedProtocolMode

instance : Inhabited ChunkedProtocolMode := ⟨.chunkedOptional⟩

/-- `as_ref`. -/
def asRef : ChunkedProtocolMode → String
  | .chunkedOptional => "chunked_optional"
  | .chunked => "chunked"
  | .notChunkedOptional => "notchunked_optional"
  | .notChunked => "notchunked"

/-- `from_str`. -/
def fromStr (s : String) : Result ChunkedProtocolMode :=
  if s = "chunked" then .ok .chunked
  else if s = "chunked_optional" then .ok .chunkedOptional
  else if s = "notchunked" then .ok .notChunked
  else if s = "notchunked_optional" then .ok .notChunkedOptional
  else .fail (.protocol [.text "Unexpected value for chunked protocol mode: ", .text s])

/-- The mode that a text stands for; every other text stands for the default. -/
def ofText (bytes : Bytes) : ChunkedProtocolMode :=
  match fromStr (Setting.lossyString bytes) with
  | .ok mode => mode
  | .error _ => default

def isChunked (mode : ChunkedProtocolMode) : Bool := mode = .chunked ∨ mode = .chunkedOptional

def isOptional (mode : ChunkedProtocolMode) : Bool :=
  mode = .chunkedOptional ∨ mode = .notChunkedOptional

/-- `negotiate`. -/
def negotiate (serverMode clientMode : ChunkedProtocolMode) (direction : String) :
    Result ChunkedProtocolMode :=
  let settled (chunked : Bool) : ChunkedProtocolMode := if chunked then .chunked else .notChunked
  if serverMode.isOptional then .ok (settled clientMode.isChunked)
  else if clientMode.isOptional then .ok (settled serverMode.isChunked)
  else if clientMode.isChunked ≠ serverMode.isChunked then
    .fail (.protocol [.text "Incompatible protocol: ", .text direction, .text " set to ",
      .text (if clientMode.isChunked then "chunked" else "notchunked"), .text ", server requires ",
      .text (if serverMode.isChunked then "chunked" else "notchunked")])
  else .ok (settled serverMode.isChunked)

end ChunkedProtocolMode

/-! ## The client -/

/-- What a client is told: `ClientHello`, and the modes of `Extension`. -/
structure HandshakeOptions where
  defaultDatabase : String
  username : String
  password : String
  chunkedSend : ChunkedProtocolMode
  chunkedRecv : ChunkedProtocolMode

structure ServerHello where
  serverName : String
  version : Nat × Nat × Nat
  revisionVersion : Nat
  timezone : Option String
  displayName : Option String
  settings : Option (List Setting)
  chunkedSend : ChunkedProtocolMode
  chunkedRecv : ChunkedProtocolMode

namespace ServerHello

def supportsChunkedSend (hello : ServerHello) : Bool := hello.chunkedSend.isChunked

def supportsChunkedRecv (hello : ServerHello) : Bool := hello.chunkedRecv.isChunked

end ServerHello

/-- How a handshake is refused. -/
inductive HelloError
  | native (e : Error)
  | serverException (e : ServerException)

/-- The name of the client, with the version of the package. -/
def clientName : String := "ClickHouseArrow Rust 0.1.6"

def versionMajor : Nat := 0
def versionMinor : Nat := 1

namespace Handshake

/-- A string. -/
def text (s : String) : Bytes := writeString (utf8Bytes s)

/-- `Writer::send_hello`. -/
def sendHello (o : HandshakeOptions) : Bytes :=
  writeVarUint 0 ++ (text clientName ++ (writeVarUint versionMajor ++ (writeVarUint versionMinor ++
    (writeVarUint tcpProtocolVersion ++ (text o.defaultDatabase ++ (text o.username ++
      text o.password))))))

/-- `Writer::send_addendum`. -/
def sendAddendum (revision : Nat) (hello : ServerHello) : Bytes :=
  bytesWhen (minProtocolVersionWithQuotaKey ≤ revision) (text "") ++
    (bytesWhen (minProtocolVersionWithChunkedPackets ≤ hello.revisionVersion)
        (text hello.chunkedSend.asRef ++ text hello.chunkedRecv.asRef) ++
      bytesWhen (minRevisionWithVersionedParallelReplicasProtocol ≤ hello.revisionVersion)
        (writeVarUint parallelReplicasProtocolVersion))

/-- The modes of the server, settled with those of the client. -/
def readChunkedModes (o : HandshakeOptions) :
    Reader Error (ChunkedProtocolMode × ChunkedProtocolMode) := do
  let srvChunkedSend ← readString .async
  let srvChunkedRecv ← readString .async
  let send ← Reader.ofOutcome
    (ChunkedProtocolMode.negotiate (.ofText srvChunkedSend) o.chunkedSend "send")
  let recv ← Reader.ofOutcome
    (ChunkedProtocolMode.negotiate (.ofText srvChunkedRecv) o.chunkedRecv "recv")
  pure (send, recv)

/-- The rules for passwords, which are dropped. -/
def readRules : Reader Error (List (String × String)) := do
  let rulesSize ← readVarUint .async
  Reader.readMany (do
    let pattern ← readUtf8String .async
    let message ← readUtf8String .async
    pure (pattern, message)) rulesSize

/-- `Reader::read_hello`. -/
def readHello (clientRevision : Nat) (o : HandshakeOptions) : Reader Error ServerHello := do
  let serverName ← readUtf8String .async
  let majorVersion ← readVarUint .async
  let minorVersion ← readVarUint .async
  let serverRevision ← readVarUint .async
  let revision := min serverRevision clientRevision
  -- The server has written what the revision of the client asks for.
  let _ ← Reader.when (minRevisionWithVersionedParallelReplicasProtocol ≤ revision)
    (readVarUint .async)
  let timezone ← Reader.when (minRevisionWithServerTimezone ≤ revision) (readUtf8String .async)
  let displayName ← Reader.when (minRevisionWithServerDisplayName ≤ revision)
    (readUtf8String .async)
  let patch ← Reader.when (minRevisionWithVersionPatch ≤ revision) (readVarUint .async)
  let modes ← Reader.when (minProtocolVersionWithChunkedPackets ≤ revision) (readChunkedModes o)
  let _ ← Reader.when (minProtocolVersionWithPasswordComplexityRules ≤ revision) readRules
  let _ ← Reader.when (minRevisionWithInterserverSecretV2 ≤ revision)
    (getLe UInt64 Mode.async.eof)
  let settings ← Reader.when (minRevisionWithServerSettings ≤ revision) Settings.decode
  let _ ← Reader.when (minRevisionWithQueryPlanSerialization ≤ revision) (readVarUint .async)
  let _ ← Reader.when (minRevisionWithVersionedClusterFunctionProtocol ≤ revision)
    (readVarUint .async)
  -- Without the modes both directions get the default, which stands for chunks.
  let (send, recv) := modes.getD (default, default)
  pure
    { serverName, version := (majorVersion, minorVersion, patch.getD revision),
      revisionVersion := revision, timezone, displayName, settings,
      chunkedSend := send, chunkedRecv := recv }

/-- `read_exception`, with the severity that `emit` gives the exception. -/
def readException : Reader Error ServerException := do
  let code ← getLe Int32 Mode.async.eof
  let name ← readUtf8String .async
  let message ← readString .async
  let stackTrace ← readUtf8String .async
  let _hasNested ← getLe UInt8 Mode.async.eof
  pure ⟨code.toInt, name, Setting.lossyString message, stackTrace,
    decide (code.toInt ∈ serverErrorCodes)⟩

/-- `Debug`. -/
def debugName : ServerPacketId → String
  | .hello => "Hello"
  | .data => "Data"
  | .exception => "Exception"
  | .progress => "Progress"
  | .pong => "Pong"
  | .endOfStream => "EndOfStream"
  | .profileInfo => "ProfileInfo"
  | .totals => "Totals"
  | .extremes => "Extremes"
  | .tablesStatusResponse => "TablesStatusResponse"
  | .log => "Log"
  | .tableColumns => "TableColumns"
  | .partUuids => "PartUUIDs"
  | .readTaskRequest => "ReadTaskRequest"
  | .profileEvents => "ProfileEvents"
  | .mergeTreeAllRangesAnnouncement => "MergeTreeAllRangesAnnouncement"
  | .mergeTreeReadTaskRequest => "MergeTreeReadTaskRequest"
  | .timezoneUpdate => "TimezoneUpdate"
  | .sshChallenge => "SSHChallenge"

/-- `Reader::receive_hello`. -/
def receiveHello (clientRevision : Nat) (o : HandshakeOptions) : Reader HelloError ServerHello := do
  let packet ← (readVarUint .async).mapError .native
  match ServerPacketId.fromU64 (UInt64.ofNat packet) with
  | some .hello => (readHello clientRevision o).mapError .native
  | some .exception => do
      let exception ← readException.mapError .native
      Reader.fail (.serverException exception)
  | some packet =>
      Reader.fail (.native (.protocol [.text "Unexpected packet ", .text (debugName packet),
        .text ", expected server hello"]))
  | none =>
      Reader.fail (.native (.protocol [.text "Unknown packet id ", .number packet]))

/-- `Connection::perform_handshake`: what the client has written, and what it makes of what comes
in. -/
def performHandshake (o : HandshakeOptions) (incoming : Bytes) :
    Bytes × Outcome HelloError (ServerHello × Bytes) :=
  match receiveHello tcpProtocolVersion o incoming with
  | .ok (hello, rest) =>
      (sendHello o ++ bytesWhen (minProtocolVersionWithAddendum ≤ hello.revisionVersion)
        (sendAddendum hello.revisionVersion hello), .ok (hello, rest))
  | .error e => (sendHello o, .error e)

/-! ## The server -/

/-- What a server says in its hello. -/
structure ServerProfile where
  name : String
  major : Nat
  minor : Nat
  revision : Nat
  replicasProtocol : Nat
  timezone : String
  displayName : String
  patch : Nat
  send : ChunkedProtocolMode
  recv : ChunkedProtocolMode
  rules : List (String × String)
  nonce : UInt64
  settings : List Setting
  queryPlanVersion : Nat
  clusterFunctionVersion : Nat

namespace ServerProfile

variable (server : ServerProfile) (f64Display : UInt64 → String)

/-- The rules for passwords. -/
def rulesBytes : Bytes :=
  writeVarUint server.rules.length ++ server.rules.flatMap fun rule => text rule.1 ++ text rule.2

/-- The settings, and the empty key behind them. -/
def settingsBytes : Bytes :=
  server.settings.flatMap (fun s => writeString (utf8Bytes s.key) ++ s.wire f64Display) ++
    writeString []

/-- The hello for a client of the revision: every field that both ends know. -/
def hello (clientRevision : Nat) : Bytes :=
  let revision := min server.revision clientRevision
  text server.name ++ (writeVarUint server.major ++ (writeVarUint server.minor ++
    (writeVarUint server.revision ++
      (bytesWhen (minRevisionWithVersionedParallelReplicasProtocol ≤ revision)
          (writeVarUint server.replicasProtocol) ++
        (bytesWhen (minRevisionWithServerTimezone ≤ revision) (text server.timezone) ++
          (bytesWhen (minRevisionWithServerDisplayName ≤ revision) (text server.displayName) ++
            (bytesWhen (minRevisionWithVersionPatch ≤ revision) (writeVarUint server.patch) ++
              (bytesWhen (minProtocolVersionWithChunkedPackets ≤ revision)
                  (text server.send.asRef ++ text server.recv.asRef) ++
                (bytesWhen (minProtocolVersionWithPasswordComplexityRules ≤ revision)
                    server.rulesBytes ++
                  (bytesWhen (minRevisionWithInterserverSecretV2 ≤ revision)
                      (putLe server.nonce) ++
                    (bytesWhen (minRevisionWithServerSettings ≤ revision)
                        (server.settingsBytes f64Display) ++
                      (bytesWhen (minRevisionWithQueryPlanSerialization ≤ revision)
                          (writeVarUint server.queryPlanVersion) ++
                        bytesWhen (minRevisionWithVersionedClusterFunctionProtocol ≤ revision)
                          (writeVarUint server.clusterFunctionVersion)))))))))))))

/-- What a client takes from the hello. -/
def seen (revision : Nat) (modes : ChunkedProtocolMode × ChunkedProtocolMode) : ServerHello where
  serverName := server.name
  version := (server.major, server.minor,
    (fieldWhen (minRevisionWithVersionPatch ≤ revision) server.patch).getD revision)
  revisionVersion := revision
  timezone := fieldWhen (minRevisionWithServerTimezone ≤ revision) server.timezone
  displayName := fieldWhen (minRevisionWithServerDisplayName ≤ revision) server.displayName
  settings := fieldWhen (minRevisionWithServerSettings ≤ revision)
    (server.settings.map (Setting.reread f64Display))
  chunkedSend := modes.1
  chunkedRecv := modes.2

/-- Every number and every string can be sent. -/
structure Sendable : Prop where
  name_le : (utf8Bytes server.name).length ≤ maxStringSize
  timezone_le : (utf8Bytes server.timezone).length ≤ maxStringSize
  displayName_le : (utf8Bytes server.displayName).length ≤ maxStringSize
  numbers_lt : ∀ n ∈ [server.major, server.minor, server.revision, server.replicasProtocol,
    server.patch, server.rules.length, server.queryPlanVersion, server.clusterFunctionVersion],
      n < 2 ^ 63
  rules_le : ∀ rule ∈ server.rules, (utf8Bytes rule.1).length ≤ maxStringSize ∧
    (utf8Bytes rule.2).length ≤ maxStringSize
  settings_sendable : ∀ s ∈ server.settings, s.Sendable f64Display

end ServerProfile

/-- The modes that the client settles, with the modes of the server and its own. -/
def settle (o : HandshakeOptions) (server : ServerProfile) (revision : Nat) :
    Result (ChunkedProtocolMode × ChunkedProtocolMode) :=
  if minProtocolVersionWithChunkedPackets ≤ revision then do
    let send ← ChunkedProtocolMode.negotiate server.send o.chunkedSend "send"
    let recv ← ChunkedProtocolMode.negotiate server.recv o.chunkedRecv "recv"
    .ok (send, recv)
  else .ok (default, default)

theorem text_reads {s : String} (h : (utf8Bytes s).length ≤ maxStringSize) :
    Reads (readUtf8String .async) (text s) s := readUtf8String_reads .async h

/-- The text of a mode is read as the mode. -/
theorem ofText_asRef (mode : ChunkedProtocolMode) :
    ChunkedProtocolMode.ofText (utf8Bytes mode.asRef) = mode := by
  rw [ChunkedProtocolMode.ofText, Setting.lossyString_utf8Bytes]
  cases mode <;> rfl

theorem length_asRef (mode : ChunkedProtocolMode) :
    (utf8Bytes mode.asRef).length ≤ maxStringSize := by
  cases mode <;> decide

variable {server : ServerProfile} {f64Display : UInt64 → String}

theorem rules_reads (hserver : server.Sendable f64Display) :
    Reads readRules server.rulesBytes server.rules := by
  have hsize : server.rules.length < 2 ^ 63 := hserver.numbers_lt _ (by simp)
  have hrule : ∀ rule ∈ server.rules, Reads (do
      let pattern ← readUtf8String .async
      let message ← readUtf8String .async
      pure (pattern, message)) (text rule.1 ++ text rule.2) (id rule) := by
    intro rule hrule
    obtain ⟨hpattern, hmessage⟩ := hserver.rules_le rule hrule
    exact (text_reads hpattern).bind ((text_reads hmessage).bind_nil (Reads.pure _))
  have hrules := Reads.readMany hrule
  rw [List.map_id] at hrules
  exact (readVarUint_reads .async hsize).bind hrules

/-- The client settles the modes that the server has told. -/
theorem readChunkedModes_concludes (o : HandshakeOptions) (server : ServerProfile) :
    Concludes (readChunkedModes o) (text server.send.asRef ++ text server.recv.asRef) (do
      let send ← ChunkedProtocolMode.negotiate server.send o.chunkedSend "send"
      let recv ← ChunkedProtocolMode.negotiate server.recv o.chunkedRecv "recv"
      .ok (send, recv)) := by
  have hsend := readString_reads .async _ (length_asRef server.send)
  have hrecv := readString_reads .async _ (length_asRef server.recv)
  refine hsend.bind_concludes ?_
  rw [← List.append_nil (text server.recv.asRef)]
  refine hrecv.bind_concludes ?_
  rw [ofText_asRef, ofText_asRef]
  refine (Concludes.ofOutcome _).bind fun send _ => ?_
  exact (Concludes.ofOutcome _).bind fun recv _ => (Reads.pure _).concludes

theorem chunkedModes_concludes (o : HandshakeOptions) (server : ServerProfile) (revision : Nat) :
    Concludes (Reader.when (minProtocolVersionWithChunkedPackets ≤ revision) (readChunkedModes o))
      (bytesWhen (minProtocolVersionWithChunkedPackets ≤ revision)
        (text server.send.asRef ++ text server.recv.asRef))
      ((settle o server revision).map fun modes =>
        fieldWhen (minProtocolVersionWithChunkedPackets ≤ revision) modes) := by
  have hmodes := (readChunkedModes_concludes o server).when
    (minProtocolVersionWithChunkedPackets ≤ revision)
  rw [settle]
  by_cases hrevision : minProtocolVersionWithChunkedPackets ≤ revision
  · simpa [hrevision, fieldWhen] using hmodes
  · simp only [hrevision, decide_false, fieldWhen, if_false] at hmodes ⊢
    exact hmodes

/-- **The hello is read as it is said**, or refused with the modes. -/
theorem readHello_concludes (hserver : server.Sendable f64Display) (o : HandshakeOptions)
    (clientRevision : Nat) :
    Concludes (readHello clientRevision o) (server.hello f64Display clientRevision)
      ((settle o server (min server.revision clientRevision)).map
        (server.seen f64Display (min server.revision clientRevision))) := by
  have hnumber (n : Nat) (hn : n ∈ [server.major, server.minor, server.revision,
      server.replicasProtocol, server.patch, server.rules.length, server.queryPlanVersion,
      server.clusterFunctionVersion]) : Reads (readVarUint .async) (writeVarUint n) n :=
    readVarUint_reads .async (hserver.numbers_lt n hn)
  refine (text_reads hserver.name_le).bind_concludes ?_
  refine (hnumber _ (by simp)).bind_concludes ((hnumber _ (by simp)).bind_concludes ?_)
  refine (hnumber _ (by simp)).bind_concludes ?_
  dsimp only
  refine ((hnumber _ (by simp)).when _).bind_concludes ?_
  refine ((text_reads hserver.timezone_le).when _).bind_concludes ?_
  refine ((text_reads hserver.displayName_le).when _).bind_concludes ?_
  refine ((hnumber _ (by simp)).when _).bind_concludes ?_
  have hmodes := chunkedModes_concludes o server (min server.revision clientRevision)
  cases hsettled : settle o server (min server.revision clientRevision) with
  | error e =>
    -- what stands behind the modes is not read
    rw [hsettled] at hmodes
    exact Concludes.bind_error hmodes _ _
  | ok modes =>
    rw [hsettled] at hmodes
    have hback : (fieldWhen (minProtocolVersionWithChunkedPackets ≤
        min server.revision clientRevision) modes).getD (default, default) = modes := by
      rw [settle] at hsettled
      split_ifs at hsettled with hrevision
      · simp [fieldWhen, hrevision]
      · obtain rfl := Except.ok.inj hsettled
        simp [fieldWhen, hrevision]
    refine Reads.bind_concludes hmodes ?_
    refine ((rules_reads hserver).when _).bind_concludes ?_
    refine ((Reads.getLe _ server.nonce).when _).bind_concludes ?_
    refine ((Settings.decode_reads hserver.settings_sendable).when _).bind_concludes ?_
    refine ((hnumber _ (by simp)).when _).bind_concludes ?_
    refine Reads.concludes (((hnumber _ (by simp)).when _).bind_nil ?_)
    rw [hback]
    exact Reads.pure _

/-! ## What the server is told -/

/-- What a server takes from the hello of a client. -/
structure ClientSeen where
  name : String
  major : Nat
  minor : Nat
  revision : Nat
  defaultDatabase : String
  username : String
  password : String
  deriving DecidableEq

/-- What it takes from the addendum. -/
structure Addendum where
  quotaKey : Option String
  modes : Option (String × String)
  replicasProtocol : Option Nat
  deriving DecidableEq

/-- The hello of a client, read field by field. -/
def readClientHello : Reader Error ClientSeen := do
  let packet ← readVarUint .async
  if packet ≠ 0 then Reader.fail (.protocol [.text "hello expected"])
  else do
    let name ← readUtf8String .async
    let major ← readVarUint .async
    let minor ← readVarUint .async
    let revision ← readVarUint .async
    let defaultDatabase ← readUtf8String .async
    let username ← readUtf8String .async
    let password ← readUtf8String .async
    pure { name, major, minor, revision, defaultDatabase, username, password }

/-- The fields of an addendum that both ends know. -/
def readAddendum (revision : Nat) : Reader Error Addendum := do
  let quotaKey ← Reader.when (minProtocolVersionWithQuotaKey ≤ revision) (readUtf8String .async)
  let modes ← Reader.when (minProtocolVersionWithChunkedPackets ≤ revision) (do
    let send ← readUtf8String .async
    let recv ← readUtf8String .async
    pure (send, recv))
  let replicasProtocol ← Reader.when
    (minRevisionWithVersionedParallelReplicasProtocol ≤ revision) (readVarUint .async)
  pure { quotaKey, modes, replicasProtocol }

/-- What the server of a revision reads in a handshake: the addendum is of the smaller one of the
revisions. -/
def readTold (serverRevision : Nat) : Reader Error (ClientSeen × Addendum) := do
  let seen ← readClientHello
  let addendum ← readAddendum (min serverRevision seen.revision)
  pure (seen, addendum)

/-- The strings of the client can be sent. -/
structure Tellable (o : HandshakeOptions) : Prop where
  defaultDatabase_le : (utf8Bytes o.defaultDatabase).length ≤ maxStringSize
  username_le : (utf8Bytes o.username).length ≤ maxStringSize
  password_le : (utf8Bytes o.password).length ≤ maxStringSize

/-- The client as the server sees it. -/
def seenClient (o : HandshakeOptions) : ClientSeen where
  name := clientName
  major := versionMajor
  minor := versionMinor
  revision := tcpProtocolVersion
  defaultDatabase := o.defaultDatabase
  username := o.username
  password := o.password

theorem clientHello_reads {o : HandshakeOptions} (ho : Tellable o) :
    Reads readClientHello (sendHello o) (seenClient o) := by
  refine (readVarUint_reads .async (by decide)).bind ?_
  rw [if_neg (by decide)]
  refine (text_reads (by decide)).bind ((readVarUint_reads .async (by decide)).bind ?_)
  refine (readVarUint_reads .async (by decide)).bind ?_
  refine (readVarUint_reads .async (by decide)).bind ?_
  refine (text_reads ho.defaultDatabase_le).bind ((text_reads ho.username_le).bind ?_)
  exact (text_reads ho.password_le).bind_nil (Reads.pure _)

/-- The addendum of a client that has taken the modes from a hello of the revision. -/
def toldAddendum (revision : Nat) (modes : ChunkedProtocolMode × ChunkedProtocolMode) :
    Addendum where
  quotaKey := fieldWhen (minProtocolVersionWithQuotaKey ≤ revision) ""
  modes := fieldWhen (minProtocolVersionWithChunkedPackets ≤ revision)
    (modes.1.asRef, modes.2.asRef)
  replicasProtocol := fieldWhen (minRevisionWithVersionedParallelReplicasProtocol ≤ revision)
    parallelReplicasProtocolVersion

theorem addendum_reads (f64Display : UInt64 → String) (server : ServerProfile) (revision : Nat)
    (modes : ChunkedProtocolMode × ChunkedProtocolMode) :
    Reads (readAddendum revision) (sendAddendum revision (server.seen f64Display revision modes))
      (toldAddendum revision modes) := by
  have hmode (mode : ChunkedProtocolMode) :
      Reads (readUtf8String .async) (text mode.asRef) mode.asRef := text_reads (length_asRef mode)
  have hmodes : Reads (do
      let send ← readUtf8String .async
      let recv ← readUtf8String .async
      pure (send, recv)) (text modes.1.asRef ++ text modes.2.asRef)
        (modes.1.asRef, modes.2.asRef) :=
    (hmode modes.1).bind ((hmode modes.2).bind_nil (Reads.pure _))
  refine ((text_reads (by decide)).when _).bind ((hmodes.when _).bind ?_)
  exact ((readVarUint_reads .async (by decide)).when _).bind_nil (Reads.pure _)

/-! ## Both ends -/

/-- The packet of a server with its hello. -/
def ServerProfile.packet (server : ServerProfile) (f64Display : UInt64 → String)
    (clientRevision : Nat) : Bytes :=
  writeVarUint 0 ++ server.hello f64Display clientRevision

/-- How a server frames the packets of one direction, from its own mode for the direction and
from the mode that the client has told it.  What it is not told it does not chunk; an optional
mode leaves the choice to the client; any other one has to be the client's. -/
structure ServerFraming where
  /-- No framing stands for a server that refuses the client. -/
  chunks : ChunkedProtocolMode → Option String → Option Bool
  untold : ∀ mode, chunks mode none = some false
  optional : ∀ mode client : ChunkedProtocolMode, mode.isOptional = true →
    chunks mode (some client.asRef) = some client.isChunked
  required : ∀ mode client : ChunkedProtocolMode, mode.isOptional = false →
    client.isOptional = false → chunks mode (some client.asRef) =
      if client.isChunked = mode.isChunked then some mode.isChunked else none

/-- Both ends frame the packets of both directions in the same way: what the client sends the
server receives. -/
structure SameFraming (framing : ServerFraming) (server : ServerProfile) (hello : ServerHello)
    (addendum : Addendum) : Prop where
  toServer : framing.chunks server.recv (addendum.modes.map Prod.fst) =
    some hello.supportsChunkedSend
  toClient : framing.chunks server.send (addendum.modes.map Prod.snd) =
    some hello.supportsChunkedRecv

/-- An error of a reader, as an error of the handshake. -/
def asHelloError : Fault Error → Fault HelloError
  | .error e => .error (.native e)
  | .panic q => .panic q

theorem receiveHello_hello (o : HandshakeOptions) {bytes : Bytes}
    {outcome : Result ServerHello} (h : Concludes (readHello tcpProtocolVersion o) bytes outcome)
    (rest : Bytes) : receiveHello tcpProtocolVersion o (writeVarUint 0 ++ bytes ++ rest) =
      (Except.mapError asHelloError outcome).map fun hello => (hello, rest) := by
  have hpacket := (readVarUint_reads .async (show 0 < 2 ^ 63 by decide)).mapError HelloError.native
  rw [receiveHello, Reader.bind_apply, List.append_assoc, hpacket]
  show (readHello tcpProtocolVersion o).mapError HelloError.native (bytes ++ rest) = _
  rw [Reader.mapError, h rest]
  rcases outcome with e | hello
  · cases e <;> rfl
  · rfl

/-- Whether the client chunks a direction, by the mode of the server that it settles it with and
by its own. -/
def settledChunked (serverMode clientMode : ChunkedProtocolMode) : Bool :=
  if serverMode.isOptional then clientMode.isChunked else serverMode.isChunked

/-- The server leaves each direction to the client, or demands what the client has settled.  The
client settles what it sends with the mode in which the server sends, not with the mode in which
the server receives. -/
def ServerProfile.Follows (server : ServerProfile) (o : HandshakeOptions) : Prop :=
  (server.recv.isOptional = true ∨
      server.recv.isChunked = settledChunked server.send o.chunkedSend) ∧
    (server.send.isOptional = true ∨
      server.send.isChunked = settledChunked server.recv o.chunkedRecv)

theorem negotiate_eq_ok {server client mode : ChunkedProtocolMode} {direction : String}
    (h : ChunkedProtocolMode.negotiate server client direction = .ok mode) :
    mode.isOptional = false ∧ mode.isChunked = settledChunked server client := by
  cases server <;> cases client <;> cases h <;> exact ⟨rfl, rfl⟩

/-- A server frames a direction as the client has told it where its own mode allows that. -/
theorem chunks_told (framing : ServerFraming) (mode : ChunkedProtocolMode)
    {client : ChunkedProtocolMode} (hclient : client.isOptional = false) :
    framing.chunks mode (some client.asRef) = some client.isChunked ↔
      mode.isOptional = true ∨ mode.isChunked = client.isChunked := by
  cases hmode : mode.isOptional with
  | true => simp [framing.optional mode client hmode]
  | false =>
      rw [framing.required mode client hmode hclient]
      by_cases hsame : client.isChunked = mode.isChunked
      · simp [hsame]
      · simp [hsame, Ne.symm hsame]

/-- The framing is the same from the revision on that has the modes, where the server follows the
client; before it the client chunks what it sends, and expects chunks. -/
theorem sameFraming_iff (framing : ServerFraming) {o : HandshakeOptions} {server : ServerProfile}
    {revision : Nat} {modes : ChunkedProtocolMode × ChunkedProtocolMode}
    (h : settle o server revision = .ok modes) :
    SameFraming framing server (server.seen f64Display revision modes)
        (toldAddendum revision modes) ↔
      minProtocolVersionWithChunkedPackets ≤ revision ∧ server.Follows o := by
  rw [settle] at h
  split_ifs at h with hrevision
  · obtain ⟨send, hsend, h⟩ := Outcome.bind_eq_ok.mp h
    obtain ⟨recv, hrecv, h⟩ := Outcome.bind_eq_ok.mp h
    cases h
    obtain ⟨hsendSettled, hsendChunked⟩ := negotiate_eq_ok hsend
    obtain ⟨hrecvSettled, hrecvChunked⟩ := negotiate_eq_ok hrecv
    have htold : (toldAddendum revision (send, recv)).modes = some (send.asRef, recv.asRef) := by
      simp [toldAddendum, fieldWhen, hrevision]
    have hsame : SameFraming framing server (server.seen f64Display revision (send, recv))
        (toldAddendum revision (send, recv)) ↔
          framing.chunks server.recv (some send.asRef) = some send.isChunked ∧
            framing.chunks server.send (some recv.asRef) = some recv.isChunked := by
      constructor
      · rintro ⟨hto, hfrom⟩
        rw [htold] at hto hfrom
        exact ⟨hto, hfrom⟩
      · rintro ⟨hto, hfrom⟩
        exact ⟨by rw [htold]; exact hto, by rw [htold]; exact hfrom⟩
    rw [hsame, chunks_told framing _ hsendSettled, chunks_told framing _ hrecvSettled,
      hsendChunked, hrecvChunked]
    exact (and_iff_right hrevision).symm
  · cases h
    -- no addendum tells the server that the client sends chunks
    refine iff_of_false (fun hsame => ?_) fun hfollows => hrevision hfollows.1
    have htold : (toldAddendum revision (default, default)).modes = none := by
      simp [toldAddendum, fieldWhen, hrevision]
    have hsend := hsame.toServer
    rw [htold] at hsend
    have hchunked := Option.some.inj ((framing.untold server.recv).symm.trans hsend)
    cases hchunked

/-- A server with one mode for both directions follows every client. -/
theorem follows_of_same (o : HandshakeOptions) {server : ServerProfile}
    (hsame : server.send = server.recv) : server.Follows o := by
  rw [ServerProfile.Follows, hsame, settledChunked, settledChunked]
  cases hoptional : server.recv.isOptional with
  | true => simp
  | false => simp

/-- An addendum that is not sent has no fields. -/
theorem sendAddendum_when (revision : Nat) (modes : ChunkedProtocolMode × ChunkedProtocolMode) :
    bytesWhen (minProtocolVersionWithAddendum ≤ revision)
        (sendAddendum revision (server.seen f64Display revision modes)) =
      sendAddendum revision (server.seen f64Display revision modes) := by
  by_cases hrevision : minProtocolVersionWithAddendum ≤ revision
  · simp [bytesWhen, hrevision]
  · have hquota : ¬ minProtocolVersionWithQuotaKey ≤ revision := hrevision
    have hchunked : ¬ minProtocolVersionWithChunkedPackets ≤ revision := by
      simp only [minProtocolVersionWithAddendum, minProtocolVersionWithChunkedPackets] at *
      omega
    have hreplicas : ¬ minRevisionWithVersionedParallelReplicasProtocol ≤ revision := by
      simp only [minProtocolVersionWithAddendum,
        minRevisionWithVersionedParallelReplicasProtocol] at *
      omega
    simp [sendAddendum, ServerProfile.seen, bytesWhen, hrevision, hquota, hchunked, hreplicas]

/-- What the server makes of everything that it is told. -/
theorem told_reads {o : HandshakeOptions} (ho : Tellable o) (f64Display : UInt64 → String)
    (server : ServerProfile) (modes : ChunkedProtocolMode × ChunkedProtocolMode) :
    Reads (readTold server.revision)
      (sendHello o ++ sendAddendum (min server.revision tcpProtocolVersion)
        (server.seen f64Display (min server.revision tcpProtocolVersion) modes))
      (seenClient o, toldAddendum (min server.revision tcpProtocolVersion) modes) :=
  (clientHello_reads ho).bind ((addendum_reads f64Display server _ modes).bind_nil (Reads.pure _))

/-- How a handshake ends in which the server says hello.  A client that cannot settle the modes
gives up without an addendum.  Otherwise each end has what the other one has said, and nothing is
left to read.  The framing is the same if and only if the server has the modes and follows the
client, which a server with one mode for both directions does. -/
structure Settles (o : HandshakeOptions) (server : ServerProfile) (f64Display : UInt64 → String)
    (rest : Bytes) : Prop where
  refused : ∀ e, settle o server (min server.revision tcpProtocolVersion) = .error e →
    performHandshake o (server.packet f64Display tcpProtocolVersion ++ rest) =
      (sendHello o, .error (asHelloError e))
  settled : ∀ modes, settle o server (min server.revision tcpProtocolVersion) = .ok modes →
    ∃ told hello addendum,
      performHandshake o (server.packet f64Display tcpProtocolVersion ++ rest) =
          (told, .ok (hello, rest)) ∧
        hello = server.seen f64Display (min server.revision tcpProtocolVersion) modes ∧
        readTold server.revision told = .ok ((seenClient o, addendum), []) ∧
        (∀ framing, SameFraming framing server hello addendum ↔
          minProtocolVersionWithChunkedPackets ≤ server.revision ∧ server.Follows o) ∧
        (server.send = server.recv → server.Follows o)

/-- **Every handshake settles**, and both ends frame their packets in the same way exactly from
revision 54470 on, with servers that follow the client. -/
theorem performHandshake_settles (o : HandshakeOptions) (server : ServerProfile)
    (f64Display : UInt64 → String) (rest : Bytes) (ho : Tellable o)
    (hserver : server.Sendable f64Display) : Settles o server f64Display rest := by
  have hread := receiveHello_hello o (readHello_concludes hserver o tcpProtocolVersion) rest
  constructor
  · -- the hello is not read to its end
    intro e he
    rw [he] at hread
    rw [performHandshake, ServerProfile.packet, hread]
    rfl
  · intro modes hmodes
    rw [hmodes] at hread
    refine ⟨sendHello o ++ sendAddendum (min server.revision tcpProtocolVersion)
      (server.seen f64Display (min server.revision tcpProtocolVersion) modes), _,
      toldAddendum (min server.revision tcpProtocolVersion) modes, ?_, rfl, ?_, ?_,
      follows_of_same o⟩
    · rw [performHandshake, ServerProfile.packet, hread]
      show (sendHello o ++ bytesWhen (minProtocolVersionWithAddendum ≤ _) _, _) = _
      rw [show (server.seen f64Display _ modes).revisionVersion =
        min server.revision tcpProtocolVersion from rfl, sendAddendum_when]
    · exact (told_reads ho f64Display server modes).run
    · intro framing
      have hrevision : minProtocolVersionWithChunkedPackets ≤
          min server.revision tcpProtocolVersion ↔
            minProtocolVersionWithChunkedPackets ≤ server.revision := by
        simp only [minProtocolVersionWithChunkedPackets, tcpProtocolVersion,
          minRevisionWithVersionedClusterFunctionProtocol]
        omega
      rw [sameFraming_iff framing hmodes, hrevision]

/-! ## An exception instead of a hello -/

/-- The fields of an exception. -/
def exceptionBytes (e : ServerException) (hasNested : UInt8) : Bytes :=
  putLe (Int32.ofInt e.code) ++ (text e.name ++ (text e.message ++ (text e.stackTrace ++
    putLe hasNested)))

/-- An exception whose fields can be sent.  Its code says whether it is fatal. -/
structure SendableException (e : ServerException) : Prop where
  code : (Int32.ofInt e.code).toInt = e.code
  fatal : e.fatal = decide (e.code ∈ serverErrorCodes)
  name : (utf8Bytes e.name).length ≤ maxStringSize
  message : (utf8Bytes e.message).length ≤ maxStringSize
  stackTrace : (utf8Bytes e.stackTrace).length ≤ maxStringSize

theorem exception_reads {e : ServerException} (h : SendableException e) (hasNested : UInt8) :
    Reads readException (exceptionBytes e hasNested) e := by
  refine (Reads.getLe _ _).bind ((text_reads h.name).bind ?_)
  refine (readString_reads .async _ h.message).bind ((text_reads h.stackTrace).bind ?_)
  refine (Reads.getLe _ _).bind_nil ?_
  rw [h.code, Setting.lossyString_utf8Bytes, ← h.fatal]
  exact Reads.pure e

/-- **A server that refuses the client** says why, and the client has said hello only. -/
theorem performHandshake_exception (o : HandshakeOptions) {e : ServerException}
    (h : SendableException e) (hasNested : UInt8) (rest : Bytes) :
    performHandshake o (writeVarUint 2 ++ exceptionBytes e hasNested ++ rest) =
      (sendHello o, .error (.error (.serverException e))) := by
  have hpacket := (readVarUint_reads .async (show 2 < 2 ^ 63 by decide)).mapError HelloError.native
  have hfields := (exception_reads h hasNested).mapError HelloError.native
  have hread : receiveHello tcpProtocolVersion o
      (writeVarUint 2 ++ exceptionBytes e hasNested ++ rest) =
        .error (.error (.serverException e)) := by
    rw [receiveHello, Reader.bind_apply, List.append_assoc, hpacket]
    show (readException.mapError HelloError.native >>= fun exception =>
      Reader.fail (.serverException exception)) (exceptionBytes e hasNested ++ rest) = _
    rw [Reader.bind_apply, hfields]
    rfl
  rw [performHandshake, hread]

/-! ## Servers with and without chunks -/

/-- A server that reads the mode it is told, and settles as the client does. -/
def sampleFraming : ServerFraming where
  chunks mode told :=
    match told with
    | none => some false
    | some s =>
        match ChunkedProtocolMode.fromStr s with
        | .error _ => none
        | .ok client =>
            if mode.isOptional then some client.isChunked
            else if client.isOptional then some mode.isChunked
            else if client.isChunked = mode.isChunked then some mode.isChunked else none
  untold _ := rfl
  optional mode client h := by
    cases mode <;> cases h <;> cases client <;> rfl
  required mode client h h' := by
    cases mode <;> cases h <;> cases client <;> cases h' <;> rfl

def sampleOptions : HandshakeOptions := ⟨"default", "default", "", default, default⟩

/-- A server of a revision, with its mode for what it receives. -/
def sampleServer (revision : Nat) (recv : ChunkedProtocolMode) : ServerProfile where
  name := "ClickHouse"
  major := 24
  minor := 10
  revision := revision
  replicasProtocol := 0
  timezone := "UTC"
  displayName := "node-1"
  patch := 2
  send := .notChunkedOptional
  recv := recv
  rules := [(".{12}", "be at least 12 characters long")]
  nonce := 7
  settings := []
  queryPlanVersion := 0
  clusterFunctionVersion := 0

theorem sampleServer_sendable {revision : Nat} (hrevision : revision < 2 ^ 63)
    (recv : ChunkedProtocolMode) : (sampleServer revision recv).Sendable fun _ => "" where
  name_le := show (utf8Bytes "ClickHouse").length ≤ maxStringSize by decide
  timezone_le := show (utf8Bytes "UTC").length ≤ maxStringSize by decide
  displayName_le := show (utf8Bytes "node-1").length ≤ maxStringSize by decide
  numbers_lt := by simpa [sampleServer] using hrevision
  rules_le := by simp [sampleServer, maxStringSize]; decide
  settings_sendable := fun s hs => by cases hs

/-- Three handshakes that succeed.  One revision before the modes the client sends chunks to a
server that does not take them; with the modes both ends do the same; and a server that takes no
chunks, but leaves it open whether it sends them, refuses the client that has settled for
chunks. -/
theorem performHandshake_settles_sample :
    (∃ told hello addendum,
      performHandshake sampleOptions ((sampleServer 54469 .notChunked).packet (fun _ => "")
          tcpProtocolVersion ++ []) = (told, .ok (hello, [])) ∧
        readTold 54469 told = .ok ((seenClient sampleOptions, addendum), []) ∧
        ¬ SameFraming sampleFraming (sampleServer 54469 .notChunked) hello addendum) ∧
    (∃ told hello addendum,
      performHandshake sampleOptions ((sampleServer 54479 .notChunkedOptional).packet (fun _ => "")
          tcpProtocolVersion ++ []) = (told, .ok (hello, [])) ∧
        readTold 54479 told = .ok ((seenClient sampleOptions, addendum), []) ∧
        SameFraming sampleFraming (sampleServer 54479 .notChunkedOptional) hello addendum) ∧
    ∃ told hello addendum,
      performHandshake sampleOptions ((sampleServer 54479 .notChunked).packet (fun _ => "")
          tcpProtocolVersion ++ []) = (told, .ok (hello, [])) ∧
        readTold 54479 told = .ok ((seenClient sampleOptions, addendum), []) ∧
        ¬ SameFraming sampleFraming (sampleServer 54479 .notChunked) hello addendum := by
  have hsettles : ∀ revision recv, revision < 2 ^ 63 →
      Settles sampleOptions (sampleServer revision recv) (fun _ => "") [] :=
    fun revision recv hrevision =>
      performHandshake_settles sampleOptions (sampleServer revision recv) (fun _ => "") []
        ⟨by decide, by decide, by decide⟩ (sampleServer_sendable hrevision recv)
  refine ⟨?_, ?_, ?_⟩
  · obtain ⟨told, hello, addendum, hrun, -, htold, hframing, -⟩ :=
      (hsettles 54469 .notChunked (by decide)).settled _ rfl
    exact ⟨told, hello, addendum, hrun, htold,
      fun hsame => absurd ((hframing sampleFraming).mp hsame).1 (by decide)⟩
  · obtain ⟨told, hello, addendum, hrun, -, htold, hframing, hfollows⟩ :=
      (hsettles 54479 .notChunkedOptional (by decide)).settled _ rfl
    exact ⟨told, hello, addendum, hrun, htold,
      (hframing sampleFraming).mpr ⟨by decide, hfollows rfl⟩⟩
  · obtain ⟨told, hello, addendum, hrun, -, htold, hframing, -⟩ :=
      (hsettles 54479 .notChunked (by decide)).settled _ rfl
    refine ⟨told, hello, addendum, hrun, htold, fun hsame => ?_⟩
    obtain ⟨-, hfollows⟩ := (hframing sampleFraming).mp hsame
    exact absurd hfollows.1 (by decide)

end Handshake

end ClickhouseArrow
