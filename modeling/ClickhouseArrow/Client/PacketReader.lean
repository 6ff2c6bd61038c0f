import ClickhouseArrow.Client.InternalConn
import ClickhouseArrow.Native.VarUint
import ClickhouseArrow.Settings.Setting
import ClickhouseArrow.Wire.Future

/-!
# Packets read byte by byte

`Reader::receive_header` and `Reader::receive_packet` as futures over the socket.  They read
what a packet carries also where the loop makes nothing of it; the blocks of a packet are
read by the client format, which is a parameter.
-/

namespace ClickhouseArrow

open Wire

/-! ## What a packet carries -/

inductive ServerPacketId
  | hello
  | data
  | exception
  | progress
  | pong
  | endOfStream
  | profileInfo
  | totals
  | extremes
  | tablesStatusResponse
  | log
  | tableColumns
  | partUuids
  | readTaskRequest
  | profileEvents
  | mergeTreeAllRangesAnnouncement
  | mergeTreeReadTaskRequest
  | timezoneUpdate
  | sshChallenge
  deriving DecidableEq, Repr

namespace ServerPacketId

/-- `ServerPacketId::from_u64`. -/
def fromU64 (i : UInt64) : Option ServerPacketId :=
  match i.toNat with
  | 0 => some .hello
  | 1 => some .data
  | 2 => some .exception
  | 3 => some .progress
  | 4 => some .pong
  | 5 => some .endOfStream
  | 6 => some .profileInfo
  | 7 => some .totals
  | 8 => some .extremes
  | 9 => some .tablesStatusResponse
  | 10 => some .log
  | 11 => some .tableColumns
  | 12 => some .partUuids
  | 13 => some .readTaskRequest
  | 14 => some .profileEvents
  | 15 => some .mergeTreeAllRangesAnnouncement
  | 16 => some .mergeTreeReadTaskRequest
  | 17 => some .timezoneUpdate
  | 18 => some .sshChallenge
  | _ => none

end ServerPacketId

structure QueryProgress where
  readRows : UInt64
  readBytes : UInt64
  totalRowsToRead : UInt64
  totalBytesToRead : Option UInt64
  writtenRows : Option UInt64
  writtenBytes : Option UInt64
  elapsedNs : Option UInt64
  deriving DecidableEq, Repr

structure ProfileInfo where
  rows : UInt64
  blocks : UInt64
  bytes : UInt64
  appliedLimit : Bool
  rowsBeforeLimit : UInt64
  calculatedRowsBeforeLimit : Bool
  appliedAggregation : Bool
  rowsBeforeAggregation : UInt64
  deriving DecidableEq, Repr

structure TableColumns where
  name : String
  description : String
  deriving DecidableEq, Repr

structure TableStatus where
  isReplicated : Bool
  absoluteDelay : UInt32
  deriving DecidableEq, Repr

/-- The error codes under `Severity::Server` of `map_error_code`. -/
def serverErrorCodes : List Int :=
  [109, 110, 111, 112, 113, 114, 173, 239, 240, 243, 745]

/-- What a client format and the native format read of a block: `T::read`, and
`NativeFormat::read` with the compression of the connection and without one. -/
structure ClientFormat (D : Type) where
  read : Future (Option D)
  readNative : Future (Option Header)
  readUncompressed : Future (Option Header)

namespace PacketReader

/-! ## Numbers and strings -/

/-- The loop of `read_var_uint`. -/
def collect : (left i : Nat) → (out : UInt64) → Future UInt64
  | 0, _, out => pure out
  | left + 1, i, out => do
      let octet ← Future.readU8
      let out := out ||| (VarUint.lowBits octet).toUInt64 <<< UInt64.ofNat (7 * i)
      if VarUint.continues octet then collect left (i + 1) out else pure out

/-- `read_var_uint`. -/
def readVarUint : Future UInt64 := collect 9 0 0

/-- `read_string`. -/
def readString : Future Bytes := do
  let len ← readVarUint
  if len.toNat > maxStringSize then Future.fail
  else if len.toNat = 0 then pure []
  else Future.readExact len.toNat

/-- `read_utf8_string`. -/
def readUtf8String : Future String := do
  let bytes ← readString
  match fromUtf8 bytes with
  | .ok s => pure s
  | _ => Future.fail

/-- The numbers are those of the readers that have all their bytes. -/
theorem collect_follows (eof : Nat → Nat → Error) (left i : Nat) (out : UInt64) :
    (collect left i out).Follows (VarUint.collect eof left i out) := by
  induction left generalizing i out with
  | zero => exact .pure out
  | succ left ih =>
    refine .bind (.readU8 eof) fun octet => ?_
    exact .ite (fun _ => ih _ _) fun _ => .pure _

theorem readVarUint_follows : readVarUint.Follows ClickHouseRead.readVarUint :=
  collect_follows _ 9 0 0

theorem readString_follows : readString.Follows ClickHouseRead.readString := by
  refine .bind readVarUint_follows fun len => ?_
  refine .ite (fun _ => .fail _ (by simp [Reader.fail])) fun _ => ?_
  exact .ite (fun _ => .pure []) fun _ => .readExact _ _

/-- `read_u8().await? != 0`. -/
def readFlag : Future Bool := do
  let octet ← Future.readU8
  pure (octet != 0)

/-- `read_i32_le`. -/
def readI32Le : Future Int32 := do
  let bytes ← Future.readExact 4
  pure (Int32.ofNat (ofLeBytes bytes))

/-- A field that the revision has or has not. -/
def readWhen {α : Type} (supported : Bool) (field : Future α) : Future (Option α) :=
  if supported then do
    let x ← field
    pure (some x)
  else pure none

/-! ## The readers of a packet -/

/-- `read_exception`, and the severity that `emit` gives the exception. -/
def readException : Future ServerException := do
  let code ← readI32Le
  let name ← readUtf8String
  let message ← readString
  let stackTrace ← readUtf8String
  let _hasNested ← readFlag
  pure ⟨code.toInt, name, Setting.lossyString message, stackTrace,
    decide (code.toInt ∈ serverErrorCodes)⟩

/-- `read_progress`. -/
def readProgress (revision : UInt64) : Future QueryProgress := do
  let readRows ← readVarUint
  let readBytes ← readVarUint
  let totalRowsToRead ← readWhen (revision ≥ 54406) readVarUint
  let totalBytesToRead ← readWhen (revision ≥ 54463) readVarUint
  let writtenRows ← readWhen (revision ≥ 54420) readVarUint
  let writtenBytes ← readWhen (revision ≥ 54420) readVarUint
  let elapsedNs ← readWhen (revision ≥ 54460) readVarUint
  pure ⟨readRows, readBytes, totalRowsToRead.getD 0, totalBytesToRead, writtenRows,
    writtenBytes, elapsedNs⟩

/-- `read_profile_info`. -/
def readProfileInfo (revision : UInt64) : Future ProfileInfo := do
  let rows ← readVarUint
  let blocks ← readVarUint
  let bytes ← readVarUint
  let appliedLimit ← readFlag
  let rowsBeforeLimit ← readVarUint
  let calculatedRowsBeforeLimit ← readFlag
  let appliedAggregation ← readWhen (revision ≥ 54469) readFlag
  let rowsBeforeAggregation ← readWhen (revision ≥ 54469) readVarUint
  pure ⟨rows, blocks, bytes, appliedLimit, rowsBeforeLimit, calculatedRowsBeforeLimit,
    appliedAggregation.getD false, rowsBeforeAggregation.getD 0⟩

/-- One entry of `read_table_status_response`. -/
def readTableStatus : Future ((String × String) × TableStatus) := do
  let databaseName ← readUtf8String
  let tableName ← readUtf8String
  let isReplicated ← readFlag
  let absoluteDelay ← readWhen isReplicated readVarUint
  pure ((databaseName, tableName), ⟨isReplicated, (absoluteDelay.getD 0).toUInt32⟩)

/-- `read_table_status_response`, with the entries as they come. -/
def readTableStatusResponse : Future (List ((String × String) × TableStatus)) := do
  let size ← readVarUint
  if size.toNat > maxStringSize then Future.fail
  else Future.repeatTimes readTableStatus size.toNat

/-- `read_task_request`: an error of the string is no error of the packet. -/
def readTaskRequest : Future (Option String) := readUtf8String.ok

/-- `read_part_uuids`. -/
def readPartUuids : Future (List Bytes) := do
  let len ← readVarUint
  if len.toNat > maxStringSize then Future.fail
  else Future.repeatTimes (Future.readExact 16) len.toNat

/-- `read_table_columns`. -/
def readTableColumns : Future TableColumns := do
  let name ← readUtf8String
  let description ← readUtf8String
  pure ⟨name, description⟩

/-- `read_block`, `read_data` and the blocks of logs and profile events: the name of a table
stands before the block. -/
def readData {α : Type} (read : Future (Option α)) : Future (Option α) := do
  let _table ← readString
  read

variable {D : Type}

/-- `receive_header`. -/
def receiveHeader (format : ClientFormat D) (revision : UInt64) : Future (Packet D) := do
  let id ← readVarUint
  match ServerPacketId.fromU64 id with
  | some .data => do
      let columns ← readData format.readNative
      if columns.isNone then Future.fail else pure (.data columns none)
  | some .progress => do
      let _progress ← readProgress revision
      pure .progress
  | some .tableColumns => do
      let _columns ← readTableColumns
      pure .tableColumns
  | some .endOfStream => pure .endOfStream
  | some .exception => do
      let e ← readException
      pure (.exception e)
  | _ => Future.fail

/-- `receive_packet`. -/
def receivePacket (format : ClientFormat D) (revision : UInt64) : Future (Packet D) := do
  let id ← readVarUint
  match ServerPacketId.fromU64 id with
  | some .pong => pure .pong
  | some .data => do
      let block ← readData format.read
      pure (.data none block)
  | some .exception => do
      let e ← readException
      pure (.exception e)
  | some .progress => do
      let _progress ← readProgress revision
      pure .progress
  | some .endOfStream => pure .endOfStream
  | some .profileInfo => do
      let _info ← readProfileInfo revision
      pure .profileInfo
  | some .totals => do
      let block ← readData format.read
      pure (.totals block)
  | some .extremes => do
      let block ← readData format.read
      pure (.extremes block)
  | some .tablesStatusResponse => do
      let _response ← readTableStatusResponse
      pure .tablesStatusResponse
  | some .log => do
      let _data ← readData format.readUncompressed
      pure .log
  | some .tableColumns => do
      let _columns ← readTableColumns
      pure .tableColumns
  | some .partUuids => do
      let _uuids ← readPartUuids
      pure .partUuids
  | some .readTaskRequest => do
      let _request ← readTaskRequest
      pure .readTaskRequest
  | some .profileEvents => do
      if revision < 54456 then Future.fail
      else
        let _data ← readData format.readUncompressed
        pure .profileEvents
  -- the bodies of these four are left on the socket
  | some .mergeTreeAllRangesAnnouncement => pure .mergeTreeAllRangesAnnouncement
  | some .mergeTreeReadTaskRequest => pure .mergeTreeReadTaskRequest
  | some .timezoneUpdate => pure .timezoneUpdate
  | some .sshChallenge => pure .sshChallenge
  | some .hello => Future.fail
  | none => Future.fail

end PacketReader

end ClickhouseArrow
