import ClickhouseArrow.Formats.NativeFormat
import ClickhouseArrow.Native.ModeAgreement
import ClickhouseArrow.Arrow.DeserializerState
import ClickhouseArrow.Arrow.ModeAgreement
import ClickhouseArrow.Arrow.Utf8

/-!
# Blocks in several frames

`ArrowFormat`, and what both formats make of a block whose bytes are cut into frames.  A read
decompresses one frame and takes the block from its data alone; the frames behind it are left
in the stream.  A block is read as it is without compression only where one frame holds all
of it.
-/

namespace Wire

variable {σ ε ζ α : Type}

/-- A reader of a buffer of its own; the bytes of the stream are not touched. -/
def StateReader.within (buffer : Bytes) (p : StateReader σ ε α) : StateReader σ ε α := fun bs s =>
  ((p buffer s).1.map fun x => (x.1, bs), (p buffer s).2)

theorem Reader.mapError_eq_ok {p : Reader ε α} {f : ε → ζ} {bs : Bytes} {x : α × Bytes} :
    p.mapError f bs = .ok x ↔ p bs = .ok x := by
  rw [Reader.mapError]
  cases p bs with
  | ok y =>
      show Except.ok y = Except.ok x ↔ _
      rw [Except.ok.injEq, Except.ok.injEq]
  | error e =>
      cases e with
      | error e =>
          constructor
          · exact fun h => by cases h
          · exact fun h => by cases h
      | panic q =>
          constructor
          · exact fun h => by cases h
          · exact fun h => by cases h

theorem Extends.mapError {ε' ζ' : Type} {p : Reader ε α} {q : Reader ζ α} (h : Extends p q)
    (f : ε → ε') (g : ζ → ζ') : Extends (p.mapError f) (q.mapError g) :=
  fun bs x hx => Reader.mapError_eq_ok.mpr (h bs x (Reader.mapError_eq_ok.mp hx))

/-- Readers that end in the same way with the same values return the same. -/
theorem Simulates.extends_right {p : Reader ε α} {q : Reader ζ α}
    (h : Simulates (fun a b => a = b) p q) : Extends p q :=
  fun _ _ hp => h.eq_ok_iff.mpr hp

end Wire

namespace ClickhouseArrow

open Wire

/-! ## Where the synchronous reader of batches goes along -/

/-- A text is the bytes that it is read from. -/
theorem eq_utf8Bytes_of_fromUtf8 {bytes : Bytes} {s : String} (h : fromUtf8 bytes = .ok s) :
    bytes = utf8Bytes s := by
  rw [fromUtf8, String.fromUTF8?] at h
  by_cases hvalid : ByteArray.IsValidUTF8 ⟨bytes.toArray⟩
  · rw [dif_pos hvalid] at h
    cases h
    rfl
  · rw [dif_neg hvalid] at h
    cases h

namespace Arrow

namespace BlockReader

variable (r : BlockReader)

/-- `RecordBatch::read_async`. -/
abbrev async : BlockReader := { r with mode := .async }

/-- `RecordBatch::read`. -/
abbrev sync : BlockReader := { r with mode := .sync }

/-- A name that `read_async` takes is not mended by `read`. -/
theorem readName_extends : Extends r.async.readName r.sync.readName := by
  intro bs x h
  have hname : readUtf8String .async bs = .ok x := Reader.mapError_eq_ok.mp h
  rw [readUtf8String, Reader.bind_apply] at hname
  obtain ⟨⟨bytes, rest⟩, hbytes, htext⟩ := Outcome.bind_eq_ok.mp hname
  have hsync : readText .sync bs = .ok (bytes, rest) :=
    Reader.mapError_eq_ok.mpr (readString_simulates.eq_ok_iff.mpr hbytes)
  show ((readText .sync >>= fun bytes =>
    (Reader.ofOutcome (fromUtf8 (fromUtf8Lossy bytes))).mapError .native) bs) = .ok x
  rw [Reader.bind_apply, hsync, Outcome.ok_bind]
  apply Reader.mapError_eq_ok.mpr
  dsimp only at htext
  cases hs : fromUtf8 bytes with
  | ok s =>
      obtain rfl := eq_utf8Bytes_of_fromUtf8 hs
      rwa [fromUtf8Lossy_utf8Bytes]
  | error e =>
      rw [hs] at htext
      cases htext

theorem readHeader_extends : Extends r.async.readHeader r.sync.readHeader := by
  refine (readName_extends r).bind fun name => (readName_extends r).bind fun typeName => ?_
  refine ((Extends.ofOutcome _).mapError _ _).bind fun t => ?_
  refine (Extends.ofOutcome _).bind fun announced => ?_
  have hflag := (Block.readFlag_simulates r.revision).extends_right
  exact (hflag.mapError _ _).bind fun _ => Extends.pure _

/-- The decoders agree on a column whose builder is the one for its type. -/
theorem arrayOf_extends (rows : Nat) (h : ColumnHeader) :
    Extends (r.async.arrayOf rows h) (r.sync.arrayOf rows h) := by
  refine Extends.ite (fun _ => ?_) fun _ => Extends.ofOutcome _
  cases hbuilder : h.newBuilder with
  | error e =>
      intro bs x hx
      cases hx
  | ok b =>
      have hprefix := (ChType.deserializePrefix_simulates h.hint).extends_right.mapError
        ArrowError.native ArrowError.native
      have hdecode : Extends (r.async.decode h.hint b h.field.dataType rows [])
          (r.sync.decode h.hint b h.field.dataType rows []) :=
        (deserializeArrow_agree r.json (fits_of_tryNewOf hbuilder) _ _ _).extends_right
      exact hprefix.bind fun _ => hdecode

theorem columnsOf_extends (rows n : Nat) :
    Extends (r.async.columnsOf rows n) (r.sync.columnsOf rows n) := by
  induction n with
  | zero => exact Extends.pure _
  | succ n ih =>
      refine (readHeader_extends r).bind fun h => (arrayOf_extends r rows h).bind fun array => ?_
      exact ih.bind fun columns => Extends.pure _

theorem readCounts_extends : Extends r.async.readCounts r.sync.readCounts := by
  have hinfo := BlockInfo.read_simulates.extends_right.mapError ArrowError.native ArrowError.native
  have hnumber := readVarUint_simulates.extends_right.mapError ArrowError.native ArrowError.native
  exact hinfo.bind fun _ => hnumber.bind fun _ => hnumber.bind fun _ => Extends.pure _

/-- **What `read_async` returns `read` returns as well**, and leaves the same bytes. -/
theorem batchOf_extends : Extends r.async.batchOf r.sync.batchOf := by
  refine (readCounts_extends r).bind fun counts => ?_
  refine Extends.ite (fun _ => Extends.pure _) fun _ => ?_
  exact (columnsOf_extends r _ _).bind fun columns => Extends.ofOutcome _

end BlockReader

/-- `RecordBatch::into_option`. -/
def RecordBatch.intoOption (batch : RecordBatch) : Option RecordBatch :=
  if batch.rowCount = 0 ∧ batch.columns.length = 0 then none else some batch

end Arrow

open Arrow Arrow.ArrowDeserializerState

/-- `ArrowFormat::read`. -/
def ArrowFormat.read (codec : Codec) (method : CompressionMethod) (r : BlockReader) :
    BlockRead (Option Arrow.RecordBatch) :=
  match method with
  | .none => do
      let batch ← r.async.read
      pure batch.intoOption
  | method => do
      let buffer ← StateReader.lift ((decompressData codec method).mapError .native)
      let batch ← StateReader.within buffer r.sync.read
      pure batch.intoOption

/-! ## Frames one behind the other -/

namespace Frame

variable {codec : Codec} {method : CompressionMethod}

/-- The bytes of frames. -/
def stream (frames : List (Frame codec method)) : Bytes := frames.flatMap bytes

/-- The bytes that are cut into frames. -/
def data (frames : List (Frame codec method)) : Bytes := frames.flatMap raw

/-- Data that are not compressed are in no frame. -/
theorem method_ne_none (frame : Frame codec method) : method ≠ .none := by
  rintro rfl
  exact absurd frame.decompress_eq (by simp [CompressionMethod.decompress, Outcome.fail])

theorem data_singleton (frame : Frame codec method) : data [frame] = frame.raw := by
  simp [data]

theorem stream_cons (frame : Frame codec method) (frames : List (Frame codec method))
    (rest : Bytes) : stream (frame :: frames) ++ rest = frame.bytes ++ (stream frames ++ rest) := by
  simp [stream]

/-- Behind one of two frames there are bytes. -/
theorem stream_ne_nil {frames : List (Frame codec method)} (h : frames ≠ []) :
    stream frames ≠ [] := by
  obtain ⟨frame, frames, rfl⟩ := List.exists_cons_of_ne_nil h
  intro hnil
  exact frame.bytes_ne_nil (List.append_eq_nil_iff.mp hnil).1

end Frame

/-! ## Batches -/

namespace ArrowFormat

variable {codec : Codec} {method : CompressionMethod}

/-- What a batch without compression is read as, from a new state. -/
theorem read_none (codec : Codec) (r : BlockReader) (bs : Bytes) :
    (read codec .none r bs fresh).1 =
      (fun x => (x.1.intoOption, x.2)) <$> r.async.batchOf bs := by
  rw [← BlockReader.read_fresh]
  cases hbatch : (r.async.read bs fresh).1 with
  | ok x =>
      have hrun : r.async.read bs fresh = (.ok (x.1, x.2), (r.async.read bs fresh).2) :=
        Prod.ext hbatch rfl
      rw [read, StateReader.bind_of_ok hrun]
      rfl
  | error e =>
      rw [read, StateReader.bind_of_error hbatch]
      rfl

/-- The compressed reader takes the first frame, and the batch from its data alone. -/
theorem read_frame (frame : Frame codec method) (r : BlockReader) (rest : Bytes) :
    (read codec method r (frame.bytes ++ rest) fresh).1 =
      (fun x => (x.1.intoOption, rest)) <$> r.sync.batchOf frame.raw := by
  have hframe : StateReader.lift ((decompressData codec method).mapError ArrowError.native)
      (frame.bytes ++ rest) fresh = (.ok (frame.raw, rest), fresh) :=
    Prod.ext (frame.reads.mapError ArrowError.native rest) rfl
  have hread : ((do
      let buffer ← StateReader.lift ((decompressData codec method).mapError .native)
      let batch ← StateReader.within buffer r.sync.read
      pure batch.intoOption : BlockRead (Option Arrow.RecordBatch)) (frame.bytes ++ rest) fresh).1 =
        (fun x => (x.1.intoOption, rest)) <$> r.sync.batchOf frame.raw := by
    rw [StateReader.bind_of_ok hframe, ← BlockReader.read_fresh]
    cases hbatch : (r.sync.read frame.raw fresh).1 with
    | ok x =>
        have hrun : StateReader.within frame.raw r.sync.read rest fresh =
            (.ok (x.1, rest), (r.sync.read frame.raw fresh).2) :=
          Prod.ext (by rw [StateReader.within, hbatch]; rfl) rfl
        rw [StateReader.bind_of_ok hrun]
        rfl
    | error e =>
        have hrun : (StateReader.within frame.raw r.sync.read rest fresh).1 = .error e := by
          rw [StateReader.within, hbatch]
          rfl
        rw [StateReader.bind_of_error hrun]
        rfl
  cases method with
  | none => exact absurd rfl frame.method_ne_none
  | lz4 => exact hread
  | zstd => exact hread

/-- Frames are read as the batch whose bytes they hold, to the end of the last one. -/
def ReadsFrames (r : BlockReader) (frames : List (Frame codec method)) : Prop :=
  ∀ batch left rest, (read codec .none r (Frame.data frames) fresh).1 = .ok (batch, left) →
    (read codec method r (Frame.stream frames ++ rest) fresh).1 = .ok (batch, rest)

/-- **A batch is read from frames exactly where there is one frame.** -/
theorem readsFrames_iff_eq_nil {r : BlockReader} (frame : Frame codec method)
    (frames : List (Frame codec method))
    (h : ∃ x, (read codec .none r (Frame.data (frame :: frames)) fresh).1 = .ok x) :
    ReadsFrames r (frame :: frames) ↔ frames = [] := by
  constructor
  · intro hreads
    obtain ⟨⟨batch, left⟩, hbatch⟩ := h
    have hframes := hreads batch left [] hbatch
    rw [Frame.stream_cons, read_frame, List.append_nil] at hframes
    obtain ⟨x, -, hx⟩ := Outcome.map_eq_ok.mp hframes
    by_contra hne
    exact Frame.stream_ne_nil hne (congrArg Prod.snd hx)
  · rintro rfl batch left rest hbatch
    rw [Frame.data_singleton, read_none] at hbatch
    obtain ⟨x, hasync, hx⟩ := Outcome.map_eq_ok.mp hbatch
    have hsync : r.sync.batchOf frame.raw = .ok x := r.batchOf_extends _ _ hasync
    obtain rfl : x.1.intoOption = batch := congrArg Prod.fst hx
    rw [Frame.stream_cons, read_frame, hsync]
    rfl

end ArrowFormat

/-! ## Blocks -/

namespace NativeFormat

variable {codec : Codec} {method : CompressionMethod} {lex : Lexicon} {revision : Nat} {b : Block}

/-- Frames are read as the block whose bytes they hold, to the end of the last one. -/
def ReadsFrames (lex : Lexicon) (revision : Nat) (frames : List (Frame codec method)) : Prop :=
  ∀ block left rest, read codec lex .none revision (Frame.data frames) = .ok (block, left) →
    read codec lex method revision (Frame.stream frames ++ rest) = .ok (block, rest)

theorem read_none (codec : Codec) (lex : Lexicon) (revision : Nat) (raw : Bytes) :
    read codec lex .none revision raw =
      (fun x => (x.1.intoOption, x.2)) <$> Block.read lex .async revision raw := by
  rw [read, Reader.map_apply]
  cases Block.read lex .async revision raw with
  | ok x => rfl
  | error e => rfl

/-- Without compression a block is read where the walk of the asynchronous reader returns. -/
theorem exists_read_none_iff (codec : Codec) (lex : Lexicon) (revision : Nat) (raw : Bytes) :
    (∃ x, read codec lex .none revision raw = .ok x) ↔
      Outcome.ending (Block.scan lex .async revision raw) = .returned := by
  have hwalk := (Block.read_follows lex .async revision raw).ending_eq
  rw [← Outcome.ending_eq_returned, read_none, Outcome.ending_map, hwalk]

/-- Of two frames the second one is left. -/
theorem eq_nil_of_readsFrames {frame : Frame codec method} {frames : List (Frame codec method)}
    (hreads : ReadsFrames lex revision (frame :: frames))
    (h : ∃ x, read codec lex .none revision (Frame.data (frame :: frames)) = .ok x) :
    frames = [] := by
  obtain ⟨⟨block, left⟩, hblock⟩ := h
  -- Exactly one frame is taken, so the stream of the others is what is left.
  have hframes := hreads block left [] hblock
  rw [Frame.stream_cons, frame.read_eq frame.method_ne_none, List.append_nil] at hframes
  obtain ⟨x, -, hx⟩ := Outcome.bind_eq_ok.mp hframes
  by_contra hne
  exact Frame.stream_ne_nil hne (congrArg Prod.snd (Except.ok.inj hx))

/-- One frame is read where the walk of the synchronous reader over its data returns. -/
theorem readsFrames_singleton_iff {frame : Frame codec method}
    (h : ∃ x, read codec lex .none revision frame.raw = .ok x) :
    ReadsFrames lex revision [frame] ↔
      Outcome.ending (Block.scan lex .sync revision frame.raw) = .returned := by
  rw [← (Block.read_follows lex .sync revision frame.raw).ending_eq, Outcome.ending_eq_returned]
  constructor
  · intro hreads
    obtain ⟨⟨block, left⟩, hblock⟩ := h
    rw [← Frame.data_singleton frame] at hblock
    have hframe := hreads block left [] hblock
    rw [Frame.stream_cons, frame.read_eq frame.method_ne_none] at hframe
    obtain ⟨x, hx, -⟩ := Outcome.bind_eq_ok.mp hframe
    exact ⟨x, hx⟩
  · rintro ⟨x, hx⟩ block left rest hblock
    rw [Frame.data_singleton, read_none, Block.read_extends lex revision frame.raw x hx] at hblock
    obtain rfl : x.1.intoOption = block := congrArg Prod.fst (Except.ok.inj hblock)
    rw [Frame.stream_cons, frame.read_eq frame.method_ne_none, hx]
    rfl

/-- **A block is read from frames exactly where there is one frame, whose data the walk of the
synchronous reader comes to the end of.** -/
theorem readsFrames_iff_walk (frame : Frame codec method) (frames : List (Frame codec method)) :
    ReadsFrames lex revision (frame :: frames) ↔
      (Outcome.ending (Block.scan lex .async revision (Frame.data (frame :: frames))) = .returned →
        frames = [] ∧ Outcome.ending (Block.scan lex .sync revision frame.raw) = .returned) := by
  rw [← exists_read_none_iff codec]
  constructor
  · intro hreads h
    obtain rfl := eq_nil_of_readsFrames hreads h
    rw [Frame.data_singleton] at h
    exact ⟨rfl, (readsFrames_singleton_iff h).mp hreads⟩
  · intro h block left rest hblock
    obtain ⟨rfl, hends⟩ := h ⟨_, hblock⟩
    have hread := hblock
    rw [Frame.data_singleton] at hread
    exact (readsFrames_singleton_iff ⟨_, hread⟩).mpr hends block left rest hblock

end NativeFormat

/-! ## Both formats -/

namespace Frame

variable {codec : Codec} {method : CompressionMethod}

/-- **A block is read from frames as it is without compression where there is one frame.**  A
batch is, exactly there; a block of values exactly where moreover the walk of the synchronous
reader comes to the end of it.  A block that the synchronous reader takes back is one, and of
the blocks that fit no other one is. -/
theorem readsFrames_iff (frame : Frame codec method) (frames : List (Frame codec method)) :
    (∀ lex revision, NativeFormat.ReadsFrames lex revision (frame :: frames) ↔
      (Outcome.ending (Block.scan lex .async revision (data (frame :: frames))) = .returned →
        frames = [] ∧ Outcome.ending (Block.scan lex .sync revision frame.raw) = .returned)) ∧
    (∀ lex revision b, Block.write b revision = .ok (data (frame :: frames)) →
      (frames = [] ∧ b.SyncReads lex → NativeFormat.ReadsFrames lex revision (frame :: frames)) ∧
      (Block.Fits lex b → Block.FlagAgrees revision b.rows.toNat b.columnTypes.length →
        NativeFormat.ReadsFrames lex revision (frame :: frames) →
          frames = [] ∧ b.SyncReads lex)) ∧
    ∀ r, (∃ x, (ArrowFormat.read codec .none r (data (frame :: frames)) fresh).1 = .ok x) →
      (ArrowFormat.ReadsFrames r (frame :: frames) ↔ frames = []) := by
  refine ⟨fun lex revision => NativeFormat.readsFrames_iff_walk frame frames,
    fun lex revision b hwrite => ⟨?_, fun hfits hflag hreads => ?_⟩,
    fun r h => ArrowFormat.readsFrames_iff_eq_nil frame frames h⟩
  · -- The synchronous walk ends as the asynchronous one, which is at the end by assumption.
    rintro ⟨rfl, hsync⟩
    rw [data_singleton] at hwrite
    have halike := NativeFormat.ending_of_syncReads hsync hwrite frame.raw_le
    rw [NativeFormat.readsFrames_iff_walk, data_singleton]
    exact fun hends => ⟨rfl, halike.symm.trans hends⟩
  · have hends := NativeFormat.ending_async_of_fits hfits hflag hwrite
    obtain ⟨rfl, hsync⟩ := (NativeFormat.readsFrames_iff_walk frame frames).mp hreads hends
    rw [data_singleton] at hwrite
    exact ⟨rfl, NativeFormat.syncReads_of_ending hfits hwrite hsync⟩

theorem length_le_of_stored {raw : Bytes} (h : raw.length + 9 ≤ maxCompressedSize) :
    raw.length ≤ maxDecompressedSize := by
  simp only [maxCompressedSize] at h
  simp only [maxDecompressedSize]
  omega

/-- Bytes that are stored, in a frame. -/
def ofStored (raw : Bytes) (h : raw.length + 9 ≤ maxCompressedSize) : Frame .stored .lz4 :=
  ⟨raw, raw, h, length_le_of_stored h, rfl⟩

/-- A block of one number, the first byte in a frame of its own. -/
theorem not_readsFrames_samples :
    let first := ofStored [1] (by decide)
    let second := ofStored [1, 2, 255, 255, 255, 255, 0, 1, 1, 2, 105, 100, 5, 85, 73, 110, 116,
      56, 0, 7] (by decide)
    ¬ NativeFormat.ReadsFrames .ascii 54454 [first, second] ∧
      ¬ ArrowFormat.ReadsFrames ⟨.ascii, id, .async, .new, 54454⟩ [first, second] := by
  intro first second
  constructor
  · intro h
    have hread : NativeFormat.read .stored .ascii .none 54454 (data [first, second]) =
        .ok (some ⟨⟨true, -1⟩, 1, [("id", .uint8)], [.uint8 7]⟩, []) := rfl
    have hframes := h _ [] [] hread
    rw [stream_cons, first.read_eq first.method_ne_none] at hframes
    cases hframes
  · intro h
    obtain ⟨batch, hread⟩ : ∃ batch, (ArrowFormat.read .stored .none
        ⟨.ascii, id, .async, .new, 54454⟩ (data [first, second]) fresh).1 = .ok (batch, []) :=
      ⟨_, rfl⟩
    have hframes := h _ [] [] hread
    rw [stream_cons, ArrowFormat.read_frame] at hframes
    cases hframes

end Frame

end ClickhouseArrow
