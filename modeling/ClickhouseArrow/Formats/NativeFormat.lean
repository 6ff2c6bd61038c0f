import ClickhouseArrow.Formats.Compression
import ClickhouseArrow.Native.BlockRoundTrip
import ClickhouseArrow.Native.BlockWalk

/-!
# The native format

`NativeFormat`: a block alone, or as the content of one compressed frame.  Without
compression the asynchronous reader takes the block from the stream; with compression the
synchronous reader takes it from the data of one frame.
-/

namespace ClickhouseArrow

open Wire

namespace NativeFormat

/-- `NativeFormat::read`. -/
def read (codec : Codec) (lex : Lexicon) (method : CompressionMethod) (revision : Nat) :
    Reader Error (Option Block) :=
  match method with
  | .none => Block.intoOption <$> Block.read lex .async revision
  | method => do
      let buffer ← decompressData codec method
      let (block, _) ← Reader.ofOutcome (Block.read lex .sync revision buffer)
      pure block.intoOption

/-- `NativeFormat::write`.  The buffer for the compressed data is allocated in the size
that the block is estimated at. -/
def write (codec : Codec) (method : CompressionMethod) (revision : Nat) (b : Block) :
    Result Bytes :=
  match method with
  | .none => b.write revision
  | method => do
      let estimatedSize ← b.estimateSize
      if isizeMax < estimatedSize then .panic .capacityOverflow
      else do
        let buffer ← b.write revision
        compressData codec method buffer

/-- What a block reads back as when it is written and read under one method. -/
def storedAndRead (codec : Codec) (lex : Lexicon) (method : CompressionMethod) (revision : Nat)
    (b : Block) : Result (Option Block) := do
  let bytes ← write codec method revision b
  let (block, _) ← read codec lex method revision bytes
  .ok block

/-- Writing and reading a block ends under the method as it does without compression: in
the same block, in an error on both sides, or in a panic on both sides. -/
def SameResult (codec : Codec) (lex : Lexicon) (method : CompressionMethod) (revision : Nat)
    (b : Block) : Prop :=
  Matching (fun block block' => block = block') (storedAndRead codec lex .none revision b)
    (storedAndRead codec lex method revision b)

end NativeFormat

/-! ## One frame for a block -/

/-- Decompression inverts compression. -/
structure Codec.Inverts (codec : Codec) : Prop where
  lz4 : ∀ raw, codec.lz4Decompress (codec.lz4Compress raw) raw.length = .ok raw
  zstd : ∀ raw out, codec.zstdCompress raw = .ok out → codec.zstdDecompress out raw.length = .ok raw

theorem Codec.inverts_stored : Codec.stored.Inverts := ⟨fun _ => rfl, fun _ _ h => by
  obtain rfl := Except.ok.inj h
  rfl⟩

theorem CompressionMethod.decompress_compress {codec : Codec} {method : CompressionMethod}
    (hcodec : codec.Inverts) (hmethod : method ≠ .none) {raw payload : Bytes}
    (h : method.compress codec raw = .ok payload) :
    method.decompress codec payload raw.length = .ok raw := by
  cases method with
  | none => exact absurd rfl hmethod
  | lz4 =>
      obtain rfl : codec.lz4Compress raw = payload := Except.ok.inj h
      simp only [decompress, hcodec.lz4]
  | zstd =>
      simp only [compress] at h
      cases hout : codec.zstdCompress raw with
      | error e => simp [hout, Outcome.fail] at h
      | ok out =>
          obtain rfl : out = payload := by simpa [hout] using h
          simp only [decompress, hcodec.zstd raw out hout]

namespace Frame

variable {codec : Codec} {method : CompressionMethod}

/-- The writer makes the frame of its data. -/
theorem compressData_eq (frame : Frame codec method) (hmethod : method ≠ .none)
    (h : method.compress codec frame.raw = .ok frame.payload) :
    compressData codec method frame.raw = .ok frame.bytes := by
  have hpayload := frame.payload_le
  have hsize : ¬ 2 ^ 32 ≤ frame.payload.length % 2 ^ 32 + 9 := by
    simp only [maxCompressedSize] at hpayload
    omega
  have hword : UInt32.ofNat frame.payload.length + 9 = UInt32.ofNat (frame.payload.length + 9) := by
    rw [UInt32.ofNat_add]
    rfl
  have hwritten : (do
      let out ← method.compress codec frame.raw
      if 2 ^ 32 ≤ out.length % 2 ^ 32 + 9 then .panic .addOverflow
      else
        let body := frameBody method (UInt32.ofNat out.length + 9)
          (UInt32.ofNat frame.raw.length) out
        .ok (putChecksum (codec.cityhash body) ++ body) : Result Bytes) = .ok frame.bytes := by
    rw [h, Outcome.ok_bind, if_neg hsize, hword]
    rfl
  cases method with
  | none => exact absurd rfl hmethod
  | lz4 => exact hwritten
  | zstd => exact hwritten

/-- The compressed reader takes the first frame, and the block from its data alone. -/
theorem read_eq (frame : Frame codec method) (hmethod : method ≠ .none) (lex : Lexicon)
    (revision : Nat) (rest : Bytes) :
    NativeFormat.read codec lex method revision (frame.bytes ++ rest) = (do
      let (block, _) ← Block.read lex .sync revision frame.raw
      .ok (block.intoOption, rest)) := by
  have hread : (do
      let buffer ← decompressData codec method
      let (block, _) ← Reader.ofOutcome (Block.read lex .sync revision buffer)
      pure block.intoOption : Reader Error (Option Block)) (frame.bytes ++ rest) = (do
        let (block, _) ← Block.read lex .sync revision frame.raw
        .ok (block.intoOption, rest)) := by
    rw [Reader.bind_apply, frame.reads rest, Outcome.ok_bind]
    dsimp only
    cases hblock : Block.read lex .sync revision frame.raw with
    | ok x =>
        rw [Reader.bind_apply]
        rfl
    | error e =>
        rw [Reader.bind_apply]
        rfl
  cases method with
  | none => exact absurd rfl hmethod
  | lz4 => exact hread
  | zstd => exact hread

end Frame

namespace NativeFormat

variable {codec : Codec} {lex : Lexicon} {method : CompressionMethod} {revision : Nat} {b : Block}
  {raw payload : Bytes}

/-- The block that the reader of the mode makes of raw bytes. -/
def decoded (lex : Lexicon) (m : Mode) (revision : Nat) (raw : Bytes) : Result (Option Block) := do
  let (block, _) ← Block.read lex m revision raw
  .ok block.intoOption

/-- The buffer for the compressed data can be allocated. -/
def EstimateFits (b : Block) : Prop :=
  ∃ estimatedSize, b.estimateSize = .ok estimatedSize ∧ estimatedSize ≤ isizeMax

theorem storedAndRead_none (codec : Codec) (lex : Lexicon) (hwrite : b.write revision = .ok raw) :
    storedAndRead codec lex .none revision b = decoded lex .async revision raw := by
  rw [storedAndRead, write, hwrite, Outcome.ok_bind, read, Reader.map_apply, decoded]
  cases Block.read lex .async revision raw with
  | ok x => rfl
  | error e => rfl

theorem storedAndRead_compressed (lex : Lexicon) (hcodec : codec.Inverts) (hmethod : method ≠ .none)
    (hwrite : b.write revision = .ok raw) (hraw : raw.length ≤ maxDecompressedSize)
    (hcompress : method.compress codec raw = .ok payload)
    (hpayload : payload.length + 9 ≤ maxCompressedSize) (hestimate : EstimateFits b) :
    storedAndRead codec lex method revision b = decoded lex .sync revision raw := by
  obtain ⟨estimatedSize, hsize, hle⟩ := hestimate
  let frame : Frame codec method :=
    ⟨payload, raw, hpayload, hraw, CompressionMethod.decompress_compress hcodec hmethod hcompress⟩
  have hbuffer : write codec method revision b = compressData codec method raw := by
    have hwritten : (do
        let estimatedSize ← b.estimateSize
        if isizeMax < estimatedSize then .panic .capacityOverflow
        else do
          let buffer ← b.write revision
          compressData codec method buffer : Result Bytes) = compressData codec method raw := by
      rw [hsize, Outcome.ok_bind, if_neg (Nat.not_lt.mpr hle), hwrite, Outcome.ok_bind]
    cases method with
    | none => exact absurd rfl hmethod
    | lz4 => exact hwritten
    | zstd => exact hwritten
  have hframe := frame.compressData_eq hmethod hcompress
  have hread := frame.read_eq hmethod lex revision []
  rw [List.append_nil] at hread
  rw [storedAndRead, hbuffer, hframe, Outcome.ok_bind, hread, decoded]
  cases Block.read lex .sync revision frame.raw with
  | ok x => rfl
  | error e => rfl

theorem addUsize_noFail (a b : Nat) : Outcome.NoFail (addUsize a b) := by
  unfold addUsize
  split
  · exact Outcome.NoFail.panic _
  · exact Outcome.NoFail.ok _

theorem mulUsize_noFail (a b : Nat) : Outcome.NoFail (mulUsize a b) := by
  unfold mulUsize
  split
  · exact Outcome.NoFail.panic _
  · exact Outcome.NoFail.ok _

/-- The estimate can overflow, and does not fail otherwise. -/
theorem estimateCapacity_noFail (t : ChType) : Outcome.NoFail t.estimateCapacity := by
  have hsum : ∀ (ts : List ChType), (∀ t ∈ ts, Outcome.NoFail t.estimateCapacity) →
      ∀ size, Outcome.NoFail (ChType.estimateCapacity.sum size ts) := by
    intro ts hts
    induction ts with
    | nil => exact fun size => Outcome.NoFail.ok size
    | cons t ts ih =>
        have htail := ih fun u hu => hts u (List.mem_cons_of_mem t hu)
        exact fun size => (hts t List.mem_cons_self).bind fun capacity =>
          (addUsize_noFail size capacity).bind htail
  induction t using ChType.inductionOn with
  | hleaf t hflat =>
      -- A type without parts has a fixed estimate.
      cases t with
      | nullable | lowCardinality | array | tuple | map => cases hflat
      | _ => exact Outcome.NoFail.ok _
  | hnullable inner ih => exact ih
  | hlowCardinality inner _ ih => exact Outcome.NoFail.ok _
  | harray inner ih =>
    exact ih.bind fun _ => (addUsize_noFail _ _).bind fun _ => mulUsize_noFail _ _
  | htuple items ih => exact hsum items ih 0
  | hmap key value ihkey ihvalue =>
      exact ihkey.bind fun _ => ihvalue.bind fun _ =>
        (addUsize_noFail _ _).bind fun _ => addUsize_noFail _ _

theorem estimateSize_noFail (b : Block) : Outcome.NoFail b.estimateSize := by
  have hcolumns : ∀ columns size,
      Outcome.NoFail (Block.estimateColumns b.rows.toNat size columns) := by
    intro columns
    induction columns with
    | nil => exact fun size => Outcome.NoFail.ok size
    | cons column columns ih =>
        intro size
        refine (addUsize_noFail _ _).bind fun _ => (addUsize_noFail _ _).bind fun _ => ?_
        refine (addUsize_noFail _ _).bind fun _ => ?_
        refine (estimateCapacity_noFail column.2).bind fun _ => ?_
        exact (mulUsize_noFail _ _).bind fun _ => (addUsize_noFail _ _).bind ih
  exact (hcolumns _ _).bind fun _ => (mulUsize_noFail _ _).bind fun _ => Outcome.NoFail.ok _

/-- A block whose buffer cannot be allocated is not written: the writer aborts. -/
theorem storedAndRead_refused (hmethod : method ≠ .none) (hestimate : ¬ EstimateFits b) :
    ∃ p, storedAndRead codec lex method revision b = .error (.panic p) := by
  -- The estimate overflows, or it is more than `Vec::with_capacity` allocates.
  have hwrite : ∃ p, (do
      let estimatedSize ← b.estimateSize
      if isizeMax < estimatedSize then .panic .capacityOverflow
      else do
        let buffer ← b.write revision
        compressData codec method buffer : Result Bytes) = .error (.panic p) := by
    cases hsize : b.estimateSize with
    | error e =>
        cases e with
        | error e => exact absurd hsize (estimateSize_noFail b e)
        | panic p => exact ⟨p, rfl⟩
    | ok estimatedSize =>
        have hlarge : isizeMax < estimatedSize := by
          by_contra hle
          exact hestimate ⟨estimatedSize, hsize, Nat.not_lt.mp hle⟩
        exact ⟨.capacityOverflow, by rw [Outcome.ok_bind, if_pos hlarge]; rfl⟩
  obtain ⟨p, hwrite⟩ := hwrite
  refine ⟨p, ?_⟩
  have hrefused : write codec method revision b = .error (.panic p) := by
    cases method with
    | none => exact absurd rfl hmethod
    | lz4 => exact hwrite
    | zstd => exact hwrite
  rw [storedAndRead, hrefused]
  rfl

/-! ## Where compression is transparent -/

/-- Each column is written with its two names at least. -/
theorem length_le_of_writeColumns {rows : Nat} {columns : List (String × ChType)}
    {data : List Value} {bytes : Bytes}
    (h : Block.writeColumns revision rows columns data = .ok bytes) :
    columns.length ≤ bytes.length := by
  induction columns generalizing data bytes with
  | nil => exact Nat.zero_le _
  | cons column columns ih =>
      rw [Block.writeColumns] at h
      split at h
      · simp [Outcome.panic] at h
      · obtain ⟨body, -, h⟩ := Outcome.bind_eq_ok.mp h
        obtain ⟨rest, hrest, h⟩ := Outcome.bind_eq_ok.mp h
        obtain rfl := Except.ok.inj h
        have hle := ih hrest
        have hname : 0 < (writeVarUint (utf8Bytes column.1).length).length :=
          List.length_pos_iff.mpr (leb128_ne_nil 8 _)
        simp only [writeString, List.length_append, List.length_cons]
        omega

/-- Both readers make the same of a block without rows. -/
theorem decoded_zeroRows (hwrite : b.write revision = .ok raw)
    (hraw : raw.length ≤ maxDecompressedSize) (hrows : b.rows.toNat = 0) :
    Matching (fun block block' => block = block') (decoded lex .async revision raw)
      (decoded lex .sync revision raw) := by
  obtain ⟨columns, hcolumns, hbytes⟩ := Outcome.bind_eq_ok.mp hwrite
  obtain rfl := Except.ok.inj hbytes
  have hcount : b.columnTypes.length < 2 ^ 63 := by
    have hle := length_le_of_writeColumns hcolumns
    simp only [List.length_append, maxDecompressedSize] at hraw
    omega
  -- The counts are read alike; of the columns only names and types are there.
  have hread : ∀ m, Block.read lex m revision
      ((if 0 < revision then b.info.write else []) ++ (writeVarUint b.columnTypes.length ++
        (writeVarUint b.rows.toNat ++ columns))) =
      (do
        let out ← Block.readColumns lex m revision 0 b.columnTypes.length columns
        .ok (⟨Block.infoBack revision b.info, 0, out.1.1, out.1.2⟩, out.2)) := by
    intro m
    rw [Block.read, Reader.bind_apply, Block.info_reads, Outcome.ok_bind]
    dsimp only
    rw [Reader.bind_apply, readVarUint_reads m hcount, Outcome.ok_bind]
    dsimp only
    rw [Reader.bind_apply, readVarUint_reads m (by omega), Outcome.ok_bind, hrows]
    rfl
  have hsame := Block.zeroColumns_simulates lex revision b.columnTypes.length columns
  rw [decoded, decoded, hread, hread]
  revert hsame
  cases Block.readColumns lex .async revision 0 b.columnTypes.length columns with
  | ok x =>
      cases Block.readColumns lex .sync revision 0 b.columnTypes.length columns with
      | ok y =>
          rintro ⟨hxy, -⟩
          simp [Matching, hxy]
      | error e => cases e <;> simp [Matching]
  | error e =>
      cases Block.readColumns lex .sync revision 0 b.columnTypes.length columns with
      | ok y => cases e <;> simp [Matching]
      | error e' => cases e <;> cases e' <;> simp [Matching]

/-- A walk over the raw bytes ends as the reader of the mode does. -/
theorem ending_decoded (lex : Lexicon) (m : Mode) (revision : Nat) (raw : Bytes) :
    Outcome.ending (decoded lex m revision raw) =
      Outcome.ending (Block.scan lex m revision raw) := by
  have hmap : decoded lex m revision raw =
      (fun x => x.1.intoOption) <$> Block.read lex m revision raw := by
    rw [decoded]
    cases Block.read lex m revision raw with
    | ok x => rfl
    | error e => rfl
  rw [hmap, Outcome.ending_map]
  exact (Block.read_follows lex m revision raw).ending_eq

/-- What the synchronous reader makes of the bytes the asynchronous one does. -/
theorem decoded_extends {block : Option Block}
    (h : decoded lex .sync revision raw = .ok block) :
    decoded lex .async revision raw = .ok block := by
  obtain ⟨x, hx, hblock⟩ := Outcome.bind_eq_ok.mp h
  rw [decoded, Block.read_extends lex revision raw x hx]
  exact hblock

/-- Compression does not show: the walks of the two readers over the bytes of the block end
alike; or the buffer cannot be allocated, and the reader of the uncompressed bytes aborts
as well. -/
def Transparent (lex : Lexicon) (method : CompressionMethod) (revision : Nat) (b : Block)
    (raw : Bytes) : Prop :=
  method = .none ∨
    EstimateFits b ∧ Outcome.ending (Block.scan lex .async revision raw) =
      Outcome.ending (Block.scan lex .sync revision raw) ∨
    ¬ EstimateFits b ∧ Outcome.ending (Block.scan lex .async revision raw) = .aborted

/-- Compression does not show by the block alone: the buffer can be allocated, and the
synchronous reader takes the block back. -/
def Plain (lex : Lexicon) (method : CompressionMethod) (b : Block) : Prop :=
  method = .none ∨ EstimateFits b ∧ b.SyncReads lex

/-- The block that a reader of a block that it takes back returns. -/
theorem decoded_reads {m : Mode} (hfits : Block.Fits lex b)
    (hflag : Block.FlagAgrees revision b.rows.toNat b.columnTypes.length)
    (hmode : Block.Readable m b.rows.toNat b.columnTypes b.columnData)
    (hwrite : b.write revision = .ok raw) :
    decoded lex m revision raw = .ok (Block.intoOption
      { b with
        info := Block.infoBack revision b.info
        columnData := Block.dataBack b.rows.toNat b.columnTypes b.columnData }) := by
  obtain ⟨bytes, hbytes, hread⟩ := Block.read_reads hfits hflag hmode
  obtain rfl : bytes = raw := Except.ok.inj (hbytes.symm.trans hwrite)
  rw [decoded, hread.run]
  rfl

/-- The walks over a block that the synchronous reader takes back end alike. -/
theorem ending_of_syncReads (hsync : b.SyncReads lex) (hwrite : b.write revision = .ok raw)
    (hraw : raw.length ≤ maxDecompressedSize) :
    Outcome.ending (Block.scan lex .async revision raw) =
      Outcome.ending (Block.scan lex .sync revision raw) := by
  rw [← ending_decoded, ← ending_decoded]
  by_cases hzero : b.rows.toNat = 0
  · exact (decoded_zeroRows hwrite hraw hzero).ending_eq
  · obtain ⟨hfits, hreadable⟩ := hsync.resolve_left hzero
    have hflag : Block.FlagAgrees revision b.rows.toNat b.columnTypes.length :=
      .inl (Nat.pos_of_ne_zero hzero)
    rw [decoded_reads hfits hflag (Block.readable_async _ _ _) hwrite,
      decoded_reads hfits hflag hreadable hwrite]

/-- The walk of the asynchronous reader comes to the end of a block that fits. -/
theorem ending_async_of_fits (hfits : Block.Fits lex b)
    (hflag : Block.FlagAgrees revision b.rows.toNat b.columnTypes.length)
    (hwrite : b.write revision = .ok raw) :
    Outcome.ending (Block.scan lex .async revision raw) = .returned := by
  rw [← ending_decoded, decoded_reads hfits hflag (Block.readable_async _ _ _) hwrite]
  rfl

/-- Where the walk of the synchronous reader comes to the end of a block that fits, the reader
takes the block back. -/
theorem syncReads_of_ending (hfits : Block.Fits lex b) (hwrite : b.write revision = .ok raw)
    (hends : Outcome.ending (Block.scan lex .sync revision raw) = .returned) :
    b.SyncReads lex := by
  by_cases hzero : b.rows.toNat = 0
  · exact .inl hzero
  · refine .inr ⟨hfits, ?_⟩
    by_contra hunreadable
    -- A column that the reader does not take stops it, and the walk with it.
    obtain ⟨bytes, hbytes, hstuck⟩ :=
      Block.read_stuck revision hfits (Nat.pos_of_ne_zero hzero) hunreadable
    obtain rfl : bytes = raw := Except.ok.inj (hbytes.symm.trans hwrite)
    obtain ⟨x, hx⟩ : ∃ x, Block.read lex .sync revision bytes = .ok x := by
      rw [← Outcome.ending_eq_returned]
      exact (Block.read_follows lex .sync revision bytes).ending_eq.trans hends
    exact hstuck [] x (by rwa [List.append_nil])

/-- A plain block is transparent. -/
theorem Plain.transparent (hplain : Plain lex method b) (hwrite : b.write revision = .ok raw)
    (hraw : raw.length ≤ maxDecompressedSize) : Transparent lex method revision b raw := by
  obtain rfl | ⟨hestimate, hsync⟩ := hplain
  · exact .inl rfl
  · exact .inr (.inl ⟨hestimate, ending_of_syncReads hsync hwrite hraw⟩)

/-- Of the blocks that fit no other one is transparent. -/
theorem Transparent.plain (htransparent : Transparent lex method revision b raw)
    (hfits : Block.Fits lex b)
    (hflag : Block.FlagAgrees revision b.rows.toNat b.columnTypes.length)
    (hwrite : b.write revision = .ok raw) : Plain lex method b := by
  have hasync := ending_async_of_fits hfits hflag hwrite
  rcases htransparent with rfl | ⟨hestimate, halike⟩ | ⟨-, haborted⟩
  · exact .inl rfl
  · exact .inr ⟨hestimate, syncReads_of_ending hfits hwrite (halike.symm.trans hasync)⟩
  · rw [hasync] at haborted
    cases haborted

/-- **Compression is transparent** for exactly the blocks whose walks end alike, among all
that are written; a plain block is one of them, and a block that fits and whose flags are
read where they are written is one only if it is plain. -/
theorem sameResult_iff_transparent (lex : Lexicon) (hcodec : codec.Inverts)
    (hwrite : b.write revision = .ok raw)
    (hraw : raw.length ≤ maxDecompressedSize) (hcompress : method.compress codec raw = .ok payload)
    (hpayload : payload.length + 9 ≤ maxCompressedSize) :
    (SameResult codec lex method revision b ↔ Transparent lex method revision b raw) ∧
      (Plain lex method b → Transparent lex method revision b raw) ∧
      (Block.Fits lex b → Block.FlagAgrees revision b.rows.toNat b.columnTypes.length →
        Transparent lex method revision b raw → Plain lex method b) := by
  refine ⟨?_, fun hplain => hplain.transparent hwrite hraw,
    fun hfits hflag htransparent => htransparent.plain hfits hflag hwrite⟩
  by_cases hmethod : method = .none
  · subst hmethod
    exact iff_of_true (Matching.refl _) (.inl rfl)
  rw [SameResult, storedAndRead_none codec lex hwrite, Transparent, or_iff_right hmethod]
  by_cases hestimate : EstimateFits b
  · -- Both readers make a block of the same raw bytes.
    rw [storedAndRead_compressed lex hcodec hmethod hwrite hraw hcompress hpayload hestimate,
      matching_iff_ending_eq fun _ h => decoded_extends h, ending_decoded, ending_decoded]
    simp [hestimate]
  · -- The writer under compression aborts.
    obtain ⟨p, hrefused⟩ :
        ∃ p, storedAndRead codec lex method revision b = .error (.panic p) :=
      storedAndRead_refused hmethod hestimate
    have halike : Matching (fun block block' => block = block') (decoded lex .async revision raw)
        (Except.error (.panic p) : Result (Option Block)) ↔
          Outcome.ending (decoded lex .async revision raw) = .aborted :=
      matching_iff_ending_eq (fun _ h => absurd h (by simp))
    rw [hrefused, halike, ending_decoded]
    simp [hestimate]

/-- Strings with a null, stray bytes under a name that says `String`, and arrays. -/
theorem sameResult_iff_transparent_sample :
    SameResult .stored .ascii .lz4 54454 ⟨⟨true, -1⟩, 2,
      [("s", .nullable .string), ("b", .binary), ("a", .array .uint8)],
      [.null, .string [97], .string [], .string [98], .array [.uint8 7, .uint8 8], .array []]⟩ := by
  have hwrite : Block.write ⟨⟨true, -1⟩, 2,
      [("s", .nullable .string), ("b", .binary), ("a", .array .uint8)],
      [.null, .string [97], .string [], .string [98], .array [.uint8 7, .uint8 8], .array []]⟩
      54454 = .ok ([1, 1, 2, 255, 255, 255, 255, 0, 3, 2] ++
        ([1, 115, 16, 78, 117, 108, 108, 97, 98, 108, 101, 40, 83, 116, 114, 105, 110, 103, 41, 0,
          1, 0, 0, 1, 97] ++
        ([1, 98, 6, 83, 116, 114, 105, 110, 103, 0, 0, 1, 98] ++
          [1, 97, 12, 65, 114, 114, 97, 121, 40, 85, 73, 110, 116, 56, 41, 0,
          2, 0, 0, 0, 0, 0, 0, 0, 2, 0, 0, 0, 0, 0, 0, 0, 7, 8]))) := rfl
  have hiff : SameResult .stored .ascii .lz4 54454 _ ↔ Transparent .ascii .lz4 54454 _ _ :=
    (sameResult_iff_transparent .ascii Codec.inverts_stored hwrite (by decide) rfl (by decide)).1
  refine hiff.mpr (.inr (.inl ⟨⟨_, rfl, by decide⟩, ?_⟩))
  -- Both walks come to the end of the block.
  calc
    _ = Ending.returned := rfl
    _ = _ := rfl

/-- A dictionary is an error and an empty array inside an array is a panic, under
compression only. -/
theorem not_sameResult_samples :
    ¬ SameResult .stored .ascii .lz4 54454
        ⟨⟨true, -1⟩, 1, [("s", .lowCardinality .string)], [.string [97]]⟩ ∧
      ¬ SameResult .stored .ascii .lz4 54454
        ⟨⟨true, -1⟩, 1, [("a", .array (.array .uint8))], [.array []]⟩ := by
  constructor
  · intro h
    have hasync : storedAndRead .stored .ascii .none 54454
        ⟨⟨true, -1⟩, 1, [("s", .lowCardinality .string)], [.string [97]]⟩ =
          .ok (some ⟨⟨true, -1⟩, 1, [("s", .lowCardinality .string)], [.string [97]]⟩) := rfl
    have hsync : storedAndRead .stored .ascii .lz4 54454
        ⟨⟨true, -1⟩, 1, [("s", .lowCardinality .string)], [.string [97]]⟩ =
          .error (.error (.deserializeError
            [.text "LowCardinalityDeserializer sync not yet implemented"])) := rfl
    rw [SameResult, hasync, hsync] at h
    exact h
  · intro h
    have hasync : storedAndRead .stored .ascii .none 54454
        ⟨⟨true, -1⟩, 1, [("a", .array (.array .uint8))], [.array []]⟩ =
          .ok (some ⟨⟨true, -1⟩, 1, [("a", .array (.array .uint8))], [.array []]⟩) := rfl
    have hsync : storedAndRead .stored .ascii .lz4 54454
        ⟨⟨true, -1⟩, 1, [("a", .array (.array .uint8))], [.array []]⟩ =
          .error (.panic .subtractOverflow) := rfl
    rw [SameResult, hasync, hsync] at h
    exact h

end NativeFormat

end ClickhouseArrow
