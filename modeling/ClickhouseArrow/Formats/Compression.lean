import ClickhouseArrow.Native.Io

/-!
# Compressed frames

`compress_data_sync` and `decompress_data_async`: data crosses the wire in frames, each
with a checksum, a method byte, two sizes and a payload.  The compressors and the hash
are libraries; `Codec` is what the crate takes from them.
-/

namespace ClickhouseArrow

open Wire

/-- The compressors and the hash.  A decompressor is given the size that it has to
restore; its errors are texts. -/
structure Codec where
  lz4Compress : Bytes → Bytes
  lz4Decompress : Bytes → Nat → Except String Bytes
  zstdCompress : Bytes → Except String Bytes
  zstdDecompress : Bytes → Nat → Except String Bytes
  cityhash : Bytes → BitVec 128

/-- The codec that stores the data as they are. -/
def Codec.stored : Codec where
  lz4Compress raw := raw
  lz4Decompress payload _ := .ok payload
  zstdCompress raw := .ok raw
  zstdDecompress payload _ := .ok payload
  cityhash _ := 0

inductive CompressionMethod
  | none
  | lz4
  | zstd
  deriving DecidableEq

namespace CompressionMethod

def byte : CompressionMethod → UInt8
  | .none => 0x02
  | .lz4 => 0x82
  | .zstd => 0x90

/-- `Display`. -/
def name : CompressionMethod → String
  | .none => "None"
  | .lz4 => "LZ4"
  | .zstd => "ZSTD"

/-- The payload of a frame. -/
def compress (codec : Codec) (raw : Bytes) : CompressionMethod → Result Bytes
  | .none => .ok []
  | .lz4 => .ok (codec.lz4Compress raw)
  | .zstd =>
      match codec.zstdCompress raw with
      | .ok out => .ok out
      | .error e => .fail (.serializeError [.text "ZSTD compress error: ", .text e])

def decompress (codec : Codec) (payload : Bytes) (size : Nat) : CompressionMethod → Result Bytes
  | .none => .fail (.deserializeError [.text "Attempted to decompress uncompressed data"])
  | .lz4 =>
      match codec.lz4Decompress payload size with
      | .ok raw => .ok raw
      | .error e => .fail (.deserializeError [.text "LZ4 decompress error: ", .text e])
  | .zstd =>
      match codec.zstdDecompress payload size with
      | .ok raw => .ok raw
      | .error e => .fail (.deserializeError [.text "ZSTD decompress error: ", .text e])

end CompressionMethod

/-- The part of a frame that the checksum covers. -/
def frameBody (method : CompressionMethod) (compressedSize decompressedSize : UInt32)
    (payload : Bytes) : Bytes :=
  putLe method.byte ++ (putLe compressedSize ++ (putLe decompressedSize ++ payload))

/-- The two halves of a checksum, the high one first. -/
def putChecksum (hash : BitVec 128) : Bytes :=
  putLe (UInt64.ofNat (hash.toNat >>> 64)) ++ putLe (UInt64.ofNat hash.toNat)

/-- `compress_data_sync`. -/
def compressData (codec : Codec) (method : CompressionMethod) (raw : Bytes) : Result Bytes :=
  match method with
  | .none => .ok []
  | method => do
      let out ← method.compress codec raw
      -- The sizes are cut to 32 bits, and nine is added to the first.
      if 2 ^ 32 ≤ out.length % 2 ^ 32 + 9 then .panic .addOverflow
      else
        let body := frameBody method (UInt32.ofNat out.length + 9) (UInt32.ofNat raw.length) out
        .ok (putChecksum (codec.cityhash body) ++ body)

/-- The end of the input in a part of a frame. -/
def eofInFrame (part : String) (e : String) (_ _ : Nat) : Error :=
  .protocol [.text "Failed to read ", .text part, .text ": ", .text e]

/-- A word of a frame. -/
def getFrameWord (α : Type) [Word α] (part : String) : Reader Error α :=
  getLe α (eofInFrame part "unexpected end of file")

def maxCompressedSize : Nat := 100000000

def maxDecompressedSize : Nat := 1000000000

/-- `decompress_data_async`: exactly one frame. -/
def decompressData (codec : Codec) (method : CompressionMethod) : Reader Error Bytes := do
  let checksumHigh ← getFrameWord UInt64 "checksum high"
  let checksumLow ← getFrameWord UInt64 "checksum low"
  let typeByte ← getFrameWord UInt8 "compression type"
  if typeByte ≠ method.byte then
    Reader.fail (.protocol [.text "Unexpected compression algorithm for ", .text method.name,
      .text ": ", .hex 2 typeByte.toNat])
  else do
    let compressedSize ← getFrameWord UInt32 "compressed size"
    let decompressedSize ← getFrameWord UInt32 "decompressed size"
    if maxCompressedSize < compressedSize.toNat ∨ maxDecompressedSize < decompressedSize.toNat then
      Reader.fail (.protocol [.text "Chunk size too large"])
    else if compressedSize.toNat < 9 then Reader.panic .indexOutOfBounds
    else do
      let payload ← Reader.takeExact (eofInFrame "compressed payload" "early eof")
        (compressedSize.toNat - 9)
      let checksum : BitVec 128 := BitVec.ofNat 128
        ((checksumHigh.toNat <<< 64) ||| checksumLow.toNat)
      let calculated := codec.cityhash (frameBody method compressedSize decompressedSize payload)
      if calculated ≠ checksum then
        Reader.fail (.protocol [.text "Checksum mismatch: expected ", .hex 32 checksum.toNat,
          .text ", got ", .hex 32 calculated.toNat])
      else Reader.ofOutcome (method.decompress codec payload decompressedSize.toNat)

/-! ## Valid frames -/

/-- A frame that is valid on its own: its sizes are those of its payload and its data, in
the limits of the reader, and its payload decompresses to its data. -/
structure Frame (codec : Codec) (method : CompressionMethod) where
  payload : Bytes
  raw : Bytes
  payload_le : payload.length + 9 ≤ maxCompressedSize
  raw_le : raw.length ≤ maxDecompressedSize
  decompress_eq : method.decompress codec payload raw.length = .ok raw

namespace Frame

variable {codec : Codec} {method : CompressionMethod}

def body (frame : Frame codec method) : Bytes :=
  frameBody method (UInt32.ofNat (frame.payload.length + 9)) (UInt32.ofNat frame.raw.length)
    frame.payload

/-- The bytes of the frame. -/
def bytes (frame : Frame codec method) : Bytes :=
  putChecksum (codec.cityhash frame.body) ++ frame.body

theorem bytes_ne_nil (frame : Frame codec method) : frame.bytes ≠ [] := by
  intro h
  have hlength := congrArg List.length h
  simp [bytes, putChecksum, Word.width] at hlength

/-- One frame is read back as its data. -/
theorem reads (frame : Frame codec method) :
    Reads (decompressData codec method) frame.bytes frame.raw := by
  have hpayload := frame.payload_le
  have hraw := frame.raw_le
  have hcompressed : (UInt32.ofNat (frame.payload.length + 9)).toNat = frame.payload.length + 9 := by
    rw [UInt32.toNat_ofNat']
    simp only [maxCompressedSize] at hpayload
    omega
  have hdecompressed : (UInt32.ofNat frame.raw.length).toNat = frame.raw.length := by
    rw [UInt32.toNat_ofNat']
    simp only [maxDecompressedSize] at hraw
    omega
  have hbytes : frame.bytes =
      putLe (UInt64.ofNat ((codec.cityhash frame.body).toNat >>> 64)) ++
        (putLe (UInt64.ofNat (codec.cityhash frame.body).toNat) ++
          (putLe method.byte ++ (putLe (UInt32.ofNat (frame.payload.length + 9)) ++
            (putLe (UInt32.ofNat frame.raw.length) ++ frame.payload)))) := by
    simp only [bytes, putChecksum, List.append_assoc]
    rfl
  rw [hbytes]
  refine (Reads.getLe _ _).bind ((Reads.getLe _ _).bind ((Reads.getLe _ _).bind ?_))
  rw [if_neg (by simp)]
  refine (Reads.getLe _ _).bind ((Reads.getLe _ _).bind ?_)
  rw [hcompressed, hdecompressed, if_neg (by omega), if_neg (by omega), Nat.add_sub_cancel]
  refine (Reads.takeExact _ frame.payload).bind_nil ?_
  have hchecksum : codec.cityhash (frameBody method (UInt32.ofNat (frame.payload.length + 9))
      (UInt32.ofNat frame.raw.length) frame.payload) =
        BitVec.ofNat 128 (((UInt64.ofNat ((codec.cityhash frame.body).toNat >>> 64)).toNat <<< 64) |||
          (UInt64.ofNat (codec.cityhash frame.body).toNat).toNat) :=
    (halves128 _).symm
  rw [if_neg (by simpa using hchecksum)]
  exact Reads.ofOutcome frame.decompress_eq

end Frame

end ClickhouseArrow
