import ClickhouseArrow.Formats.Compression

/-!
# Reading a frame from any bytes

The sizes of a frame come from the peer and are used before the checksum is compared.  The
reader refuses sizes that are too large; a size that does not even cover the nine bytes of
the header is let through, and the slice behind the header is out of range.  On any other
bytes the reader returns, and what it accepts is one frame whose checksum is that of its bytes.
-/

namespace ClickhouseArrow

open Wire

/-- The first 25 bytes of a frame: the checksum, the method and the sizes. -/
def frameHeader (checksumHigh checksumLow : UInt64) (method : CompressionMethod)
    (compressedSize decompressedSize : UInt32) : Bytes :=
  putLe checksumHigh ++ putLe checksumLow ++ putLe method.byte ++ putLe compressedSize ++
    putLe decompressedSize

/-- The number whose two halves stand in front of a frame. -/
def joinChecksum (checksumHigh checksumLow : UInt64) : BitVec 128 :=
  BitVec.ofNat 128 ((checksumHigh.toNat <<< 64) ||| checksumLow.toNat)

/-- A header that announces sizes within the limits, the first of them smaller than the part
of the header that it counts. -/
def UndersizedFrame (method : CompressionMethod) (bytes : Bytes) : Prop :=
  ∃ checksumHigh checksumLow compressedSize decompressedSize rest,
    bytes = frameHeader checksumHigh checksumLow method compressedSize decompressedSize ++ rest ∧
      compressedSize.toNat < 9 ∧ decompressedSize.toNat ≤ maxDecompressedSize

/-- The bytes are a checksum, as many bytes as the first size says, whose checksum it is, and
`rest`. -/
def CheckedFrame (codec : Codec) (method : CompressionMethod) (bytes rest : Bytes) : Prop :=
  ∃ checksumHigh checksumLow compressedSize decompressedSize payload,
    bytes = putLe checksumHigh ++ putLe checksumLow ++
        frameBody method compressedSize decompressedSize payload ++ rest ∧
      (frameBody method compressedSize decompressedSize payload).length = compressedSize.toNat ∧
      codec.cityhash (frameBody method compressedSize decompressedSize payload) =
        joinChecksum checksumHigh checksumLow

/-! ## The words of the header -/

section Words

variable {α β : Type} [Word α]

/-- A word is read where there are bytes for it; where there are not, the reader fails. -/
theorem getFrameWord_cases (hα : Full α) (part : String) (bytes : Bytes) :
    (∃ e, getFrameWord α part bytes = .error (.error e)) ∨
      ∃ (a : α) (rest : Bytes), bytes = putLe a ++ rest ∧
        getFrameWord α part bytes = .ok (a, rest) := by
  by_cases hshort : bytes.length < Word.width α
  · left
    refine ⟨eofInFrame part "unexpected end of file" (Word.width α) bytes.length, ?_⟩
    show (Reader.takeExact _ (Word.width α) bytes >>= _) = _
    rw [Reader.takeExact, if_pos hshort]
    rfl
  · right
    have hlength : (bytes.take (Word.width α)).length = Word.width α := by
      rw [List.length_take]
      omega
    have hword : putLe (Word.ofNat (ofLeBytes (bytes.take (Word.width α))) : α) =
        bytes.take (Word.width α) := by
      have hlt := ofLeBytes_lt (bytes.take (Word.width α))
      have hback := leBytes_ofLeBytes (bytes.take (Word.width α))
      rw [hlength] at hlt hback
      rw [putLe, hα _ hlt, hback]
    refine ⟨Word.ofNat (ofLeBytes (bytes.take (Word.width α))), bytes.drop (Word.width α), ?_, ?_⟩
    · rw [hword, List.take_append_drop]
    · show (Reader.takeExact _ (Word.width α) bytes >>= _) = _
      rw [Reader.takeExact, if_neg hshort]
      rfl

/-- What a reader does behind a word, on any bytes. -/
theorem getFrameWord_bind {P : Bytes → Outcome Error (β × Bytes) → Prop} (hα : Full α)
    (part : String) (f : α → Reader Error β) (hfail : ∀ bytes e, P bytes (.error (.error e)))
    (h : ∀ a rest, P (putLe a ++ rest) (f a rest)) (bytes : Bytes) :
    P bytes ((getFrameWord α part >>= f) bytes) := by
  rw [Reader.bind_apply]
  rcases getFrameWord_cases hα part bytes with ⟨e, he⟩ | ⟨a, rest, rfl, hread⟩
  · rw [he]
    exact hfail bytes e
  · rw [hread]
    exact h a rest

end Words

/-! ## The frame -/

section Frame

variable {codec : Codec} {method : CompressionMethod}

theorem decompress_noPanic (codec : Codec) (method : CompressionMethod) (payload : Bytes)
    (size : Nat) : (method.decompress codec payload size).NoPanic := by
  cases method with
  | none => exact .fail _
  | lz4 =>
      unfold CompressionMethod.decompress
      cases codec.lz4Decompress payload size with
      | ok raw => exact .ok raw
      | error e => exact .fail _
  | zstd =>
      unfold CompressionMethod.decompress
      cases codec.zstdDecompress payload size with
      | ok raw => exact .ok raw
      | error e => exact .fail _

/-- How the reader ends: with a frame whose checksum was compared, in a panic behind an
undersized header, with an error on any other bytes. -/
inductive FrameEnd (codec : Codec) (method : CompressionMethod) (bytes : Bytes) :
    Outcome Error (Bytes × Bytes) → Prop
  | accepted (raw rest : Bytes) (h : CheckedFrame codec method bytes rest) :
      FrameEnd codec method bytes (.ok (raw, rest))
  | refused (e : Error) : FrameEnd codec method bytes (.error (.error e))
  | panics (h : UndersizedFrame method bytes) :
      FrameEnd codec method bytes (.error (.panic .indexOutOfBounds))

theorem length_frameBody (method : CompressionMethod) (compressedSize decompressedSize : UInt32)
    (payload : Bytes) :
    (frameBody method compressedSize decompressedSize payload).length = payload.length + 9 := by
  simp only [frameBody, List.length_append, putLe_length]
  show 1 + (4 + (4 + payload.length)) = payload.length + 9
  omega

theorem decompressData_end (codec : Codec) (method : CompressionMethod) (bytes : Bytes) :
    FrameEnd codec method bytes (decompressData codec method bytes) := by
  refine getFrameWord_bind full_uint64 _ _ (fun _ e => .refused e) ?_ bytes
  intro checksumHigh bytes
  refine getFrameWord_bind (P := fun bs => FrameEnd codec method (putLe checksumHigh ++ bs))
    full_uint64 _ _ (fun _ e => .refused e) ?_ bytes
  intro checksumLow bytes
  refine getFrameWord_bind
    (P := fun bs => FrameEnd codec method (putLe checksumHigh ++ (putLe checksumLow ++ bs)))
    full_uint8 _ _ (fun _ e => .refused e) ?_ bytes
  intro typeByte bytes
  -- The header is there, field by field; what is checked next is the method, then the sizes.
  by_cases htype : typeByte = method.byte
  swap
  · rw [if_pos htype]
    exact .refused _
  subst htype
  rw [if_neg (not_not.mpr rfl)]
  refine getFrameWord_bind (P := fun bs => FrameEnd codec method
    (putLe checksumHigh ++ (putLe checksumLow ++ (putLe method.byte ++ bs))))
    full_uint32 _ _ (fun _ e => .refused e) ?_ bytes
  intro compressedSize bytes
  refine getFrameWord_bind (P := fun bs => FrameEnd codec method
    (putLe checksumHigh ++ (putLe checksumLow ++ (putLe method.byte ++
      (putLe compressedSize ++ bs)))))
    full_uint32 _ _ (fun _ e => .refused e) ?_ bytes
  intro decompressedSize bytes
  by_cases hlimits : maxCompressedSize < compressedSize.toNat ∨
      maxDecompressedSize < decompressedSize.toNat
  · rw [if_pos hlimits]
    exact .refused _
  rw [if_neg hlimits]
  -- The size counts nine bytes of the header, and the reader subtracts them.
  by_cases hsmall : compressedSize.toNat < 9
  · rw [if_pos hsmall]
    refine .panics ⟨checksumHigh, checksumLow, compressedSize, decompressedSize, bytes, ?_, hsmall, ?_⟩
    · simp only [frameHeader, List.append_assoc]
    · omega
  rw [if_neg hsmall, Reader.bind_apply, Reader.takeExact]
  by_cases hshort : bytes.length < compressedSize.toNat - 9
  · rw [if_pos hshort]
    exact .refused _
  rw [if_neg hshort, Outcome.ok_bind]
  dsimp only
  by_cases hchecksum : codec.cityhash (frameBody method compressedSize decompressedSize
      (bytes.take (compressedSize.toNat - 9))) = joinChecksum checksumHigh checksumLow
  swap
  · simp only [joinChecksum] at hchecksum
    rw [if_pos hchecksum]
    exact .refused _
  -- All checks have passed, and the payload is decompressed.
  have hframe : CheckedFrame codec method (putLe checksumHigh ++ (putLe checksumLow ++
      (putLe method.byte ++ (putLe compressedSize ++ (putLe decompressedSize ++ bytes)))))
      (bytes.drop (compressedSize.toNat - 9)) := by
    refine ⟨checksumHigh, checksumLow, compressedSize, decompressedSize,
      bytes.take (compressedSize.toNat - 9), ?_, ?_, hchecksum⟩
    · simp only [frameBody, List.append_assoc, List.take_append_drop]
    · rw [length_frameBody, List.length_take]
      omega
  simp only [joinChecksum] at hchecksum
  rw [if_neg (not_not.mpr hchecksum)]
  have hraw := decompress_noPanic codec method (bytes.take (compressedSize.toNat - 9))
    decompressedSize.toNat
  revert hraw
  cases method.decompress codec (bytes.take (compressedSize.toNat - 9)) decompressedSize.toNat with
  | ok raw => exact fun _ => .accepted raw _ hframe
  | error e =>
      cases e with
      | error e => exact fun _ => .refused e
      | panic p => exact fun hraw => absurd rfl (hraw p)

/-- A reader that is given an undersized frame panics. -/
theorem decompressData_undersized {bytes : Bytes} (h : UndersizedFrame method bytes) :
    decompressData codec method bytes = .error (.panic .indexOutOfBounds) := by
  obtain ⟨checksumHigh, checksumLow, compressedSize, decompressedSize, rest, rfl, hsmall, hsize⟩ := h
  have hlimits : ¬ (maxCompressedSize < compressedSize.toNat ∨
      maxDecompressedSize < decompressedSize.toNat) := by
    have hlarge : 9 ≤ maxCompressedSize := by decide
    omega
  simp only [frameHeader, List.append_assoc]
  refine ((Reads.getLe _ checksumHigh).bind_append _ _).trans ?_
  refine ((Reads.getLe _ checksumLow).bind_append _ _).trans ?_
  refine ((Reads.getLe _ method.byte).bind_append _ _).trans ?_
  rw [if_neg (not_not.mpr rfl)]
  refine ((Reads.getLe _ compressedSize).bind_append _ _).trans ?_
  refine ((Reads.getLe _ decompressedSize).bind_append _ _).trans ?_
  rw [if_neg hlimits, if_pos hsmall]
  rfl

/-- The reader returns, and what it accepts is a checked frame, all of which it consumed. -/
def DecompressesSafely (codec : Codec) (method : CompressionMethod) (bytes : Bytes) : Prop :=
  Outcome.NoPanic (decompressData codec method bytes) ∧
    ∀ raw rest, decompressData codec method bytes = .ok (raw, rest) →
      CheckedFrame codec method bytes rest

/-- **Reading a frame is safe** on all bytes but undersized frames. -/
theorem decompressesSafely_iff (codec : Codec) (method : CompressionMethod) (bytes : Bytes) :
    DecompressesSafely codec method bytes ↔ ¬ UndersizedFrame method bytes := by
  have hend := decompressData_end codec method bytes
  constructor
  · intro h hundersized
    exact h.1 _ (decompressData_undersized hundersized)
  · intro h
    unfold DecompressesSafely
    revert hend
    generalize decompressData codec method bytes = o
    intro hend
    cases hend with
    | accepted raw rest hframe =>
        refine ⟨.ok _, fun raw' rest' heq => ?_⟩
        cases heq
        exact hframe
    | refused e =>
        refine ⟨.fail e, fun raw rest heq => ?_⟩
        cases heq
    | panics hundersized => exact absurd hundersized h

/-- A header that announces eight bytes. -/
theorem not_decompressesSafely_eight :
    decompressData .stored .lz4 (frameHeader 0 0 .lz4 8 0) =
        .error (.panic .indexOutOfBounds) ∧
      ¬ DecompressesSafely .stored .lz4 (frameHeader 0 0 .lz4 8 0) := by
  have hpanic : decompressData .stored .lz4 (frameHeader 0 0 .lz4 8 0) =
      .error (.panic .indexOutOfBounds) := by
    rfl
  exact ⟨hpanic, fun h => h.1 _ hpanic⟩

end Frame

end ClickhouseArrow
