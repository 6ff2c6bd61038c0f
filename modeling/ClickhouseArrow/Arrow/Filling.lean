import ClickhouseArrow.Wire.Kept
import ClickhouseArrow.Arrow.DeserializeSync

/-!
# What a decoder does to its builder

A decoder appends the rows that it reads to the builder it is given and finishes the builder at
the end.  When it fails on the way, the rows stay in the builder, and the next column would begin
behind them.  The module embeds the decoders once more, over builders with rows in them, and shows
that from empty builders they read what the decoders without a state read, and leave the builders
empty where they succeed.

The row buffer is written before it is read, so that its contents do not matter.
-/

namespace ClickhouseArrow

open Wire

namespace Arrow

/-! ## Builders with rows -/

namespace TypedBuilder

/-- The rows in a builder.  Lists, maps and tuples have none but those of their items. -/
def Rows : TypedBuilder → Type
  | .int8 => List (Option Int8)
  | .int16 => List (Option Int16)
  | .int32 | .date | .date32 => List (Option Int32)
  | .int64 | .dateTime _ | .dateTimeS _ | .dateTimeMs _ | .dateTimeMu _ | .dateTimeNano _ =>
      List (Option Int64)
  | .uint8 => List (Option UInt8)
  | .uint16 => List (Option UInt16)
  | .uint32 | .float32 => List (Option UInt32)
  | .uint64 | .float64 => List (Option UInt64)
  | .decimal32 _ | .decimal64 _ | .decimal128 _ => List (Option (BitVec 128))
  | .decimal256 _ => List (Option (Octets 32))
  | .string | .object | .binary | .fixedSizeBinary _ => List (Option Bytes)
  -- The labels met so far, and the key of every row.
  | .enum8 | .enum16 => List Bytes × List (Option Nat)
  | .list _ item => item.Rows
  | .lowCardinality _ value => List (Option Int) × value.Rows
  | .map key value => key.Rows × value.Rows
  | .tuple builders => rowsOfEach builders
where
  rowsOfEach : List TypedBuilder → Type
    | [] => Unit
    | b :: bs => b.Rows × rowsOfEach bs

/-- The rows of a new builder. -/
def empty : (b : TypedBuilder) → b.Rows
  | .int8 | .int16 | .int32 | .date | .date32 => []
  | .int64 | .dateTime _ | .dateTimeS _ | .dateTimeMs _ | .dateTimeMu _ | .dateTimeNano _ => []
  | .uint8 | .uint16 | .uint32 | .float32 | .uint64 | .float64 => []
  | .decimal32 _ | .decimal64 _ | .decimal128 _ | .decimal256 _ => []
  | .string | .object | .binary | .fixedSizeBinary _ => []
  | .enum8 | .enum16 => ([], [])
  | .list _ item => item.empty
  | .lowCardinality _ value => ([], value.empty)
  | .map key value => (key.empty, value.empty)
  | .tuple builders => emptyOfEach builders
where
  emptyOfEach : (bs : List TypedBuilder) → Rows.rowsOfEach bs
    | [] => ()
    | b :: bs => (b.empty, emptyOfEach bs)

end TypedBuilder

/-- What a decoder works on: the rows of its builder, and the row buffer. -/
structure Filling (ρ : Type) where
  rows : ρ
  buffer : Bytes

/-- A reader that fills a builder. -/
abbrev Fill (ρ α : Type) := StateReader (Filling ρ) ArrowError α

/-- The builder holds these rows. -/
def Holds {ρ : Type} (rows : ρ) (s : Filling ρ) : Prop := s.rows = rows

section Steps

variable {ρ κ τ α β : Type}

/-! ## The row buffer -/

/-- `resize`. -/
def resize (n : Nat) (buffer : Bytes) : Bytes :=
  buffer.take n ++ List.replicate (n - buffer.length) 0

/-- The slice that a read has failed to fill: `read_exact` puts there what there is,
`try_copy_to_slice` looks first. -/
def halfFilled (m : Mode) (available slice : Bytes) : Bytes :=
  match m with
  | .async => available ++ slice.drop available.length
  | .sync => slice

/-- `primitive_bulk!`, up to the cast. -/
def fillBuffer (m : Mode) (n : Nat) : Fill ρ Unit := fun bs s =>
  if isizeMax < n then (.error (.panic .capacityOverflow), s)
  else if bs.length < n then
    (.error (.error (eof m n bs.length)), { s with buffer := halfFilled m bs (resize n s.buffer) })
  else (.ok ((), bs.drop n), { s with buffer := bs.take n })

/-- `primitive_bulk!`. -/
def bulkValues (m : Mode) (α : Type) [Word α] (rows : Nat) : Fill ρ (List α) := do
  fillBuffer m (rows * Word.width α)
  let s ← StateReader.get
  pure ((castSlice (Word.width α) rows s.buffer).map (ofLe α))

/-- `bulk_offsets!`. -/
def Lists.fillOffsets (m : Mode) (rows : Nat) : Fill ρ (List UInt64) := fun bs s =>
  let zero : Bytes := List.replicate 8 0
  if isizeMax < 8 + rows * 8 then (.error (.panic .capacityOverflow), s)
  else if bs.length < rows * 8 then
    (.error (.error (eof m (rows * 8) bs.length)),
      { s with buffer := zero ++ halfFilled m bs (List.replicate (rows * 8) 0) })
  else
    (.ok (0 :: (castSlice 8 rows (bs.take (rows * 8))).map (ofLe UInt64), bs.drop (rows * 8)),
      { s with buffer := zero ++ bs.take (rows * 8) })

/-! ## Appending and finishing -/

/-- `append_value` or `append_null`. -/
def push (row : β) : Fill (List β) Unit :=
  StateReader.modify fun s => { s with rows := s.rows ++ [row] }

/-- `finish`, which empties the builder. -/
def finish (empty : ρ) (make : ρ → α) : Fill ρ α := do
  let s ← StateReader.get
  StateReader.modify fun s => { s with rows := empty }
  pure (make s.rows)

/-- The loop of `deser_bulk!` over the values. -/
def appendMasked (cast : α → β) (nulls : Bytes) : Nat → List α → Fill (List (Option β)) Unit
  | _, [] => pure ()
  | row, value :: values => do
      let valid ← StateReader.lift (Reader.ofOutcome (isValid nulls row))
      push (if valid then some (cast value) else none)
      appendMasked cast nulls (row + 1) values

/-- `deser_bulk!`. -/
def deserBulkInto (m : Mode) (α : Type) [Word α] (cast : α → β) (rows : Nat) (nulls : Bytes) :
    Fill (List (Option β)) Unit :=
  if rows = 0 then pure ()
  else do
    let values ← bulkValues m α rows
    appendMasked cast nulls 0 values

/-- `opt_value!` for every row from the given one on. -/
def optValuesInto (nulls : Bytes) (read : Reader ArrowError α) (append : α → ArrowResult β) :
    Nat → Nat → Fill (List (Option β)) Unit
  | _, 0 => pure ()
  | row, n + 1 => do
      let valid ← StateReader.lift (Reader.ofOutcome (isValid nulls row))
      let value ← StateReader.lift read
      let entry ← StateReader.lift (Reader.ofOutcome (appendRow append valid value))
      push entry
      optValuesInto nulls read append (row + 1) n

/-- The rows of an enum column from the given one on. -/
def enumRowsInto [Word α] [DecidableEq α] (m : Mode) (notFound : α → ArrowError) (maxKey : Nat)
    (pairs : List (String × α)) (nulls : Bytes) :
    Nat → Nat → Fill (List Bytes × List (Option Nat)) Unit
  | _, 0 => pure ()
  | row, n + 1 => do
      let idx ← StateReader.lift (getLe α (eof m))
      let valid ← StateReader.lift (Reader.ofOutcome (isValid nulls row))
      if valid then
        match pairs.find? fun pair => pair.2 = idx with
        | none => StateReader.fail (notFound idx)
        | some pair => do
            let s ← StateReader.get
            let entry ← StateReader.lift
              (Reader.ofOutcome (appendLabel maxKey s.rows.1 (utf8Bytes pair.1)))
            StateReader.modify fun s => { s with rows := (entry.1, s.rows.2 ++ [some entry.2]) }
            enumRowsInto m notFound maxKey pairs nulls (row + 1) n
      else do
        StateReader.modify fun s => { s with rows := (s.rows.1, s.rows.2 ++ [none]) }
        enumRowsInto m notFound maxKey pairs nulls (row + 1) n

/-- Fill the first of two builders. -/
def onFst (p : Fill κ α) : Fill (κ × τ) α :=
  StateReader.zoom (fun s => ⟨s.rows.1, s.buffer⟩) (fun t s => ⟨(t.rows, s.rows.2), t.buffer⟩) p

/-- Fill the second of two builders. -/
def onSnd (p : Fill τ α) : Fill (κ × τ) α :=
  StateReader.zoom (fun s => ⟨s.rows.2, s.buffer⟩) (fun t s => ⟨(s.rows.1, t.rows), t.buffer⟩) p

/-! ## What the steps do -/

theorem fillBuffer_tracks (m : Mode) (n : Nat) (rows : ρ) :
    Tracks (Holds rows) (fillBuffer m n) (readBuffer m n)
      fun _ bytes s => Holds rows s ∧ s.buffer = bytes := by
  intro bs s hs
  rw [readBuffer, fillBuffer]
  by_cases hmax : isizeMax < n
  · rw [if_pos hmax, if_pos hmax]
    refine ⟨fun e he => ?_, fun b rest hb => (by cases hb)⟩
    obtain rfl := Except.error.inj he
    rfl
  · rw [if_neg hmax, if_neg hmax, Reader.takeExact]
    by_cases hshort : bs.length < n
    · rw [if_pos hshort, if_pos hshort]
      refine ⟨fun e he => ?_, fun b rest hb => (by cases hb)⟩
      obtain rfl := Except.error.inj he
      rfl
    · rw [if_neg hshort, if_neg hshort]
      refine ⟨fun e he => (by cases he), fun b rest hb => ?_⟩
      obtain ⟨rfl, rfl⟩ := Prod.mk.inj (Except.ok.inj hb)
      exact ⟨(), _, rfl, hs, rfl⟩

theorem bulkValues_restores (m : Mode) (α : Type) [Word α] (n : Nat) (rows : ρ) :
    Restores (Holds rows) (bulkValues m α n) (readBulk m α n) := by
  refine (fillBuffer_tracks m (n * Word.width α) rows).bind fun _ bytes => ?_
  apply Tracks.get_bind
  rintro s ⟨hs, rfl⟩
  apply Tracks.pure
  rintro s' rfl
  exact ⟨rfl, hs⟩

theorem fillOffsets_restores (m : Mode) (n : Nat) (rows : ρ) :
    Restores (Holds rows) (Lists.fillOffsets m n) (Lists.bulkOffsets m n) := by
  intro bs s hs
  rw [Lists.bulkOffsets, Lists.fillOffsets]
  by_cases hmax : isizeMax < 8 + n * 8
  · rw [if_pos hmax, if_pos hmax]
    refine ⟨fun e he => ?_, fun b rest hb => (by cases hb)⟩
    obtain rfl := Except.error.inj he
    rfl
  · rw [if_neg hmax, if_neg hmax, Reader.bind_apply, Reader.takeExact]
    by_cases hshort : bs.length < n * 8
    · rw [if_pos hshort, if_pos hshort]
      refine ⟨fun e he => ?_, fun b rest hb => (by cases hb)⟩
      obtain rfl := Except.error.inj he
      rfl
    · rw [if_neg hshort, if_neg hshort]
      refine ⟨fun e he => (by cases he), fun b rest hb => ?_⟩
      obtain ⟨rfl, rfl⟩ := Prod.mk.inj (Except.ok.inj hb)
      exact ⟨_, _, rfl, rfl, hs⟩

theorem finish_tracks (empty rows : ρ) (make : ρ → α) :
    Tracks (Holds rows) (finish empty make) (pure (make rows))
      fun a b s => a = b ∧ Holds empty s := by
  apply Tracks.get_bind
  intro s hs
  apply Tracks.modify_bind (Holds empty)
  · intro _ _
    rfl
  · apply Tracks.pure
    intro s' hs'
    exact ⟨congrArg make hs, hs'⟩

/-- A decoder that fills an empty builder and finishes it. -/
theorem restores_finish {p : Fill ρ Unit} {q : Reader ArrowError β} {empty : ρ} {rows : β → ρ}
    (h : Tracks (Holds empty) p q fun _ b s => Holds (rows b) s) (make : ρ → α) :
    Restores (Holds empty) (do p; finish empty make) (do let b ← q; pure (make (rows b))) :=
  h.bind fun _ b => finish_tracks empty (rows b) make

theorem push_bind {γ δ : Type} {rows : List β} {row : β} {k : Unit → Fill (List β) γ}
    {q : Reader ArrowError δ} {Q : γ → δ → Filling (List β) → Prop}
    (hk : Tracks (Holds (rows ++ [row])) (k ()) q Q) : Tracks (Holds rows) (push row >>= k) q Q := by
  apply Tracks.modify_bind (Holds (rows ++ [row]))
  · intro s hs
    show s.rows ++ [row] = rows ++ [row]
    rw [hs]
  · exact hk

theorem ofOutcome_bind (o : ArrowResult α) (f : α → ArrowResult β) :
    (Reader.ofOutcome (o >>= f) : Reader ArrowError β) =
      Reader.ofOutcome o >>= fun a => Reader.ofOutcome (f a) := by
  cases o <;> rfl

theorem appendMasked_tracks (cast : α → β) (nulls : Bytes) (values : List α) (row : Nat)
    (rows : List (Option β)) :
    Tracks (Holds rows) (appendMasked cast nulls row values)
      (Reader.ofOutcome (maskFrom nulls row values))
      fun _ entries s => Holds (rows ++ entries.map (Option.map cast)) s := by
  induction values generalizing row rows with
  | nil =>
      apply Tracks.pure
      intro s hs
      rw [List.map_nil, List.append_nil]
      exact hs
  | cons value values ih =>
      rw [maskFrom, ofOutcome_bind, appendMasked]
      apply Tracks.bind_eq (Restores.lift _)
      intro valid
      rw [ofOutcome_bind]
      refine push_bind ((ih (row + 1) (rows ++ [_])).bind_pure fun _ entries s hs => ?_)
      cases valid <;> simpa using hs

theorem deserBulkInto_tracks (m : Mode) (α : Type) [Word α] (cast : α → β) (n : Nat)
    (nulls : Bytes) (rows : List (Option β)) :
    Tracks (Holds rows) (deserBulkInto m α cast n nulls) (deserBulk m α n nulls)
      fun _ entries s => Holds (rows ++ entries.map (Option.map cast)) s := by
  apply Tracks.ite
  · intro _
    apply Tracks.pure
    intro s hs
    rw [List.map_nil, List.append_nil]
    exact hs
  · intro _
    apply Tracks.bind_eq (bulkValues_restores m α n rows)
    intro values
    exact appendMasked_tracks cast nulls values 0 rows

theorem optValuesInto_tracks (nulls : Bytes) (read : Reader ArrowError α)
    (append : α → ArrowResult β) (row n : Nat) (rows : List (Option β)) :
    Tracks (Holds rows) (optValuesInto nulls read append row n) (optValues nulls read append row n)
      fun _ entries s => Holds (rows ++ entries) s := by
  induction n generalizing row rows with
  | zero =>
      apply Tracks.pure
      intro s hs
      rw [List.append_nil]
      exact hs
  | succ n ih =>
      rw [optValues, optValuesInto]
      apply Tracks.bind_eq (Restores.lift _)
      intro valid
      apply Tracks.bind_eq (Restores.lift _)
      intro value
      apply Tracks.bind_eq (Restores.lift _)
      intro entry
      refine push_bind ((ih (row + 1) (rows ++ [entry])).bind_pure fun _ entries s hs => ?_)
      rwa [List.append_assoc, List.singleton_append] at hs

theorem enumRowsInto_tracks [Word α] [DecidableEq α] (m : Mode) (notFound : α → ArrowError)
    (maxKey : Nat) (pairs : List (String × α)) (nulls : Bytes) (row n : Nat) (labels : List Bytes)
    (keys : List (Option Nat)) :
    Tracks (Holds (labels, keys)) (enumRowsInto m notFound maxKey pairs nulls row n)
      (enumRows m notFound maxKey pairs nulls labels row n)
      fun _ rows s => Holds (rows.1, keys ++ rows.2) s := by
  induction n generalizing row labels keys with
  | zero =>
      apply Tracks.pure
      intro s hs
      rw [List.append_nil]
      exact hs
  | succ n ih =>
      rw [enumRows, enumRowsInto]
      apply Tracks.bind_eq (Restores.lift _)
      intro idx
      apply Tracks.bind_eq (Restores.lift _)
      intro valid
      apply Tracks.ite
      · intro _
        cases pairs.find? fun pair => pair.2 = idx with
        | none => exact Tracks.fail _ _
        | some pair =>
            -- The label is looked up in the table that the rows before have left.
            apply Tracks.get_bind
            intro s hs
            show Tracks _ (StateReader.lift (Reader.ofOutcome
              (appendLabel maxKey s.rows.1 (utf8Bytes pair.1))) >>= _) _ _
            rw [show s.rows = (labels, keys) from hs]
            apply Tracks.bind_eq (Restores.lift _)
            intro entry
            apply Tracks.modify_bind (Holds (entry.1, keys ++ [some entry.2]))
            · rintro s' rfl
              show (entry.1, s'.rows.2 ++ [some entry.2]) = _
              rw [show s'.rows = (labels, keys) from hs]
            · refine (ih (row + 1) entry.1 (keys ++ [some entry.2])).bind_pure
                fun _ rows s' hs' => ?_
              rwa [List.append_assoc, List.singleton_append] at hs'
      · intro _
        apply Tracks.modify_bind (Holds (labels, keys ++ [none]))
        · intro s hs
          show (s.rows.1, s.rows.2 ++ [none]) = _
          rw [show s.rows = (labels, keys) from hs]
        · refine (ih (row + 1) labels (keys ++ [none])).bind_pure fun _ rows s hs => ?_
          rwa [List.append_assoc, List.singleton_append] at hs

/-- The second builder keeps its rows. -/
theorem onFst_restores {p : Fill κ α} {q : Reader ArrowError α} {a : κ} (b : τ)
    (h : Restores (Holds a) p q) : Restores (Holds (a, b)) (onFst p) q := by
  apply h.zoom
  · intro s hs
    show s.rows.1 = a
    rw [show s.rows = (a, b) from hs]
  · rintro x y s t hs ⟨hxy, ht⟩
    refine ⟨hxy, ?_⟩
    show (t.rows, s.rows.2) = (a, b)
    rw [show s.rows = (a, b) from hs, show t.rows = a from ht]

theorem onSnd_restores {p : Fill τ α} {q : Reader ArrowError α} (a : κ) {b : τ}
    (h : Restores (Holds b) p q) : Restores (Holds (a, b)) (onSnd p) q := by
  apply h.zoom
  · intro s hs
    show s.rows.2 = b
    rw [show s.rows = (a, b) from hs]
  · rintro x y s t hs ⟨hxy, ht⟩
    refine ⟨hxy, ?_⟩
    show (s.rows.1, t.rows) = (a, b)
    rw [show s.rows = (a, b) from hs, show t.rows = b from ht]

end Steps

end Arrow

end ClickhouseArrow
