import ClickhouseArrow.Arrow.DecodedType

/-!
# What the macros read

The macros that fill a builder take the values of a column from the stream, one for every row,
and leave out those that the mask covers.  What they read of the bytes of given values is said
once here, for any type of values, and what the finished array shows of its rows.
-/

namespace ClickhouseArrow

open Wire

namespace Arrow

/-! ## Both decoders -/

/-- The decoder of one of the modes. -/
def deserializeBy (json : Bytes → Bytes) : Mode → ChType → Decode
  | .async => deserializeArrowAsync json
  | .sync => deserializeArrow json

/-- With the builder of a type and a data type, both decoders return the same. -/
theorem deserializeBy_eq_ok {json : Bytes → Bytes} (m : Mode) {t : ChType} {d d' : DataType}
    {builder : TypedBuilder} (hb : TypedBuilder.tryNew t d' = .ok builder) {rows : Nat}
    {nulls bytes : Bytes} {x : ArrowArray × Bytes} :
    deserializeBy json m t builder d rows nulls bytes = .ok x ↔
      deserializeArrowAsync json t builder d rows nulls bytes = .ok x := by
  cases m with
  | async => rfl
  | sync => exact (deserializeArrow_agree json (fits_of_tryNewOf hb) d rows nulls).eq_ok_iff

/-- The serializer of one of the modes. -/
def serializeBy : Mode → ChType → ArrowArray → DataType → ArrowResult Bytes
  | .async => serializeAsync
  | .sync => serialize

theorem serializeBy_eq (m : Mode) (t : ChType) (column : ArrowArray) (d : DataType) :
    serializeBy m t column d = serializeAsync t column d := by
  cases m with
  | async => rfl
  | sync => exact serialize_eq t column d

/-- The bytes of a column of so many rows are read, with the announced data type and its
builder, into an array that is written as the same bytes. -/
def WritesBack (t : ChType) (rows : Nat) (bytes : Bytes) : Prop :=
  ∀ (json : Bytes → Bytes) (m m' : Mode) (options : Option ArrowOptions) (d : DataType)
    (nullable : Bool) (builder : TypedBuilder) (rest : Bytes),
    chToArrowType t options = .ok (d, nullable) → TypedBuilder.tryNew t d = .ok builder →
    ∃ array, deserializeBy json m t builder d rows [] (bytes ++ rest) = .ok (array, rest) ∧
      serializeBy m' t array d = .ok bytes

/-! ## Rows under a mask -/

/-- The mask is left out, or has a byte for every row. -/
def Covers (nulls : Bytes) (rows : Nat) : Prop := nulls = [] ∨ nulls.length = rows

/-- Which of the rows a mask leaves. -/
def validities (nulls : Bytes) (rows : Nat) : List Bool :=
  if nulls.isEmpty then List.replicate rows true else nulls.map (· == 0)

/-- The values of the rows that are left. -/
def keep {α : Type} (valids : List Bool) (values : List α) : List (Option α) :=
  List.zipWith (fun valid value => if valid then some value else none) valids values

/-- The values that the mask leaves. -/
def masked {α : Type} (nulls : Bytes) (values : List α) : List (Option α) :=
  keep (validities nulls values.length) values

@[simp] theorem masked_nil {α : Type} (values : List α) : masked [] values = values.map some := by
  show keep (List.replicate values.length true) values = _
  induction values with
  | nil => rfl
  | cons value values ih =>
      rw [List.map_cons, ← ih]
      rfl

theorem keep_map {α β : Type} (f : α → β) (valids : List Bool) (values : List α) :
    keep valids (values.map f) = (keep valids values).map (Option.map f) := by
  unfold keep
  rw [List.zipWith_map_right, List.map_zipWith]
  congr 1
  funext valid value
  cases valid <;> rfl

theorem isSome_keep {α : Type} {valids : List Bool} {values : List α}
    (hlength : valids.length = values.length) :
    (keep valids values).map Option.isSome = valids := by
  induction values generalizing valids with
  | nil =>
      obtain rfl := List.length_eq_zero_iff.mp hlength
      rfl
  | cons value values ih =>
      match valids, hlength with
      | valid :: valids, hlength =>
        show Option.isSome (if valid then some value else none) ::
          (keep valids values).map Option.isSome = _
        rw [ih (Nat.succ.inj hlength)]
        cases valid <;> rfl

theorem masked_map {α β : Type} (f : α → β) (nulls : Bytes) (values : List α) :
    masked nulls (values.map f) = (masked nulls values).map (Option.map f) := by
  rw [masked, List.length_map, keep_map, masked]

theorem validities_length {nulls : Bytes} {rows : Nat} (h : Covers nulls rows) :
    (validities nulls rows).length = rows := by
  unfold validities
  rcases h with rfl | h
  · simp
  · split <;> simp [h]

theorem masked_length {α : Type} {nulls : Bytes} {values : List α}
    (h : Covers nulls values.length) : (masked nulls values).length = values.length := by
  rw [masked, keep, List.length_zipWith, validities_length h, Nat.min_self]

/-- The mask gives these answers from the row on. -/
def ValidFrom (nulls : Bytes) : Nat → List Bool → Prop
  | _, [] => True
  | row, valid :: valids => isValid nulls row = .ok valid ∧ ValidFrom nulls (row + 1) valids

theorem validFrom_nil (row rows : Nat) : ValidFrom [] row (List.replicate rows true) := by
  induction rows generalizing row with
  | zero => trivial
  | succ rows ih => exact ⟨rfl, ih (row + 1)⟩

theorem validFrom_append (before after : Bytes) :
    ValidFrom (before ++ after) before.length (after.map (· == 0)) := by
  induction after generalizing before with
  | nil => trivial
  | cons n after ih =>
      have hrest := ih (before ++ [n])
      rw [List.append_assoc, List.length_append] at hrest
      exact ⟨by simp [isValid], hrest⟩

theorem validFrom_zero (nulls : Bytes) (rows : Nat) :
    ValidFrom nulls 0 (validities nulls rows) := by
  cases nulls with
  | nil => exact validFrom_nil 0 rows
  | cons n nulls => exact validFrom_append [] (n :: nulls)

theorem maskFrom_keep {α : Type} {nulls : Bytes} {row : Nat} {valids : List Bool}
    {values : List α} (h : ValidFrom nulls row valids) (hlength : valids.length = values.length) :
    maskFrom nulls row values = .ok (keep valids values) := by
  induction values generalizing row valids with
  | nil =>
      obtain rfl := List.length_eq_zero_iff.mp hlength
      rfl
  | cons value values ih =>
      match valids, hlength, h with
      | valid :: valids, hlength, ⟨hvalid, hvalids⟩ =>
        rw [maskFrom, hvalid, Outcome.ok_bind, ih hvalids (Nat.succ.inj hlength)]
        rfl

/-- The mask leaves a value where its byte is zero. -/
theorem maskFrom_eq {α : Type} {nulls : Bytes} {values : List α}
    (h : Covers nulls values.length) : maskFrom nulls 0 values = .ok (masked nulls values) :=
  maskFrom_keep (validFrom_zero nulls values.length) (validities_length h)

/-! ## Bulk reads -/

theorem castSlice_flatMap {α : Type} [Word α] (values : List α) :
    castSlice (Word.width α) values.length (values.flatMap putLe) = values.map putLe := by
  induction values with
  | nil => rfl
  | cons value values ih =>
      have hlength : (putLe value).length = Word.width α := putLe_length value
      rw [List.length_cons, castSlice, List.flatMap_cons, ← hlength, List.take_left,
        List.drop_left, hlength, ih, List.map_cons]

theorem ofLe_putLe {α : Type} [Word α] (value : α) : ofLe α (putLe value) = value := by
  rw [ofLe, putLe, ofLeBytes_leBytes _ _ (Word.toNat_lt value), Word.ofNat_toNat]

theorem flatMap_putLe_length {α : Type} [Word α] (values : List α) :
    (values.flatMap putLe).length = values.length * Word.width α := by
  induction values with
  | nil => simp
  | cons value values ih =>
      rw [List.flatMap_cons, List.length_append, ih, putLe_length, List.length_cons]
      ring

theorem map_ofLe_putLe {α : Type} [Word α] (values : List α) :
    (values.map putLe).map (ofLe α) = values := by
  rw [List.map_map]
  exact List.map_id'' (fun value => ofLe_putLe value) values

/-- As many values of one width are told from each other by their bytes. -/
theorem flatMap_putLe_injective {α : Type} [Word α] {values values' : List α}
    (hlength : values.length = values'.length)
    (h : values.flatMap putLe = values'.flatMap putLe) : values = values' := by
  have hcast := castSlice_flatMap values
  rw [h, hlength, castSlice_flatMap] at hcast
  rw [← map_ofLe_putLe values, ← hcast, map_ofLe_putLe]

theorem readBuffer_reads (m : Mode) {n : Nat} {bytes : Bytes} (hn : n ≤ isizeMax)
    (hlength : bytes.length = n) : Reads (readBuffer m n) bytes bytes := by
  rw [readBuffer, if_neg (by omega), ← hlength]
  exact Reads.takeExact (eof m) bytes

theorem readMaskAsync_reads {nulls : Bytes} (hsize : nulls.length ≤ isizeMax) :
    Reads (Null.readMaskAsync nulls.length) nulls nulls := by
  unfold Null.readMaskAsync
  split
  · exact readBuffer_reads .async hsize rfl
  · next hpos =>
      obtain rfl := List.length_eq_zero_iff.mp (Nat.eq_zero_of_not_pos hpos)
      exact Reads.pure []

theorem readBulk_reads {α : Type} [Word α] (m : Mode) (values : List α)
    (hsize : values.length * Word.width α ≤ isizeMax) :
    Reads (readBulk m α values.length) (values.flatMap putLe) values := by
  have hvalues : (castSlice (Word.width α) values.length (values.flatMap putLe)).map (ofLe α) =
      values := by
    rw [castSlice_flatMap, map_ofLe_putLe]
  refine (readBuffer_reads m hsize (flatMap_putLe_length values)).bind_nil ?_
  rw [hvalues]
  exact Reads.pure values

theorem deserBulk_reads {α : Type} [Word α] (m : Mode) (values : List α) {nulls : Bytes}
    (hcovers : Covers nulls values.length) (hsize : values.length * Word.width α ≤ isizeMax) :
    Reads (deserBulk m α values.length nulls) (values.flatMap putLe) (masked nulls values) := by
  rw [deserBulk]
  split
  · next hzero =>
      obtain rfl := List.length_eq_zero_iff.mp hzero
      have hmasked : masked nulls ([] : List α) = [] := List.zipWith_nil_right
      rw [hmasked]
      exact Reads.pure []
  · exact (readBulk_reads m values hsize).bind_nil (Reads.ofOutcome (maskFrom_eq hcovers))

/-! ## Reads of one value after another -/

section Rows

variable {α β γ : Type} {read : Reader ArrowError α} {append : α → ArrowResult β}
  {enc : γ → Bytes} {dec : γ → α} {put : γ → β}

theorem appendRow_eq {valid : Bool} {value : α} {entry : β} (h : append value = .ok entry) :
    appendRow append valid value = .ok (if valid then some entry else none) := by
  cases valid with
  | false => rfl
  | true => simp [appendRow, h]

theorem optValues_keep {rows : List γ} {nulls : Bytes} {row : Nat} {valids : List Bool}
    (hread : ∀ x ∈ rows, Reads read (enc x) (dec x))
    (happend : ∀ x ∈ rows, append (dec x) = .ok (put x)) (h : ValidFrom nulls row valids)
    (hlength : valids.length = rows.length) :
    Reads (optValues nulls read append row rows.length) (rows.flatMap enc)
      (keep valids (rows.map put)) := by
  induction rows generalizing row valids with
  | nil =>
      obtain rfl := List.length_eq_zero_iff.mp hlength
      exact Reads.pure []
  | cons x rows ih =>
      match valids, hlength, h with
      | valid :: valids, hlength, ⟨hvalid, hvalids⟩ =>
        have hrest := ih (fun y hy => hread y (List.mem_cons_of_mem x hy))
          (fun y hy => happend y (List.mem_cons_of_mem x hy)) hvalids (Nat.succ.inj hlength)
        refine (Reads.ofOutcome hvalid).nil_bind ((hread x List.mem_cons_self).bind ?_)
        refine (Reads.ofOutcome (appendRow_eq (happend x List.mem_cons_self))).nil_bind ?_
        exact hrest.bind_nil (Reads.pure _)

/-- Every row has a value in the stream; the mask tells which of them are kept. -/
theorem optValues_reads {rows : List γ} {nulls : Bytes}
    (hread : ∀ x ∈ rows, Reads read (enc x) (dec x))
    (happend : ∀ x ∈ rows, append (dec x) = .ok (put x)) (hcovers : Covers nulls rows.length) :
    Reads (optValues nulls read append 0 rows.length) (rows.flatMap enc)
      (masked nulls (rows.map put)) := by
  have hkeep := optValues_keep hread happend (validFrom_zero nulls rows.length)
    (validities_length hcovers)
  rwa [masked, List.length_map]

/-- The values are read up to the first one that the reader gets stuck at. -/
theorem optValues_stuck {rows : List γ} {nulls : Bytes} {row : Nat}
    (hread : ∀ x ∈ rows, Reads read (enc x) (dec x) ∧ append (dec x) = .ok (put x) ∨
      Stuck read (enc x))
    (hstuck : ∃ x ∈ rows, Stuck read (enc x)) :
    Stuck (optValues nulls read append row rows.length) (rows.flatMap enc) := by
  induction rows generalizing row with
  | nil => simp at hstuck
  | cons x rows ih =>
      show Stuck (Reader.ofOutcome (isValid nulls row) >>= fun valid => _) _
      cases hvalid : isValid nulls row with
      | error e =>
          apply Stuck.bind
          exact fun _ _ h => by simp at h
      | ok valid =>
          refine Reads.bind_stuck (s := []) (Reads.pure valid) ?_
          rcases hread x List.mem_cons_self with ⟨hx, happend⟩ | hx
          · obtain ⟨y, hy, hyStuck⟩ := hstuck
            rcases List.mem_cons.mp hy with rfl | hmem
            · exact absurd (hx []) (hyStuck [] _)
            · have hrest : Stuck (optValues nulls read append (row + 1) rows.length)
                  (rows.flatMap enc) :=
                ih (fun z hz => hread z (List.mem_cons_of_mem x hz)) ⟨y, hmem, hyStuck⟩
              refine hx.bind_stuck (Reads.bind_stuck (s := [])
                (Reads.ofOutcome (appendRow_eq happend)) ?_)
              exact hrest.bind _
          · exact (hx.bind _).append _

end Rows

/-! ## The rows of a finished array -/

/-- A builder shows the rows that were appended to it. -/
theorem slots_finished {α : Type} (placeholder : α) (rows : List (Option α)) :
    slots (valuesOf placeholder rows) (nullsOf rows) = rows := by
  unfold slots nullsOf valuesOf
  split
  · next heq =>
      split at heq
      · next hall =>
          rw [List.map_map]
          conv_rhs => rw [← List.map_id rows]
          refine List.map_congr_left fun row hrow => ?_
          obtain ⟨value, rfl⟩ := Option.isSome_iff_exists.mp (List.all_eq_true.mp hall row hrow)
          rfl
      · exact absurd heq (by simp)
  · next valid heq =>
      split at heq
      · exact absurd heq (by simp)
      · cases heq
        rw [List.zipWith_map, List.zipWith_self]
        conv_rhs => rw [← List.map_id rows]
        refine List.map_congr_left fun row _ => ?_
        cases row <;> rfl

end Arrow

end ClickhouseArrow
