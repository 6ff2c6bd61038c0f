import ClickhouseArrow.Native.Termination

/-!
# The layouts of a dictionary column

A dictionary column is cut into index blocks.  Every block has a flag word of its own and
takes its values from additional keys, from the global dictionary, or from the additional
keys followed by the global dictionary; a global dictionary stays in force until a block
sends another one.  The module says which rows the blocks encode (`Encodes`), follows the
reading loop from block to block (`loop_blocks_iff`), and tells when it returns the encoded
rows: where the global dictionary is used alone, the loop does not take index zero for the
null.
-/

namespace ClickhouseArrow

open Wire

/-- Steps that all succeed, with their results. -/
theorem traverse_eq_ok_iff {α β : Type} {f : α → Result β} {as : List α} {bs : List β} :
    Outcome.traverse f as = .ok bs ↔ List.Forall₂ (fun a b => f a = .ok b) as bs := by
  induction as generalizing bs with
  | nil => simp [eq_comm]
  | cons a as ih =>
    rw [Outcome.traverse, List.forall₂_cons_left_iff, Outcome.bind_eq_ok]
    simp only [Outcome.bind_eq_ok, ih, Except.ok.injEq]
    constructor
    · rintro ⟨b, hb, bs', hbs, rfl⟩
      exact ⟨b, bs', hb, hbs, rfl⟩
    · rintro ⟨b, bs', hb, hbs, rfl⟩
      exact ⟨b, hb, bs', hbs, rfl⟩

namespace LowCardinality.IndexType

/-- The number of indexes that a type can hold. -/
def bound : IndexType → Nat
  | .uint8 => 2 ^ 8
  | .uint16 => 2 ^ 16
  | .uint32 => 2 ^ 32
  | .uint64 => 2 ^ 64

theorem get_reads_of_lt (m : Mode) {i : IndexType} {index : Nat} (h : index < i.bound) :
    Reads (i.get m) (i.put index) index := by
  cases i with
  | uint8 =>
    have hread := (Reads.getLe m.eof (UInt8.ofNat index)).map UInt8.toNat
    rwa [UInt8.toNat_ofNat_of_lt' h] at hread
  | uint16 =>
    have hread := (Reads.getLe m.eof (UInt16.ofNat index)).map UInt16.toNat
    rwa [UInt16.toNat_ofNat_of_lt' h] at hread
  | uint32 =>
    have hread := (Reads.getLe m.eof (UInt32.ofNat index)).map UInt32.toNat
    rwa [UInt32.toNat_ofNat_of_lt' h] at hread
  | uint64 =>
    have hread := (Reads.getLe m.eof (UInt64.ofNat index)).map UInt64.toNat
    rwa [UInt64.toNat_ofNat_of_lt' h] at hread

end LowCardinality.IndexType

namespace LowCardinalityDeserializer

open LowCardinality

/-! ## Index blocks -/

/-- A dictionary as it is sent: its size, then a column of the inner type. -/
structure Dictionary (inner : Nat → Reader Error (List Value)) where
  entries : List Value
  body : Bytes
  reads : Reads (inner entries.length) body entries
  length_lt : entries.length < 2 ^ 64

section Blocks

variable {inner : Nat → Reader Error (List Value)}

namespace Dictionary

def bytes (d : Dictionary inner) : Bytes := putUsize d.entries.length ++ d.body

/-- The bytes of a dictionary that is sent or not. -/
def bytesIfSent : Option (Dictionary inner) → Bytes
  | some d => d.bytes
  | none => []

end Dictionary

/-- The three layouts of a block, with the dictionaries that the block sends. -/
inductive Layout (inner : Nat → Reader Error (List Value))
  | additionalKeys (keys : Dictionary inner)
  | globalDictionary (sent : Option (Dictionary inner))
  | additionalThenGlobal (keys : Dictionary inner) (sent : Option (Dictionary inner))

namespace Layout

def keys : Layout inner → Option (Dictionary inner)
  | additionalKeys keys => some keys
  | globalDictionary _ => none
  | additionalThenGlobal keys _ => some keys

def sent : Layout inner → Option (Dictionary inner)
  | additionalKeys _ => none
  | globalDictionary sent => sent
  | additionalThenGlobal _ sent => sent

def needsGlobal : Layout inner → Bool
  | additionalKeys _ => false
  | globalDictionary _ => true
  | additionalThenGlobal _ _ => true

/-- The global dictionary in force in a block and behind it, when `global` was in force
before. -/
def inForce (global : Option (List Value)) (l : Layout inner) : Option (List Value) :=
  (l.sent.map Dictionary.entries).or global

/-- The dictionary of a block. -/
def dictionary (global : Option (List Value)) (l : Layout inner) : List Value :=
  match l with
  | additionalKeys keys => keys.entries
  | globalDictionary _ => (l.inForce global).getD []
  | additionalThenGlobal keys _ => keys.entries ++ (l.inForce global).getD []

end Layout

/-- An index block.  The flag word agrees with the layout; its other bits are free. -/
structure IndexBlock (inner : Nat → Reader Error (List Value)) where
  flags : Nat
  indexType : IndexType
  layout : Layout inner
  indexes : List Nat
  flags_lt : flags < 2 ^ 64
  ofCode_flags : IndexType.ofCode (flags &&& 255) = some indexType
  flags_keys : decide (flags &&& hasAdditionalKeysBit ≠ 0) = layout.keys.isSome
  flags_global : decide (flags &&& needGlobalDictionaryBit ≠ 0) = layout.needsGlobal
  index_lt : ∀ i ∈ indexes, i < indexType.bound
  length_lt : indexes.length < 2 ^ 64

namespace IndexBlock

def headBytes (b : IndexBlock inner) : Bytes :=
  putUsize b.flags ++ (Dictionary.bytesIfSent b.layout.sent ++
    (Dictionary.bytesIfSent b.layout.keys ++ putUsize b.indexes.length))

def bytes (b : IndexBlock inner) : Bytes := b.headBytes ++ b.indexes.flatMap b.indexType.put

/-- A block that uses the global dictionary sends one when none is in force yet, or when
its flag word announces an update. -/
def Sends (global : Option (List Value)) (b : IndexBlock inner) : Prop :=
  b.layout.sent.isSome =
    (b.layout.needsGlobal && (global.isNone || decide (b.flags &&& needUpdateDictionaryBit ≠ 0)))

end IndexBlock

/-- What an index stands for in a dictionary: the null at zero in a nullable column, and
the entry there otherwise. -/
def denotes (isNullable : Bool) (dictionary : List Value) (index : Nat) : Option Value :=
  if isNullable ∧ index = 0 then some .null else dictionary[index]?

/-- The rows that the blocks encode, when the dictionary `global` is in force before them.
There is no block behind the last row. -/
inductive Encodes (isNullable : Bool) :
    Option (List Value) → List (IndexBlock inner) → List Value → Prop
  | nil {global : Option (List Value)} : Encodes isNullable global [] []
  | cons {global : Option (List Value)} {b : IndexBlock inner} {blocks : List (IndexBlock inner)}
      {values rows : List Value} (hsends : b.Sends global)
      (hvalues : List.Forall₂
        (fun i v => denotes isNullable (b.layout.dictionary global) i = some v) b.indexes values)
      (hmissing : values ++ rows ≠ [])
      (hrest : Encodes isNullable (b.layout.inForce global) blocks rows) :
      Encodes isNullable global (b :: blocks) (values ++ rows)

/-- Where a block of a nullable column uses the global dictionary alone and has the index
zero, the entry at zero is a null itself. -/
def NullIsRead (isNullable : Bool) (global : Option (List Value)) (b : IndexBlock inner) : Prop :=
  isNullable = true → b.layout.keys = none → 0 ∈ b.indexes →
    (b.layout.dictionary global)[0]? = some .null

def NullsAreRead (isNullable : Bool) : Option (List Value) → List (IndexBlock inner) → Prop
  | _, [] => True
  | global, b :: blocks =>
      NullIsRead isNullable global b ∧ NullsAreRead isNullable (b.layout.inForce global) blocks

/-! ## The head of a block -/

theorem Dictionary.readDictionary_reads (d : Dictionary inner) :
    Reads (readDictionary inner) d.bytes d.entries :=
  (getUsize_reads .async d.length_lt).bind d.reads

theorem readAnnounced_reads {announced : Bool} {d : Option (Dictionary inner)}
    (hannounced : d.isSome = announced) (kept : Option (List Value)) :
    Reads (readAnnounced announced inner kept) (Dictionary.bytesIfSent d)
      ((d.map Dictionary.entries).or kept) := by
  subst hannounced
  cases d with
  | none => exact Reads.pure kept
  | some d => exact d.readDictionary_reads.map some

/-- The state behind the head of a block. -/
def State.entering (s : State) (b : IndexBlock inner) : State :=
  { s with
    numPendingRows := b.indexes.length
    indexedType := b.indexType
    globalDictionary := b.layout.inForce s.globalDictionary
    additionalKeys := (b.layout.keys.map Dictionary.entries).or s.additionalKeys
    needsGlobalDictionary := b.layout.needsGlobal
    hasAdditionalKeys := b.layout.keys.isSome }

theorem readHeader_block {b : IndexBlock inner} {s : State} (hsends : b.Sends s.globalDictionary) :
    Reads (readHeader inner s) b.headBytes (s.entering b) := by
  refine (getUsize_reads .async b.flags_lt).bind ?_
  simp only [b.ofCode_flags, b.flags_keys, b.flags_global]
  refine (readAnnounced_reads hsends _).bind ?_
  refine (readAnnounced_reads rfl _).bind ?_
  exact (getUsize_reads .async b.length_lt).bind_nil (Reads.pure _)

/-! ## The indexes of a block -/

/-- What the loop takes an index for. -/
def decodes (isNullable : Bool) (l : Layout inner) (dictionary : List Value) (index : Nat) :
    Option Value :=
  if isNullable ∧ index = 0 ∧ l.keys.isSome then some .null else dictionary[index]?

theorem entryAt_eq_ok_iff {dictionary : List Value} {position index : Nat} {name : String}
    {v : Value} :
    entryAt dictionary position index name = .ok v ↔ dictionary[position]? = some v := by
  unfold entryAt
  cases dictionary[position]? <;> simp [Outcome.fail]

/-- A block that uses the global dictionary has one in force. -/
theorem IndexBlock.Sends.exists_inForce {global : Option (List Value)} {b : IndexBlock inner}
    (h : b.Sends global) (hneeds : b.layout.needsGlobal = true) :
    ∃ d, b.layout.inForce global = some d := by
  rw [IndexBlock.Sends, hneeds, Bool.true_and] at h
  rw [Layout.inForce]
  cases hsent : b.layout.sent with
  | some d => exact ⟨_, rfl⟩
  | none =>
    cases global with
    | some d => exact ⟨d, rfl⟩
    | none => simp [hsent] at h

/-- An index that is no null is looked up. -/
theorem nullOr_eq_ok_iff {isNullable : Bool} {l : Layout inner} {dictionary : List Value}
    {index : Nat} {o : Result Value} {v : Value} (hkeys : l.keys.isSome = true)
    (ho : o = .ok v ↔ dictionary[index]? = some v) :
    (if isNullable = true ∧ index = 0 then .ok .null else o) = .ok v ↔
      decodes isNullable l dictionary index = some v := by
  rw [decodes, hkeys]
  by_cases hnull : isNullable = true ∧ index = 0
  · rw [if_pos hnull, if_pos ⟨hnull.1, hnull.2, rfl⟩, Except.ok.injEq, Option.some.injEq]
  · rw [if_neg hnull, if_neg fun h => hnull ⟨h.1, h.2.1⟩, ho]

theorem resolve_block_iff (isNullable : Bool) {b : IndexBlock inner} {s : State}
    (hsends : b.Sends s.globalDictionary) (values : List Value) :
    resolve isNullable (s.entering b) b.indexes = .ok values ↔
      List.Forall₂ (fun i v =>
        decodes isNullable b.layout (b.layout.dictionary s.globalDictionary) i = some v)
        b.indexes values := by
  have hforce := hsends.exists_inForce
  -- By the layout: which of the two dictionaries an index points into.
  cases hl : b.layout with
  | additionalKeys keys =>
    have hresolve : resolve isNullable (s.entering b) b.indexes =
        Outcome.traverse (fun entry => if isNullable ∧ entry = 0 then .ok .null
          else entryAt keys.entries entry entry "additional_keys") b.indexes := by
      simp [resolve, State.entering, hl, Layout.keys, Layout.needsGlobal]
    rw [hresolve, traverse_eq_ok_iff, Layout.dictionary]
    simp only [nullOr_eq_ok_iff (l := .additionalKeys keys) rfl entryAt_eq_ok_iff]
  | globalDictionary sent =>
    rw [hl] at hforce
    obtain ⟨global, hglobal⟩ := hforce rfl
    have hresolve : resolve isNullable (s.entering b) b.indexes = Outcome.traverse (fun entry =>
        entryAt (b.layout.dictionary s.globalDictionary) entry entry "global_dictionary")
        b.indexes := by
      simp [resolve, State.entering, hl, Layout.keys, Layout.needsGlobal, Layout.dictionary,
        hglobal]
    rw [hresolve, traverse_eq_ok_iff, hl]
    simp only [entryAt_eq_ok_iff, decodes, Layout.keys, Option.isSome_none, Bool.false_eq_true,
      and_false, if_false]
  | additionalThenGlobal keys sent =>
    rw [hl] at hforce
    obtain ⟨global, hglobal⟩ := hforce rfl
    have hresolve : resolve isNullable (s.entering b) b.indexes = Outcome.traverse (fun entry =>
        if isNullable ∧ entry = 0 then .ok .null
        else if entry < keys.entries.length then entryAt keys.entries entry entry "additional_keys"
        else entryAt global (entry - keys.entries.length) entry "global_dictionary")
        b.indexes := by
      simp [resolve, State.entering, hl, Layout.keys, Layout.needsGlobal, hglobal]
    -- The indexes go on from the keys of the block to the global ones, as in the two lists
    -- appended.
    have hentry : ∀ i v, (if i < keys.entries.length
        then entryAt keys.entries i i "additional_keys"
        else entryAt global (i - keys.entries.length) i "global_dictionary") = .ok v ↔
        ((Layout.additionalThenGlobal keys sent).dictionary s.globalDictionary)[i]? = some v := by
      intro i v
      rw [Layout.dictionary, hglobal, Option.getD_some, List.getElem?_append]
      split <;> exact entryAt_eq_ok_iff
    rw [hresolve, traverse_eq_ok_iff]
    simp only [nullOr_eq_ok_iff (l := .additionalThenGlobal keys sent) rfl (hentry _ _)]

/-! ## The loop over the blocks -/

/-- The state behind a block. -/
def State.behind (s : State) (b : IndexBlock inner) (values : List Value) : State :=
  { s.entering b with
    limit := s.limit - b.indexes.length
    numPendingRows := 0
    output := s.output ++ values }

theorem readIndexes_block (b : IndexBlock inner) :
    Reads (Reader.readMany (b.indexType.get .async) b.indexes.length)
      (b.indexes.flatMap b.indexType.put) b.indexes := by
  have hreads : Reads (Reader.readMany (b.indexType.get .async) b.indexes.length)
      (b.indexes.flatMap b.indexType.put) (b.indexes.map id) :=
    Reads.readMany fun i hi => IndexType.get_reads_of_lt .async (b.index_lt i hi)
  rwa [List.map_id] at hreads

/-- One turn reads one block. -/
theorem turn_block_iff (isNullable : Bool) {b : IndexBlock inner} {s : State}
    (hsends : b.Sends s.globalDictionary) (hpending : s.numPendingRows = 0)
    (hlimit : b.indexes.length ≤ s.limit) {rest : Bytes} {x : State × Bytes} :
    turn isNullable inner s (b.bytes ++ rest) = .ok x ↔
      ∃ values, resolve isNullable (s.entering b) b.indexes = .ok values ∧
        x = (s.behind b values, rest) := by
  rw [turn, if_pos hpending, IndexBlock.bytes, List.append_assoc,
    (readHeader_block hsends).bind_append]
  have hrows : min (s.entering b).limit (s.entering b).numPendingRows = b.indexes.length :=
    Nat.min_eq_right hlimit
  have hindexes : Reads (Reader.readMany ((s.entering b).indexedType.get .async)
      (min (s.entering b).limit (s.entering b).numPendingRows))
      (b.indexes.flatMap b.indexType.put) b.indexes := by
    rw [hrows]
    exact readIndexes_block b
  dsimp only
  rw [hindexes.bind_append, hrows]
  cases resolve isNullable (s.entering b) b.indexes with
  | error e => simp [Reader.bind_apply]
  | ok values =>
    simp [State.behind, State.entering, eq_comm]

theorem readHeader_output (s : State) :
    Yields (fun s' => s'.output = s.output) (readHeader inner s) := by
  refine Yields.bind_any fun flags => ?_
  dsimp only
  split
  · exact Yields.fail _ _
  · exact Yields.bind_any fun _ => Yields.bind_any fun _ => Yields.bind_any fun _ => Yields.pure rfl

theorem turn_output (isNullable : Bool) (s : State) :
    Yields (fun s' => s.output <+: s'.output) (turn isNullable inner s) := by
  have hrows : ∀ s' : State, s'.output = s.output → Yields (fun s' => s.output <+: s'.output)
      (do
        let entries ← Reader.readMany (s'.indexedType.get .async) (min s'.limit s'.numPendingRows)
        let values ← Reader.ofOutcome (resolve isNullable s' entries)
        pure { s' with
          limit := s'.limit - min s'.limit s'.numPendingRows
          numPendingRows := s'.numPendingRows - min s'.limit s'.numPendingRows
          output := s'.output ++ values }) := by
    intro s' hs'
    refine Yields.bind_any fun _ => Yields.bind_any fun values => Yields.pure ?_
    exact ⟨values, by rw [hs']⟩
  rw [turn]
  split
  · exact (readHeader_output s).bind hrows
  · exact hrows s rfl

/-- What has been delivered stays. -/
theorem loop_output (isNullable : Bool) (fuel : Nat) (s : State) :
    Yields (fun out => s.output <+: out) (loop isNullable inner fuel s) := by
  induction fuel generalizing s with
  | zero => exact Yields.panic _ _
  | succ fuel ih =>
    rw [loop]
    split
    · exact Yields.pure (List.prefix_refl s.output)
    · exact (turn_output isNullable s).bind fun s' hs' => (ih s').mono fun _ hout => hs'.trans hout

theorem forall₂_some_iff {α β : Type} {f g : α → Option β} {as : List α} {bs : List β}
    (hg : List.Forall₂ (fun a b => g a = some b) as bs) :
    List.Forall₂ (fun a b => f a = some b) as bs ↔ ∀ a ∈ as, f a = g a := by
  induction hg with
  | nil => simp
  | cons hab _ ih => rw [List.forall₂_cons, ih, List.forall_mem_cons, hab]

/-- A block is read when no index is taken for anything but what it denotes. -/
theorem nullIsRead_iff {isNullable : Bool} {global : Option (List Value)} {b : IndexBlock inner} :
    NullIsRead isNullable global b ↔ ∀ i ∈ b.indexes,
      decodes isNullable b.layout (b.layout.dictionary global) i =
        denotes isNullable (b.layout.dictionary global) i := by
  constructor
  · intro h i hi
    rw [decodes, denotes]
    by_cases hnull : isNullable = true ∧ i = 0
    · rw [if_pos hnull]
      split
      · rfl
      · next hkeys =>
        obtain ⟨rfl, rfl⟩ := hnull
        exact h rfl (by simpa using hkeys) hi
    · rw [if_neg hnull, if_neg fun hkeys => hnull ⟨hkeys.1, hkeys.2.1⟩]
  · intro h hnull hkeys hzero
    have hread := h 0 hzero
    rwa [decodes, hkeys, if_neg (by simp), denotes, if_pos ⟨hnull, rfl⟩] at hread

/-- The loop returns the rows that the blocks encode exactly when it reads every null. -/
theorem loop_blocks_iff {isNullable : Bool} {global : Option (List Value)}
    {blocks : List (IndexBlock inner)} {rows : List Value}
    (h : Encodes isNullable global blocks rows) {s : State} (hglobal : s.globalDictionary = global)
    (hpending : s.numPendingRows = 0) (hlimit : s.limit = rows.length) {fuel : Nat}
    (hfuel : blocks.length < fuel) {rest : Bytes} :
    loop isNullable inner fuel s (blocks.flatMap IndexBlock.bytes ++ rest) =
        .ok (s.output ++ rows, rest) ↔ NullsAreRead isNullable global blocks := by
  induction h generalizing s fuel with
  | nil =>
    obtain ⟨fuel, rfl⟩ : ∃ n, fuel = n + 1 := ⟨fuel - 1, by omega⟩
    have hdone : s.limit = 0 := hlimit
    rw [loop, if_pos hdone]
    simp [NullsAreRead]
  | @cons global b blocks values rows hsends hvalues hmissing hrest ih =>
    obtain ⟨fuel, rfl⟩ : ∃ n, fuel = n + 1 := ⟨fuel - 1, by omega⟩
    subst hglobal
    have hlen : values.length = b.indexes.length := hvalues.length_eq.symm
    rw [List.length_append, hlen] at hlimit
    have hwanted : s.limit ≠ 0 := by
      rw [hlimit, ← hlen, ← List.length_append]
      exact (List.length_pos_iff.mpr hmissing).ne'
    rw [loop, if_neg hwanted, Reader.bind_apply, List.flatMap_cons, List.append_assoc,
      Outcome.bind_eq_ok]
    simp only [turn_block_iff isNullable hsends hpending (hlimit ▸ Nat.le_add_right _ _)]
    have hbehind : (s.behind b values).limit = rows.length := by
      rw [State.behind, hlimit, Nat.add_sub_cancel_left]
    have hnext := @ih (s.behind b values) rfl rfl hbehind fuel (by simpa using hfuel)
    rw [State.behind, List.append_assoc] at hnext
    rw [NullsAreRead, nullIsRead_iff, ← forall₂_some_iff hvalues,
      ← resolve_block_iff isNullable hsends, ← hnext]
    constructor
    · rintro ⟨_, ⟨values', hresolve, rfl⟩, hloop⟩
      -- As many values as indexes are delivered, and they stay.
      have hcount := ((resolve_block_iff isNullable hsends values').mp hresolve).length_eq
      have hstays : s.output ++ values' <+: s.output ++ (values ++ rows) :=
        loop_output isNullable fuel _ _ _ hloop
      rw [List.prefix_append_right_inj] at hstays
      have hsame : values' <+: values :=
        List.prefix_of_prefix_length_le hstays (List.prefix_append _ _) (by omega)
      obtain rfl := hsame.eq_of_length (by omega)
      exact ⟨hresolve, hloop⟩
    · rintro ⟨hresolve, hloop⟩
      exact ⟨_, ⟨values, hresolve, rfl⟩, hloop⟩

theorem blocks_length_le (blocks : List (IndexBlock inner)) :
    blocks.length ≤ (blocks.flatMap IndexBlock.bytes).length := by
  induction blocks with
  | nil => exact Nat.le_refl 0
  | cons b blocks ih =>
    have hflags : (putUsize b.flags).length = 8 := putLe_length _
    simp only [List.flatMap_cons, List.length_append, List.length_cons, IndexBlock.bytes,
      IndexBlock.headBytes, hflags]
    omega

end Blocks

/-- A dictionary column is read from every layout as the rows that it encodes, exactly when it
is not too long and reads every null; on other bytes the reading ends, too. -/
theorem readColumn_blocks_iff (t : ChType)
    {blocks : List (IndexBlock (t.stripNull.readColumn .async))} {rows : List Value}
    (h : Encodes t.isNullable none blocks rows) :
    (Reads ((ChType.lowCardinality t).readColumn .async rows.length)
        (blocks.flatMap IndexBlock.bytes) rows ∧
      ∀ n bs, (ChType.lowCardinality t).readColumn .async n bs ≠ .error (.panic .outOfFuel)) ↔
      rows.length ≤ maxStringSize ∧ NullsAreRead t.isNullable none blocks := by
  rw [and_iff_left fun n bs => (ChType.readColumn_consumes .async _ n bs).1,
    ChType.readColumn_lowCardinality, guardRows]
  split
  · next hlong =>
    refine iff_of_false (fun hreads => ?_) fun h => absurd h.1 (Nat.not_le.mpr hlong)
    cases hreads []
  · next hshort =>
    rw [and_iff_right (Nat.not_lt.mp hshort)]
    have hcount := blocks_length_le blocks
    have hloop : ∀ rest, loop t.isNullable (t.stripNull.readColumn .async)
        ((blocks.flatMap IndexBlock.bytes ++ rest).length + 2) (State.init rows.length)
        (blocks.flatMap IndexBlock.bytes ++ rest) = .ok (rows, rest) ↔
          NullsAreRead t.isNullable none blocks := fun rest =>
      loop_blocks_iff h rfl rfl rfl (by rw [List.length_append]; omega)
    exact ⟨fun hreads => (hloop []).mp (hreads []), fun hnulls rest => (hloop rest).mpr hnulls⟩

theorem readBytes : Reads (ChType.uint8.readColumn .async 2) [0, 7] [.uint8 0, .uint8 7] :=
  fun _ => rfl

/-- A dictionary of two bytes. -/
def sampleDictionary : Dictionary (ChType.uint8.readColumn .async) :=
  ⟨[.uint8 0, .uint8 7], [0, 7], readBytes, by decide⟩

/-- A block of additional keys, with the null and the seven. -/
def sampleKeys : IndexBlock (ChType.uint8.readColumn .async) where
  flags := 512
  indexType := .uint8
  layout := .additionalKeys sampleDictionary
  indexes := [0, 1]
  flags_lt := by decide
  ofCode_flags := rfl
  flags_keys := rfl
  flags_global := rfl
  index_lt := by decide
  length_lt := by decide

/-- A block of the global dictionary alone. -/
def sampleGlobal (indexes : List Nat) (hindex : ∀ i ∈ indexes, i < 2 ^ 8)
    (hlength : indexes.length < 2 ^ 64) : IndexBlock (ChType.uint8.readColumn .async) where
  flags := 256
  indexType := .uint8
  layout := .globalDictionary (some sampleDictionary)
  indexes := indexes
  flags_lt := by decide
  ofCode_flags := rfl
  flags_keys := rfl
  flags_global := rfl
  index_lt := hindex
  length_lt := hlength

/-- A block of additional keys with a null, and one of the global dictionary without. -/
theorem readColumn_blocks_iff_sample :
    Reads ((ChType.lowCardinality (.nullable .uint8)).readColumn .async 3)
        ([sampleKeys, sampleGlobal [1] (by decide) (by decide)].flatMap IndexBlock.bytes)
        [.null, .uint8 7, .uint8 7] ∧
      ∀ n bs, (ChType.lowCardinality (.nullable .uint8)).readColumn .async n bs ≠
        .error (.panic .outOfFuel) := by
  have hglobal : Encodes true none [sampleGlobal [1] (by decide) (by decide)]
      ([.uint8 7] ++ []) := .cons rfl (.cons rfl .nil) (by decide) .nil
  have hblocks : Encodes true none [sampleKeys, sampleGlobal [1] (by decide) (by decide)]
      ([.null, .uint8 7] ++ [.uint8 7]) :=
    .cons rfl (.cons rfl (.cons rfl .nil)) (by decide) hglobal
  refine (readColumn_blocks_iff (.nullable .uint8) hblocks).mpr ⟨by decide, ?_, ?_, trivial⟩
  · exact nofun
  · exact fun _ _ hzero => absurd hzero (by decide)

/-- The index zero of the global dictionary alone is read as the entry there. -/
theorem not_reads_null_of_global :
    Encodes true none [sampleGlobal [0] (by decide) (by decide)] [.null] ∧
      ¬ Reads ((ChType.lowCardinality (.nullable .uint8)).readColumn .async 1)
        ([sampleGlobal [0] (by decide) (by decide)].flatMap IndexBlock.bytes) [.null] := by
  have hencodes : Encodes true none [sampleGlobal [0] (by decide) (by decide)] ([.null] ++ []) :=
    .cons rfl (.cons rfl .nil) (by decide) .nil
  refine ⟨hencodes, fun hreads => ?_⟩
  have hread : (ChType.lowCardinality (.nullable .uint8)).readColumn .async 1
      ([sampleGlobal [0] (by decide) (by decide)].flatMap IndexBlock.bytes) =
      .ok ([.uint8 0], []) := rfl
  cases hread.symm.trans (hreads [])

end LowCardinalityDeserializer

end ClickhouseArrow
