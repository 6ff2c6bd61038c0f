import ClickhouseArrow.Arrow.Announced
import ClickhouseArrow.Arrow.ColumnReads

/-!
# A dictionary on the wire

What the two encoders of a `LowCardinality` column write has one layout: a flag word, the values
of the dictionary, and an index for every row.  The decoder reads the values into an array, the
first of them as a null where their type is nullable, and the indexes into keys of 32 bits.
-/

namespace ClickhouseArrow

open Wire

namespace Arrow

/-! ## Keys and entries -/

/-- The row of every key: nothing for a null, and for the key of a null. -/
def resolved {α : Type} (entries : List (Option α)) (keys : List (Option Nat)) : List (Option α) :=
  keys.map fun key => key.bind fun k => entries[k]?.join

theorem resolved_map_some {α : Type} (entries : List (Option α)) (keys : List Nat) :
    resolved entries (keys.map some) = keys.map fun k => entries[k]?.join := by
  rw [resolved, List.map_map]
  rfl

/-- The entries of a dictionary as they are read: the first one of a nullable type is the null. -/
def readEntries {α : Type} : Bool → List α → List (Option α)
  | true, _ :: entries => none :: entries.map some
  | _, entries => entries.map some

theorem length_readEntries {α : Type} (nullable : Bool) (entries : List α) :
    (readEntries nullable entries).length = entries.length := by
  cases nullable <;> cases entries <;> simp [readEntries]

theorem getElem?_readEntries {α : Type} (nullable : Bool) (entries : List α) (i : Nat) :
    (readEntries nullable entries)[i]?.join =
      if nullable = true ∧ i = 0 then none else entries[i]? := by
  cases nullable with
  | false =>
      have hentries : readEntries false entries = entries.map some := by
        cases entries <;> rfl
      rw [hentries, if_neg (by simp), List.getElem?_map]
      cases entries[i]? <;> rfl
  | true =>
      cases entries with
      | nil => simp [readEntries]
      | cons entry entries =>
          cases i with
          | zero => rfl
          | succ i =>
              show (entries.map some)[i]?.join = _
              rw [if_neg (by simp), List.getElem?_map, List.getElem?_cons_succ]
              cases entries[i]? <;> rfl

namespace LowCardinality

open ClickhouseArrow.LowCardinality

theorem masked_of_dictionaryMask {α : Type} {inner : ChType} {entries : List α} {mask : Bytes}
    (h : dictionaryMask inner entries.length = .ok mask) :
    Covers mask entries.length ∧ masked mask entries = readEntries inner.isNullable entries := by
  unfold dictionaryMask at h
  by_cases hnullable : inner.isNullable = true
  · rw [if_pos hnullable] at h
    rw [hnullable]
    split_ifs at h
    · cases h
    · cases entries with
      | nil => cases h
      | cons entry entries =>
          cases h
          have hkept : ∀ rest : List α, keep ((List.replicate rest.length (0 : UInt8)).map (· == 0))
              rest = rest.map some := by
            intro rest
            induction rest with
            | nil => rfl
            | cons value rest ih =>
                rw [List.map_cons, ← ih]
                rfl
          refine ⟨.inr (by simp), ?_⟩
          show none :: keep ((List.replicate entries.length (0 : UInt8)).map (· == 0)) entries = _
          rw [hkept]
          rfl
  · rw [if_neg hnullable] at h
    cases h
    rw [Bool.not_eq_true] at hnullable
    rw [hnullable]
    refine ⟨.inl rfl, ?_⟩
    rw [masked_nil]
    cases entries <;> rfl

theorem exists_dictionaryMask (inner : ChType) {n : Nat} (hpos : 0 < n) (hn : n ≤ isizeMax) :
    ∃ mask, dictionaryMask inner n = .ok mask := by
  unfold dictionaryMask
  split_ifs with hnullable hlarge
  · omega
  · obtain ⟨k, rfl⟩ := Nat.exists_eq_succ_of_ne_zero hpos.ne'
    exact ⟨_, rfl⟩
  · exact ⟨_, rfl⟩

/-! ## Indexes -/

/-- The bytes of an index. -/
def width : IndexType → Nat
  | .uint8 => 1
  | .uint16 => 2
  | .uint32 => 4
  | .uint64 => 8

/-- The index type of a dictionary holds the index of each of its values. -/
theorem lt_of_keyTypeFlag {n i : Nat} (hi : i < n) (hn : n ≤ 2 ^ 64) :
    i < 256 ^ width (keyTypeFlag n) := by
  rw [keyTypeFlag]
  split_ifs
  all_goals
    simp only [width]
    omega

theorem width_keyTypeFlag_le {n : Nat} (hn : n ≤ 4294967295) : width (keyTypeFlag n) ≤ 4 := by
  rw [keyTypeFlag]
  split_ifs
  all_goals
    simp only [width]
    omega

section Keys

variable {α : Type} [Word α]

theorem keys_read (m : Mode) (ofNat : Nat → α) (toNat : α → Nat) (key : KeyType)
    {indexes : List Nat} (hvalue : ∀ i ∈ indexes, toNat (ofNat i) = i)
    (hsize : indexes.length * Word.width α ≤ isizeMax) :
    Reads (deserBulk m α indexes.length [] >>= fun keys =>
        pure (keys.map (Option.map fun k => castKey key (toNat k))))
      (indexes.flatMap fun i => putLe (ofNat i)) (indexes.map fun i => some (castKey key i)) := by
  have hbulk : Reads (deserBulk m α indexes.length []) (indexes.flatMap fun i => putLe (ofNat i))
      ((indexes.map ofNat).map some) := by
    have hread : Reads (deserBulk m α (indexes.map ofNat).length []) _ _ :=
      deserBulk_reads m (indexes.map ofNat) (.inl rfl) (by rwa [List.length_map])
    rwa [List.length_map, List.flatMap_map, masked_nil] at hread
  refine hbulk.bind_nil ?_
  have hkeys : (((indexes.map ofNat).map some).map (Option.map fun k => castKey key (toNat k))) =
      indexes.map fun i => some (castKey key i) := by
    rw [List.map_map, List.map_map]
    refine List.map_congr_left fun i hi => ?_
    show some (castKey key (toNat (ofNat i))) = _
    rw [hvalue i hi]
  rw [hkeys]
  exact Reads.pure _

end Keys

/-- Indexes that fit their type are read as keys. -/
theorem deserKey_indexes (m : Mode) (flag : IndexType) (key : KeyType) {indexes : List Nat}
    (hfits : ∀ i ∈ indexes, i < 256 ^ width flag)
    (hsize : indexes.length * width flag ≤ isizeMax) :
    Reads (deserKey m flag key indexes.length []) (indexes.flatMap flag.put)
      (indexes.map fun i => some (castKey key i)) := by
  cases flag with
  | uint8 =>
      exact keys_read m UInt8.ofNat UInt8.toNat key
        (fun i hi => UInt8.toNat_ofNat_of_lt' (hfits i hi)) hsize
  | uint16 =>
      exact keys_read m UInt16.ofNat UInt16.toNat key
        (fun i hi => UInt16.toNat_ofNat_of_lt' (hfits i hi)) hsize
  | uint32 =>
      exact keys_read m UInt32.ofNat UInt32.toNat key
        (fun i hi => UInt32.toNat_ofNat_of_lt' (hfits i hi)) hsize
  | uint64 =>
      exact keys_read m UInt64.ofNat UInt64.toNat key
        (fun i hi => UInt64.toNat_ofNat_of_lt' (hfits i hi)) hsize

/-- A key of 32 bits is an index up to multiples of two to the 32, and the upper half of them are
negative. -/
theorem castKey_int32_eq (i : Nat) :
    castKey .int32 i = if i % 2 ^ 32 < 2 ^ 31 then ((i % 2 ^ 32 : Nat) : Int)
      else ((i % 2 ^ 32 : Nat) : Int) - 2 ^ 32 := by
  have hsize : Int32.size = 4294967296 := rfl
  show (Int32.ofNat i).toInt = _
  rw [Int32.toInt_ofNat', Int.bmod_def, hsize]
  split_ifs <;> omega

/-! ## Blocks -/

/-- The flag word, the values of a dictionary, and the indexes of the rows. -/
def blockBytes (flag : IndexType) (dictSize : Nat) (values : Bytes) (indexes : List Nat) : Bytes :=
  putUsize (flag.code ||| hasAdditionalKeysBit) ++ (putUsize dictSize ++ (values ++
    (putUsize indexes.length ++ indexes.flatMap flag.put)))

theorem blockBytes_ne_nil (flag : IndexType) (dictSize : Nat) (values : Bytes)
    (indexes : List Nat) : blockBytes flag dictSize values indexes ≠ [] :=
  List.append_ne_nil_of_left_ne_nil (List.cons_ne_nil _ _) _

/-! ## What is written of a dictionary -/

/-- How far the indexes are moved: a default of the type stands before the values where they have
no null of their own. -/
def modifier (inner : ChType) (dictionary : ArrowArray) : Nat :=
  (inner.isNullable && !decide (0 < dictionary.nullCount)).toNat

/-- The index that is written for a key. -/
def writtenIndex (modifier : Nat) (key : Option Nat) : Nat := key.elim 0 fun k => k + modifier

/-- The default and the values are written before the indexes of the rows. -/
theorem writeValues_dictionary (key : KeyType) (inner : ChType)
    (serialize : ArrowArray → DataType → ArrowResult Bytes) {keys : List Nat} {nulls : Nulls}
    {dictionary : ArrowArray} (hrows : keys ≠ []) (hfit : nulls.Fit keys.length) :
    writeValues key inner serialize (.dictionary key keys nulls dictionary) =
      ((if modifier inner dictionary = 1 then writeDefault inner else .ok []) >>= fun default =>
        serialize dictionary dictionary.dataType >>= fun body =>
          .ok (blockBytes (keyTypeFlag (dictionary.len + modifier inner dictionary))
            (dictionary.len + modifier inner dictionary) (default ++ body)
            ((slots keys nulls).map (writtenIndex (modifier inner dictionary))))) := by
  have hempty : keys.isEmpty = false := by
    rwa [← Bool.not_eq_true, List.isEmpty_iff]
  unfold writeValues downcast
  simp only [if_true, hempty, Bool.false_eq_true, if_false, blockBytes, List.length_map,
    slots_length hfit, List.flatMap_map, List.append_assoc]
  show (if modifier inner dictionary = 1 then _ else _) = _
  split_ifs
  · rfl
  · rfl

section Block

variable {inner : ChType} {decode : Decode} (key : KeyType) {value : TypedBuilder} {v : DataType}
  {flag : IndexType} {dictSize : Nat} {mask values : Bytes} {indexes : List Nat}

theorem indexType_flags (flag : IndexType) :
    flag.code ||| hasAdditionalKeysBit < 2 ^ 64 ∧
      indexType (flag.code ||| hasAdditionalKeysBit) = some flag ∧
      hasDictionary (flag.code ||| hasAdditionalKeysBit) = true := by
  cases flag <;> decide

/-- The values of a block are read, and what is left are the keys. -/
theorem deserializeAsync_values {dictionary : ArrowArray} (hdictSize : dictSize < 2 ^ 64)
    (hmask : dictionaryMask inner dictSize = .ok mask)
    (hvalues : Reads (decode value v dictSize mask) values dictionary)
    (hrows : indexes.length < 2 ^ 64) (k : DataType) (rest : Bytes) :
    deserializeAsync inner decode (.lowCardinality key value) (.dictionary k v) indexes.length []
        (blockBytes flag dictSize values indexes ++ rest) =
      (deserKey .async flag key indexes.length [] >>= fun keys =>
        Reader.ofOutcome (DictionaryArray.new key keys dictionary))
          (indexes.flatMap flag.put ++ rest) := by
  obtain ⟨hflags, hindexes, hdictionary⟩ := indexType_flags flag
  rw [blockBytes, List.append_assoc]
  refine ((getUsizeOf_reads hflags).bind_append _ _).trans ?_
  simp only [hindexes, hdictionary, if_true]
  rw [List.append_assoc]
  refine ((getUsizeOf_reads hdictSize).bind_append _ _).trans ?_
  rw [hmask, List.append_assoc]
  refine ((Reads.pure mask).bind_append _ _).trans ?_
  refine (hvalues.bind_append _ _).trans ?_
  rw [List.append_assoc]
  refine ((getUsizeOf_reads hrows).bind_append _ _).trans ?_
  rw [if_neg (not_not.mpr rfl)]

/-- The values of a block are read, and its keys are looked up among them. -/
theorem deserializeAsync_block {dictionary : ArrowArray} (hdictSize : dictSize < 2 ^ 64)
    (hmask : dictionaryMask inner dictSize = .ok mask)
    (hvalues : Reads (decode value v dictSize mask) values dictionary)
    (hrows : indexes.length < 2 ^ 64) (hfits : ∀ i ∈ indexes, i < 256 ^ width flag)
    (hsize : indexes.length * width flag ≤ isizeMax) (k : DataType) (rest : Bytes) :
    deserializeAsync inner decode (.lowCardinality key value) (.dictionary k v) indexes.length []
        (blockBytes flag dictSize values indexes ++ rest) =
      (DictionaryArray.new key (indexes.map fun i => some (castKey key i)) dictionary >>= fun array =>
        .ok (array, rest)) := by
  have hkeys := deserKey_indexes .async flag key hfits hsize
  refine (deserializeAsync_values key hdictSize hmask hvalues hrows k rest).trans ?_
  refine (hkeys.bind_append _ _).trans ?_
  cases DictionaryArray.new key (indexes.map fun i => some (castKey key i)) dictionary <;> rfl

/-- Where the values of a block cannot be read, the block cannot. -/
theorem deserializeAsync_block_stuck (hdictSize : dictSize < 2 ^ 64)
    (hmask : dictionaryMask inner dictSize = .ok mask)
    (hvalues : Stuck (decode value v dictSize mask) values) (k : DataType) (flag : IndexType)
    (indexes : List Nat) :
    Stuck (deserializeAsync inner decode (.lowCardinality key value) (.dictionary k v)
      indexes.length []) (blockBytes flag dictSize values indexes) := by
  obtain ⟨hflags, hindexes, hdictionary⟩ := indexType_flags flag
  refine (getUsizeOf_reads hflags).bind_stuck ?_
  simp only [hindexes, hdictionary, if_true]
  refine (getUsizeOf_reads hdictSize).bind_stuck ?_
  refine Reads.bind_stuck (s := []) (Reads.ofOutcome hmask) ?_
  exact (hvalues.bind _).append _

/-- A column without rows is written as nothing. -/
theorem serializeAsync_empty (inner : ChType) (isNull : Bool)
    (serialize : ArrowArray → DataType → ArrowResult Bytes) {values : ArrowArray} (d : DataType)
    (h : values.len = 0) : serializeAsync inner isNull serialize values d = .ok [] := by
  unfold serializeAsync
  exact if_pos h

/-- There is a flag word also where there are no rows. -/
theorem deserializeAsync_nil (inner : ChType) (decode : Decode) (builder : TypedBuilder)
    (d : DataType) (rows : Nat) (nulls : Bytes) (x : ArrowArray × Bytes) :
    deserializeAsync inner decode builder d rows nulls [] ≠ .ok x := by
  cases d with
  | dictionary k v =>
      cases builder with
      | lowCardinality key value =>
          intro h
          replace h : (deserializeAsync.getUsizeOf .async >>= fun flags => _) [] = .ok x := h
          rw [Reader.bind_apply] at h
          obtain ⟨y, hy, -⟩ := Outcome.bind_eq_ok.mp h
          cases hy
      | _ => exact fun h => by cases h
  | _ => exact fun h => by cases h

end Block

/-! ## Arrays -/

/-- Keys that are not negative are looked up among the values. -/
theorem new_positions {indexes : List Nat} {values : ArrowArray}
    (h : ∀ i ∈ indexes, i % 2 ^ 32 < 2 ^ 31 ∧ i < values.len) :
    DictionaryArray.new .int32 (indexes.map fun i => some (castKey .int32 i)) values =
      .ok (.dictionary .int32 (indexes.map (· % 2 ^ 32)) none values) := by
  have hkeys : (indexes.map fun i => some (castKey .int32 i)) =
      indexes.map fun i : Nat => some ((i % 2 ^ 32 : Nat) : Int) :=
    List.map_congr_left fun i hi => by rw [castKey_int32_eq, if_pos (h i hi).1]
  have hall : (indexes.map fun i : Nat => some ((i % 2 ^ 32 : Nat) : Int)).all Option.isSome =
      true := by
    simp
  rw [hkeys, DictionaryArray.new, if_pos]
  · rw [nullsOf, if_pos hall, List.map_map]
    rfl
  · rw [List.all_map, List.all_eq_true]
    intro i hi
    have hlt := (h i hi).2
    show decide ((0 : Int) ≤ (i % 2 ^ 32 : Nat) ∧ ((i % 2 ^ 32 : Nat) : Int) < values.len) = true
    apply decide_eq_true
    omega

/-- Keys of 32 bits that all have a value. -/
theorem new_dictionary {indexes : List Nat} {values : ArrowArray}
    (h : ∀ i ∈ indexes, i < 2 ^ 31 ∧ i < values.len) :
    DictionaryArray.new .int32 (indexes.map fun i => some (castKey .int32 i)) values =
      .ok (.dictionary .int32 indexes none values) := by
  have hmod : ∀ i ∈ indexes, i % 2 ^ 32 = i := by
    intro i hi
    have hlt := (h i hi).1
    omega
  have hsame : indexes.map (· % 2 ^ 32) = indexes :=
    (List.map_congr_left hmod).trans (List.map_id' indexes)
  rw [new_positions fun i hi => ⟨(hmod i hi).symm ▸ (h i hi).1, (h i hi).2⟩, hsame]

end LowCardinality

end Arrow

end ClickhouseArrow
