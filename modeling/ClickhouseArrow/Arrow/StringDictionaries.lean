import ClickhouseArrow.Arrow.Dictionaries
import ClickhouseArrow.Arrow.EnumRoundTrip
import ClickhouseArrow.Arrow.Utf8
import Mathlib.Algebra.BigOperators.Group.Finset.Basic
import Mathlib.Algebra.BigOperators.Group.List.Basic

/-!
# Strings that are written as a dictionary

The encoder takes the distinct strings of an array for the dictionary, with the empty string in
front of them where the array has a null.  The decoder takes the first entry for the null where
the type of the values is nullable.  The module says for which arrays the two agree.
-/

namespace ClickhouseArrow

open Wire

namespace Arrow

/-! ## Arrays of strings -/

/-- An array of strings.  The offsets or views of its rows are in one buffer. -/
structure Strings where
  type : BytesType
  values : List Bytes
  nulls : Nulls
  fit : nulls.Fit values.length
  addressed : (values.length + 1) * 4 ≤ isizeMax
  utf8 : type.isUtf8 = true → ∀ value ∈ values, ∃ s : String, value = utf8Bytes s

namespace Strings

def array (column : Strings) : ArrowArray := .bytes column.type column.values column.nulls

def cells (column : Strings) : List (Option Bytes) := slots column.values column.nulls

theorem length_cells (column : Strings) : column.cells.length = column.values.length :=
  slots_length column.fit

theorem mem_values {column : Strings} {value : Bytes} (h : some value ∈ column.cells) :
    value ∈ column.values := by
  unfold cells slots at h
  split at h
  · obtain ⟨v, hv, hsome⟩ := List.mem_map.mp h
    cases hsome
    exact hv
  · rw [List.mem_iff_getElem] at h
    obtain ⟨i, hi, heq⟩ := h
    rw [List.getElem_zipWith] at heq
    split_ifs at heq
    cases heq
    exact List.getElem_mem _

/-- The array counts a null exactly if it has one. -/
theorem nullCount_pos_iff (column : Strings) : 0 < column.array.nullCount ↔ none ∈ column.cells :=
  Nulls.count_pos_iff column.fit

end Strings

/-- The strings of an array, and those that the keys of a dictionary stand for. -/
def stringsOf : ArrowArray → Option (List (Option Bytes))
  | .bytes _ values nulls => some (slots values nulls)
  | .dictionary _ keys nulls (.bytes _ values valueNulls) =>
      some (resolved (slots values valueNulls) (slots keys nulls))
  | _ => none

theorem stringsOf_dictionary (key : KeyType) (keys : List Nat) (t : BytesType)
    (rows : List (Option Bytes)) :
    stringsOf (.dictionary key keys none (finishBytes t rows)) =
      some (resolved rows (keys.map some)) := by
  show some (resolved (slots (valuesOf [] rows) (nullsOf rows)) (keys.map some)) = _
  rw [slots_finished]

/-- The array is written, and what is read of the bytes has the strings of the array. -/
def KeepsStrings (options : Option ArrowOptions) (t : ChType) (column : Strings) : Prop :=
  ∀ (json : Bytes → Bytes) (m m' : Mode) (rest : Bytes),
    ∃ (d : DataType) (nullable : Bool) (builder : TypedBuilder) (bytes : Bytes) (array : ArrowArray),
      chToArrowType t options = .ok (d, nullable) ∧
        TypedBuilder.tryNew (typeHint t d) d = .ok builder ∧
        serializeBy m' t column.array column.array.dataType = .ok bytes ∧
        deserializeBy json m (typeHint t d) builder d column.values.length [] (bytes ++ rest) =
          .ok (array, rest) ∧
        stringsOf array = some column.cells

/-- There is a row; the dictionary has room in an array of 32-bit offsets; no string is too long
to be read; and the strings that are read as text are UTF-8. -/
structure Strings.Carried (options : Option ArrowOptions) (column : Strings) : Prop where
  rows : column.values ≠ []
  size : ∑ s ∈ column.cells.reduceOption.toFinset, s.length < 2 ^ 31
  lengths : ∀ s, some s ∈ column.cells → s.length ≤ maxStringSize
  text : wantsStrings options = true → column.type.isUtf8 = false →
    ∀ s, some s ∈ column.cells → fromUtf8Lossy s = s

/-! ## The dictionary that is written -/

namespace LowCardinality

open ClickhouseArrow.LowCardinality Enums

/-- The dictionary of the rows, after the entries that it begins with. -/
def dictionaryOf (seed : List Bytes) (rows : List (Option Bytes)) : List Bytes :=
  insertKeys sameLabel seed rows.reduceOption

/-- The index of a row: that of its string, and zero for a null. -/
def indexOf (dict : List Bytes) (row : Option Bytes) : Nat :=
  row.elim 0 fun value => (indexOfKey sameLabel dict value).getD 0

/-- Each row gets the index that its string has in the whole dictionary. -/
theorem internRows_eq (dict : List Bytes) (rows : List (Option Bytes)) :
    internRows dict rows = (dictionaryOf dict rows, rows.map (indexOf (dictionaryOf dict rows))) := by
  induction rows generalizing dict with
  | nil => rfl
  | cons row rows ih =>
      cases row with
      | none =>
          rw [internRows, ih]
          rfl
      | some value =>
          have hfound : (dict.findIdx? fun k => decide (k = value)) = indexOfKey sameLabel dict value :=
            rfl
          -- What is inserted later does not move what is there.
          have hextends : insertKey sameLabel dict value <+: dictionaryOf dict (some value :: rows) :=
            prefix_insertKeys _ _
          have hindex : ∀ i, indexOfKey sameLabel (insertKey sameLabel dict value) value = some i →
              indexOf (dictionaryOf dict (some value :: rows)) (some value) = i := by
            intro i hi
            show (indexOfKey sameLabel _ value).getD 0 = i
            rw [indexOfKey_of_extends hextends hi]
            rfl
          rw [internRows, hfound]
          cases hkey : indexOfKey sameLabel dict value with
          | some i =>
              have hany := (any_iff_indexOfKey dict value).mpr (Option.isSome_of_eq_some hkey)
              have hsame : insertKey sameLabel dict value = dict := if_pos hany
              rw [hsame] at hindex
              have hdict : dictionaryOf dict (some value :: rows) = dictionaryOf dict rows := by
                show insertKeys sameLabel (insertKey sameLabel dict value) rows.reduceOption = _
                rw [hsame]
                rfl
              show ((internRows dict rows).1, i :: (internRows dict rows).2) = _
              rw [ih, List.map_cons, hindex i hkey, hdict]
          | none =>
              have hany : ¬ (dict.any fun k => sameLabel k value) = true := by
                rw [any_iff_indexOfKey, hkey]
                exact Bool.false_ne_true
              have hnew : insertKey sameLabel dict value = dict ++ [value] := if_neg hany
              rw [hnew] at hindex
              have hlast : indexOfKey sameLabel (dict ++ [value]) value = some dict.length := by
                unfold indexOfKey at hkey ⊢
                rw [List.findIdx?_append, hkey]
                simp [sameLabel]
              have hdict : dictionaryOf dict (some value :: rows) =
                  dictionaryOf (dict ++ [value]) rows := by
                show insertKeys sameLabel (insertKey sameLabel dict value) rows.reduceOption = _
                rw [hnew]
                rfl
              show ((internRows (dict ++ [value]) rows).1,
                dict.length :: (internRows (dict ++ [value]) rows).2) = _
              rw [ih, List.map_cons, hindex _ hlast, hdict]

section Dictionary

variable {seed : List Bytes} {rows : List (Option Bytes)}

theorem mem_dictionaryOf {s : Bytes} : s ∈ dictionaryOf seed rows ↔ s ∈ seed ∨ some s ∈ rows := by
  rw [dictionaryOf, mem_insertKeys_iff (decidesEq_sameLabel _), List.reduceOption_mem_iff]

/-- A string is the entry at its index. -/
theorem getElem?_indexOf {s : Bytes} (h : some s ∈ rows) :
    (dictionaryOf seed rows)[indexOf (dictionaryOf seed rows) (some s)]? = some s := by
  obtain ⟨i, hi, hentry⟩ := indexOfKey_insertKeys (decidesEq_sameLabel rows.reduceOption) seed
    (List.reduceOption_mem_iff.mpr h)
  have hindex : indexOf (dictionaryOf seed rows) (some s) = i := by
    show (indexOfKey sameLabel (insertKeys sameLabel seed rows.reduceOption) s).getD 0 = i
    rw [hi]
    rfl
  rw [hindex]
  exact hentry

/-- The dictionary is as large as the distinct strings are together. -/
theorem length_flatten_dictionaryOf (hseed : seed.Nodup) (hempty : ∀ s ∈ seed, s = []) :
    (dictionaryOf seed rows).flatten.length = ∑ s ∈ rows.reduceOption.toFinset, s.length := by
  have hnodup : (dictionaryOf seed rows).Nodup :=
    insertKeys_nodup (decidesEq_sameLabel rows.reduceOption) hseed
  rw [List.length_flatten, ← List.sum_toFinset _ hnodup]
  symm
  apply Finset.sum_subset
  · intro s hs
    rw [List.mem_toFinset, List.reduceOption_mem_iff] at hs
    exact List.mem_toFinset.mpr (mem_dictionaryOf.mpr (.inr hs))
  · intro s hs hnot
    rw [List.mem_toFinset, mem_dictionaryOf] at hs
    rcases hs with hin | hrow
    · rw [hempty s hin]
      rfl
    · exact absurd (List.mem_toFinset.mpr (List.reduceOption_mem_iff.mpr hrow)) hnot

end Dictionary

/-- Only one of distinct strings is empty. -/
theorem length_le_of_nodup {strings : List Bytes} (h : strings.Nodup) :
    strings.length ≤ strings.flatten.length + 1 := by
  rw [List.length_flatten]
  induction strings with
  | nil => simp
  | cons s strings ih =>
      rw [List.nodup_cons] at h
      by_cases hs : s = []
      · have hpos : ∀ n ∈ strings.map List.length, 1 ≤ n := by
          intro n hn
          obtain ⟨t, ht, rfl⟩ := List.mem_map.mp hn
          refine List.length_pos_iff.mpr fun hnil => h.1 ?_
          rw [hs, ← hnil]
          exact ht
        have hle := List.length_le_sum_of_one_le _ hpos
        rw [List.length_map] at hle
        simp only [List.length_cons, List.map_cons, List.sum_cons]
        omega
      · have hpos := List.length_pos_iff.mpr hs
        have hrest := ih h.2
        simp only [List.length_cons, List.map_cons, List.sum_cons]
        omega

end LowCardinality

namespace Strings

open Arrow.LowCardinality

/-- The dictionary that the encoder makes. -/
def dict (column : Strings) : List Bytes :=
  dictionaryOf (if none ∈ column.cells then [[]] else []) column.cells

/-- The index of each row. -/
def indexes (column : Strings) : List Nat := column.cells.map (indexOf column.dict)

theorem length_indexes (column : Strings) : column.indexes.length = column.values.length := by
  rw [indexes, List.length_map, length_cells]

theorem length_flatten_dict (column : Strings) :
    column.dict.flatten.length = ∑ s ∈ column.cells.reduceOption.toFinset, s.length := by
  apply length_flatten_dictionaryOf
  · split_ifs <;> simp
  · intro s hs
    split_ifs at hs
    · exact List.mem_singleton.mp hs
    · simp at hs

theorem nodup_dict (column : Strings) : column.dict.Nodup := by
  apply insertKeys_nodup (Enums.decidesEq_sameLabel _)
  split_ifs <;> simp

/-- Every row has the index of an entry. -/
theorem lt_of_mem_indexes {column : Strings} {i : Nat} (h : i ∈ column.indexes) :
    i < column.dict.length := by
  obtain ⟨row, hrow, rfl⟩ := List.mem_map.mp h
  cases row with
  | none =>
      have hempty : [] ∈ column.dict := by
        apply mem_dictionaryOf.mpr
        left
        rw [if_pos hrow]
        simp
      exact List.length_pos_of_mem hempty
  | some s => exact (List.getElem?_eq_some_iff.mp (getElem?_indexOf hrow)).1

theorem length_dict_pos {column : Strings} (hrows : column.values ≠ []) : 0 < column.dict.length := by
  have hlength := column.length_indexes
  cases hindexes : column.indexes with
  | nil =>
      rw [hindexes] at hlength
      exact absurd (List.length_eq_zero_iff.mp hlength.symm) hrows
  | cons i rest =>
      have hmem : i ∈ column.indexes := by
        rw [hindexes]
        exact List.mem_cons_self
      have hi := lt_of_mem_indexes hmem
      omega

theorem length_dict_le {column : Strings} (hsize : column.dict.flatten.length < 2 ^ 31) :
    column.dict.length ≤ 2 ^ 31 := by
  have hle := length_le_of_nodup column.nodup_dict
  omega

end Strings

namespace LowCardinality

open ClickhouseArrow.LowCardinality

theorem writeIndex_eq (flag : IndexType) {i : Nat} (hi : i < 2 ^ 31) :
    writeIndex flag i = flag.put i := by
  have hcast : (i32OfUsize i).toInt = i := Int32.toInt_ofNat_of_lt hi
  rw [writeIndex, hcast, usizeOfInt]
  congr 1
  omega

/-- The block of an array of strings. -/
theorem serializeAsync_strings {inner : ChType} {serialize : ArrowArray → DataType → ArrowResult Bytes}
    {column : Strings} (hrows : column.values ≠ []) :
    serializeAsync inner false serialize column.array column.array.dataType =
      if 2 ^ 31 ≤ column.dict.flatten.length then .panic .unwrapNone
      else .ok (blockBytes (keyTypeFlag column.dict.length) column.dict.length
        (column.dict.flatMap writeString) column.indexes) := by
  have hlen : column.array.len ≠ 0 := fun h => hrows (List.length_eq_zero_iff.mp h)
  -- The entry for nulls is there where the array has one, whatever the type says.
  have hseed : (if (decide (0 < column.array.nullCount) || false) = true then [[]] else []) =
      if none ∈ column.cells then [([] : Bytes)] else [] := by
    simp only [Bool.or_false, decide_eq_true_eq, column.nullCount_pos_iff]
  have hinterned : internRows (if (decide (0 < column.array.nullCount) || false) = true then [[]]
      else []) column.cells = (column.dict, column.indexes) := by
    rw [hseed, internRows_eq]
    rfl
  have hbody : Binary.serializeAsync .binary (.bytes .binary column.dict none) =
      .ok (column.dict.flatMap writeString) := by
    show Except.ok ((column.dict.map some).flatMap fun row => writeString (row.getD [])) = _
    rw [List.flatMap_map]
    rfl
  have hdispatch : serializeAsync inner false serialize column.array column.array.dataType =
      writeStringValues column.array false := by
    show (if column.array.len = 0 then _ else writeStringValues column.array false) = _
    rw [if_neg hlen]
  -- An index is cast to 32 bits, which a dictionary that can be built does not exceed.
  have hindexes : column.indexes.flatMap (writeIndex (keyTypeFlag column.dict.length)) =
      column.indexes.flatMap (keyTypeFlag column.dict.length).put ∨
        2 ^ 31 ≤ column.dict.flatten.length := by
    by_cases hsize : 2 ^ 31 ≤ column.dict.flatten.length
    · exact .inr hsize
    · left
      have hdict := column.length_dict_le (Nat.not_le.mp hsize)
      refine List.flatMap_congr fun i hi => writeIndex_eq _ ?_
      exact Nat.lt_of_lt_of_le (Strings.lt_of_mem_indexes hi) hdict
  have hwrite : writeStringValues column.array false = (binaryArrayOf column.dict >>= fun dict =>
      Binary.serializeAsync .binary dict >>= fun body =>
        .ok (putUsize ((keyTypeFlag column.dict.length).code ||| hasAdditionalKeysBit) ++
          putUsize column.dict.length ++ body ++ putUsize column.indexes.length ++
          column.indexes.flatMap (writeIndex (keyTypeFlag column.dict.length)))) := by
    have hdict : column.dict = _ := (congrArg Prod.fst hinterned).symm
    have hkeys : column.indexes = _ := (congrArg Prod.snd hinterned).symm
    rw [hkeys, hdict]
    rfl
  rw [hdispatch, hwrite, binaryArrayOf]
  by_cases hsize : 2 ^ 31 ≤ column.dict.flatten.length
  · rw [if_pos hsize, if_pos hsize]
    rfl
  · rw [if_neg hsize, if_neg hsize, Outcome.ok_bind, hbody, Outcome.ok_bind,
      hindexes.resolve_right hsize, blockBytes]
    simp only [List.append_assoc]

end LowCardinality

/-! ## The dictionary that is read -/

section Text

variable (options : Option ArrowOptions)

/-- What the values of a dictionary of strings are announced, decoded and built as. -/
def textType : BytesType := if wantsStrings options then .utf8 else .binary

def textHint : ChType := if wantsStrings options then .string else .binary

def textBuilder : TypedBuilder := if wantsStrings options then .string else .binary

/-- The value that is read for a string. -/
def readAs (s : Bytes) : Bytes := if wantsStrings options then fromUtf8Lossy s else s

/-- The type of the strings, nullable or not. -/
def stringType (nullable : Bool) (t : ChType) : ChType := if nullable then .nullable t else t

theorem announced_strings (nullable : Bool) :
    chToArrowType (.lowCardinality (stringType nullable .string)) options =
      .ok (.dictionary (.primitive .int32) (.bytes (textType options)), nullable) := by
  cases nullable <;> rfl

theorem typeHint_strings (nullable : Bool) :
    typeHint (.lowCardinality (stringType nullable .string))
        (.dictionary (.primitive .int32) (.bytes (textType options))) =
      .lowCardinality (stringType nullable (textHint options)) := by
  unfold textType textHint
  cases nullable <;> cases wantsStrings options <;> rfl

theorem built_strings (nullable : Bool) :
    TypedBuilder.tryNew (.lowCardinality (stringType nullable (textHint options)))
        (.dictionary (.primitive .int32) (.bytes (textType options))) =
      .ok (.lowCardinality .int32 (textBuilder options)) := by
  unfold textType textHint textBuilder
  cases nullable <;> cases wantsStrings options <;> rfl

theorem isNullable_stringType (nullable : Bool) :
    (stringType nullable (textHint options)).isNullable = nullable := by
  unfold textHint
  cases nullable <;> cases wantsStrings options <;> rfl

/-- The decoder of a dictionary of strings. -/
theorem deserializeArrowAsync_strings (json : Bytes → Bytes) (nullable : Bool) :
    deserializeArrowAsync json (.lowCardinality (stringType nullable (textHint options))) =
      LowCardinality.deserializeAsync (stringType nullable (textHint options))
        (deserializeArrowAsync json (stringType nullable (textHint options)).stripNull) := by
  unfold textHint
  cases nullable <;> cases wantsStrings options <;> rfl

variable {options}

/-- The reader of one string. -/
def readStringAs (options : Option ArrowOptions) : Reader ArrowError Bytes :=
  readAs options <$> readText .async

theorem decode_strings (json : Bytes → Bytes) (nullable : Bool) (d : DataType) (rows : Nat)
    (nulls : Bytes) :
    deserializeArrowAsync json (stringType nullable (textHint options)).stripNull
        (textBuilder options) d rows nulls =
      finishBytes (textType options) <$> optValues nulls (readStringAs options) .ok 0 rows := by
  have hid : (fun s : Bytes => s) <$> readText .async = readText .async := by
    funext bs
    rw [Reader.map_apply]
    cases readText .async bs <;> rfl
  unfold readStringAs readAs textHint textType textBuilder
  cases wantsStrings options with
  | true => cases nullable <;> rfl
  | false =>
      show _ = finishBytes .binary <$> optValues nulls ((fun s : Bytes => s) <$> readText .async) .ok 0 rows
      rw [hid]
      cases nullable <;> rfl

theorem readStringAs_reads {s : Bytes} (h : s.length ≤ maxStringSize) :
    Reads (readStringAs options) (writeString s) (readAs options s) :=
  ((readString_reads .async s h).mapError _).map _

theorem readStringAs_stuck {s : Bytes} (hlong : maxStringSize < s.length)
    (hlength : s.length < 2 ^ 63) : Stuck (readStringAs options) (writeString s) :=
  ((readString_stuck .async hlong hlength).mapError _).map _

end Text

/-! ## Which arrays come back -/

namespace Strings

open Arrow.LowCardinality

variable {options : Option ArrowOptions} {nullable : Bool} {column : Strings}

/-- The bytes of an array that the dictionary of fits. -/
def bytes (column : Strings) : Bytes :=
  blockBytes (keyTypeFlag column.dict.length) column.dict.length (column.dict.flatMap writeString)
    column.indexes

/-- The row that is read for a row. -/
def readRow (options : Option ArrowOptions) (nullable : Bool) (column : Strings)
    (row : Option Bytes) : Option Bytes :=
  if nullable = true ∧ indexOf column.dict row = 0 then none
  else (column.dict.map (readAs options))[indexOf column.dict row]?

theorem readable_dict (hlengths : ∀ s, some s ∈ column.cells → s.length ≤ maxStringSize) :
    ∀ s ∈ column.dict, s.length ≤ maxStringSize := by
  intro s hs
  rcases mem_dictionaryOf.mp hs with hseed | hrow
  · split_ifs at hseed
    · rw [List.mem_singleton.mp hseed]
      exact Nat.zero_le _
    · simp at hseed
  · exact hlengths s hrow

theorem lt_of_mem_dict (hsize : column.dict.flatten.length < 2 ^ 31) {s : Bytes}
    (hs : s ∈ column.dict) : s.length < 2 ^ 31 := by
  have hle : s.length ≤ column.dict.flatten.length := (List.sublist_flatten_of_mem hs).length_le
  omega

theorem serializeBy_strings (hrows : column.values ≠ []) (m : Mode) (nullable : Bool) :
    serializeBy m (.lowCardinality (stringType nullable .string)) column.array
        column.array.dataType =
      if 2 ^ 31 ≤ column.dict.flatten.length then .panic .unwrapNone else .ok column.bytes := by
  rw [serializeBy_eq]
  show serializeAsyncOf false (.lowCardinality (stringType nullable .string)) _ _ = _
  rw [serializeAsyncOf_lowCardinality, serializeAsync_strings hrows]
  rfl

theorem deserializeBy_strings (options : Option ArrowOptions) (nullable : Bool)
    (hrows : column.values ≠ [])
    (hsize : column.dict.flatten.length < 2 ^ 31)
    (hlengths : ∀ s, some s ∈ column.cells → s.length ≤ maxStringSize) (json : Bytes → Bytes)
    (m : Mode) (rest : Bytes) :
    ∃ array, deserializeBy json m (.lowCardinality (stringType nullable (textHint options)))
        (.lowCardinality .int32 (textBuilder options))
        (.dictionary (.primitive .int32) (.bytes (textType options))) column.values.length []
        (column.bytes ++ rest) = .ok (array, rest) ∧
      stringsOf array = some (column.cells.map (column.readRow options nullable)) := by
  have hdict := column.length_dict_le hsize
  have hpos := column.length_dict_pos hrows
  have haddressed := column.addressed
  have hlarge : (2 : Nat) ^ 31 ≤ isizeMax := by decide
  obtain ⟨mask, hmask⟩ :=
    exists_dictionaryMask (stringType nullable (textHint options)) hpos (by omega)
  have hmasked : Covers mask (column.dict.map (readAs options)).length ∧
      masked mask (column.dict.map (readAs options)) =
        readEntries nullable (column.dict.map (readAs options)) := by
    rw [← List.length_map (f := readAs options)] at hmask
    have h := masked_of_dictionaryMask hmask
    rwa [isNullable_stringType] at h
  -- The dictionary is read first, under a mask for the entry of nulls.
  have hvalues : Reads (deserializeArrowAsync json (stringType nullable (textHint options)).stripNull
      (textBuilder options) (.bytes (textType options)) column.dict.length mask)
      (column.dict.flatMap writeString)
      (finishBytes (textType options) (readEntries nullable (column.dict.map (readAs options)))) := by
    rw [decode_strings, ← hmasked.2]
    refine (optValues_reads (fun s hs => readStringAs_reads (readable_dict hlengths s hs))
      (fun s _ => rfl) ?_).map _
    rw [← List.length_map (f := readAs options)]
    exact hmasked.1
  have hindexes : ∀ i ∈ column.indexes, i < 2 ^ 31 ∧ i < (finishBytes (textType options)
      (readEntries nullable (column.dict.map (readAs options)))).len := by
    intro i hi
    have hlt := lt_of_mem_indexes hi
    refine ⟨by omega, ?_⟩
    show i < (List.map _ _).length
    rw [List.length_map, length_readEntries, List.length_map]
    exact hlt
  have hfits : ∀ i ∈ column.indexes, i < 256 ^ width (keyTypeFlag column.dict.length) :=
    fun i hi => lt_of_keyTypeFlag (lt_of_mem_indexes hi) (by omega)
  have hwidth : column.indexes.length * width (keyTypeFlag column.dict.length) ≤ isizeMax := by
    rw [column.length_indexes]
    have hle := width_keyTypeFlag_le (n := column.dict.length) (by omega)
    calc column.values.length * width (keyTypeFlag column.dict.length)
        ≤ (column.values.length + 1) * 4 := Nat.mul_le_mul (Nat.le_succ _) hle
      _ ≤ isizeMax := haddressed
  have hcount : column.indexes.length < 2 ^ 64 := by
    rw [column.length_indexes]
    have hbound : isizeMax < 2 ^ 64 := by decide
    omega
  -- Each index is read with its width, and points into what was read.
  have hread := deserializeAsync_block .int32 (by omega) hmask hvalues hcount hfits hwidth
    (.primitive .int32) rest
  rw [new_dictionary hindexes, Outcome.ok_bind, column.length_indexes] at hread
  refine ⟨.dictionary .int32 column.indexes none (finishBytes (textType options)
    (readEntries nullable (column.dict.map (readAs options)))),
    (deserializeBy_eq_ok m (built_strings options nullable)).mpr ?_, ?_⟩
  · rw [deserializeArrowAsync_strings]
    exact hread
  · rw [stringsOf_dictionary, resolved_map_some]
    simp only [getElem?_readEntries]
    rw [indexes, List.map_map]
    rfl

/-- What a row is read as, where it is a string. -/
theorem readRow_some {s : Bytes} (hs : some s ∈ column.cells) :
    column.readRow options nullable (some s) =
      if nullable = true ∧ column.dict[0]? = some s then none else some (readAs options s) := by
  have hentry : column.dict[indexOf column.dict (some s)]? = some s := getElem?_indexOf hs
  have hzero : indexOf column.dict (some s) = 0 ↔ column.dict[0]? = some s := by
    constructor
    · intro h
      rwa [h] at hentry
    · intro h
      have hlt := (List.getElem?_eq_some_iff.mp hentry).1
      exact (List.getElem?_inj hlt column.nodup_dict).mp (hentry.trans h.symm)
  simp only [readRow, hzero, List.getElem?_map, hentry, Option.map_some]

/-- The same with what is announced and built for the type. -/
theorem keepsStrings_iff_built :
    KeepsStrings options (.lowCardinality (stringType nullable .string)) column ↔
      ∀ (json : Bytes → Bytes) (m m' : Mode) (rest : Bytes), ∃ (bytes : Bytes) (array : ArrowArray),
        serializeBy m' (.lowCardinality (stringType nullable .string)) column.array
            column.array.dataType = .ok bytes ∧
          deserializeBy json m (.lowCardinality (stringType nullable (textHint options)))
            (.lowCardinality .int32 (textBuilder options))
            (.dictionary (.primitive .int32) (.bytes (textType options))) column.values.length []
            (bytes ++ rest) = .ok (array, rest) ∧
          stringsOf array = some column.cells := by
  have hbuilt := built_strings options nullable
  rw [← typeHint_strings] at hbuilt
  constructor
  · intro h json m m' rest
    obtain ⟨d, n, builder, bytes, array, hd, hb, hwrite, hread, hstrings⟩ := h json m m' rest
    rw [announced_strings] at hd
    cases hd
    rw [hbuilt] at hb
    cases hb
    rw [typeHint_strings] at hread
    exact ⟨bytes, array, hwrite, hread, hstrings⟩
  · intro h json m m' rest
    obtain ⟨bytes, array, hwrite, hread, hstrings⟩ := h json m m' rest
    rw [← typeHint_strings] at hread
    exact ⟨_, _, _, bytes, array, announced_strings options nullable, hbuilt, hwrite, hread,
      hstrings⟩

/-- What is read of an array that can be written and read. -/
theorem keepsStrings_iff_rows (hrows : column.values ≠ [])
    (hsize : column.dict.flatten.length < 2 ^ 31)
    (hlengths : ∀ s, some s ∈ column.cells → s.length ≤ maxStringSize) :
    KeepsStrings options (.lowCardinality (stringType nullable .string)) column ↔
      ∀ row ∈ column.cells, column.readRow options nullable row = row := by
  have hmap : column.cells.map (column.readRow options nullable) = column.cells ↔
      ∀ row ∈ column.cells, column.readRow options nullable row = row := by
    have h := List.map_inj_left (f := column.readRow options nullable) (g := id) (l := column.cells)
    rwa [List.map_id] at h
  rw [← hmap, keepsStrings_iff_built]
  constructor
  · intro h
    obtain ⟨bytes, array, hwrite, hread, hstrings⟩ := h id .async .async []
    rw [serializeBy_strings hrows, if_neg (Nat.not_le.mpr hsize)] at hwrite
    cases hwrite
    obtain ⟨array', hread', hstrings'⟩ :=
      deserializeBy_strings options nullable hrows hsize hlengths id .async []
    rw [hread] at hread'
    cases hread'
    rw [hstrings] at hstrings'
    exact (Option.some.inj hstrings').symm
  · intro h json m m' rest
    obtain ⟨array, hread, hstrings⟩ :=
      deserializeBy_strings options nullable hrows hsize hlengths json m rest
    refine ⟨column.bytes, array, ?_, hread, ?_⟩
    · rw [serializeBy_strings hrows, if_neg (Nat.not_le.mpr hsize)]
    · rw [hstrings, h]

/-- What is written and read has rows, a dictionary of 32-bit offsets, and strings that can be
read. -/
theorem writable_of_keepsStrings
    (h : KeepsStrings options (.lowCardinality (stringType nullable .string)) column) :
    column.values ≠ [] ∧ column.dict.flatten.length < 2 ^ 31 ∧
      ∀ s, some s ∈ column.cells → s.length ≤ maxStringSize := by
  obtain ⟨bytes, array, hwrite, hread, -⟩ := keepsStrings_iff_built.mp h id .async .async []
  rw [List.append_nil] at hread
  replace hread : deserializeArrowAsync id _ _ _ _ _ _ = _ := hread
  rw [deserializeArrowAsync_strings] at hread
  -- A column without rows is written as nothing, and the reader of a block wants a header.
  have hrows : column.values ≠ [] := by
    intro hnil
    have hlen : column.array.len = 0 := List.length_eq_zero_iff.mpr hnil
    have hempty : serializeBy .async (.lowCardinality (stringType nullable .string)) column.array
        column.array.dataType = .ok [] := by
      show serializeAsyncOf false (.lowCardinality (stringType nullable .string)) _ _ = _
      rw [serializeAsyncOf_lowCardinality, serializeAsync_empty _ _ _ _ hlen]
    rw [hempty] at hwrite
    cases hwrite
    exact deserializeAsync_nil _ _ _ _ _ _ _ hread
  rw [serializeBy_strings hrows] at hwrite
  split_ifs at hwrite with hsize
  · cases hwrite
  cases hwrite
  rw [Nat.not_le] at hsize
  refine ⟨hrows, hsize, fun s hs => ?_⟩
  by_contra hlong
  have hdict := column.length_dict_le hsize
  obtain ⟨mask, hmask⟩ := exists_dictionaryMask (stringType nullable (textHint options))
    (column.length_dict_pos hrows) (hdict.trans (by decide))
  -- A string that is too long is in the dictionary, and stops the reader there.
  have hvalues : Stuck (deserializeArrowAsync id (stringType nullable (textHint options)).stripNull
      (textBuilder options) (.bytes (textType options)) column.dict.length mask)
      (column.dict.flatMap writeString) := by
    have hlengthOf : ∀ s ∈ column.dict, s.length < 2 ^ 63 :=
      fun s hs => (lt_of_mem_dict hsize hs).trans (by decide)
    rw [decode_strings]
    apply Stuck.map
    have hread : ∀ s ∈ column.dict, Reads (readStringAs options) (writeString s) (readAs options s) ∧
        (Except.ok (readAs options s) : ArrowResult Bytes) = .ok (readAs options s) ∨
        Stuck (readStringAs options) (writeString s) := by
      intro s hs
      by_cases hlong : s.length ≤ maxStringSize
      · exact .inl ⟨readStringAs_reads hlong, rfl⟩
      · exact .inr (readStringAs_stuck (Nat.not_le.mp hlong) (hlengthOf s hs))
    have hmem : s ∈ column.dict := mem_dictionaryOf.mpr (.inr hs)
    exact optValues_stuck hread ⟨s, hmem, readStringAs_stuck (Nat.not_le.mp hlong) (hlengthOf s hmem)⟩
  have hstuck := deserializeAsync_block_stuck .int32 (by omega) hmask hvalues (.primitive .int32)
    (keyTypeFlag column.dict.length) column.indexes
  rw [column.length_indexes] at hstuck
  apply hstuck [] (array, [])
  rw [List.append_nil]
  exact hread

/-- With a null, the entry at zero is the empty string. -/
theorem getElem?_dict_of_null (h : none ∈ column.cells) : column.dict[0]? = some [] := by
  have hextends : [[]] <+: column.dict := by
    rw [dict, if_pos h]
    exact prefix_insertKeys _ _
  obtain ⟨more, hmore⟩ := hextends
  rw [← hmore]
  rfl

/-- Without one, it is the string of the first row. -/
theorem exists_first (hrows : column.values ≠ []) (h : none ∉ column.cells) :
    ∃ s, some s ∈ column.cells ∧ column.dict[0]? = some s := by
  have hlength := column.length_cells
  cases hcells : column.cells with
  | nil =>
      rw [hcells] at hlength
      exact absurd (List.length_eq_zero_iff.mp hlength.symm) hrows
  | cons row rows =>
      cases row with
      | none => exact absurd (by rw [hcells]; simp) h
      | some s =>
          have hextends : [s] <+: column.dict := by
            rw [dict, if_neg h, hcells]
            exact prefix_insertKeys _ _
          obtain ⟨more, hmore⟩ := hextends
          refine ⟨s, by simp, ?_⟩
          rw [← hmore]
          rfl

theorem readAs_eq_self_iff (options : Option ArrowOptions) (s : Bytes) :
    readAs options s = s ↔ (wantsStrings options = true → fromUtf8Lossy s = s) := by
  unfold readAs
  cases wantsStrings options <;> simp

/-- The strings that are read as they are. -/
theorem text_iff (column : Strings) :
    (∀ s, some s ∈ column.cells → readAs options s = s) ↔
      (wantsStrings options = true → column.type.isUtf8 = false →
        ∀ s, some s ∈ column.cells → fromUtf8Lossy s = s) := by
  simp only [readAs_eq_self_iff]
  constructor
  · exact fun h hwants _ s hs => h s hs hwants
  · intro h s hs hwants
    cases htype : column.type.isUtf8 with
    | false => exact h hwants htype s hs
    | true =>
        obtain ⟨text, rfl⟩ := column.utf8 htype s (mem_values hs)
        exact fromUtf8Lossy_utf8Bytes text

/-- Without a nullable type, the strings are read at the entries of their keys. -/
theorem rows_iff (h : none ∉ column.cells) :
    (∀ row ∈ column.cells, column.readRow options false row = row) ↔
      ∀ s, some s ∈ column.cells → readAs options s = s := by
  have hrow : ∀ s, some s ∈ column.cells →
      (column.readRow options false (some s) = some s ↔ readAs options s = s) := by
    intro s hs
    rw [readRow_some hs, if_neg (by simp), Option.some.injEq]
  constructor
  · exact fun hrows s hs => (hrow s hs).mp (hrows (some s) hs)
  · intro hrows row hmem
    cases row with
    | none => exact absurd hmem h
    | some s => exact (hrow s hmem).mpr (hrows s hmem)

theorem readRow_none : column.readRow options true none = none :=
  if_pos ⟨rfl, rfl⟩

/-- With a nullable type, a row with the key zero is read as a null. -/
theorem nullable_rows_iff (hrows : column.values ≠ []) :
    (∀ row ∈ column.cells, column.readRow options true row = row) ↔
      (∀ s, some s ∈ column.cells → readAs options s = s) ∧ none ∈ column.cells ∧
        some [] ∉ column.cells := by
  have hrow : ∀ s, some s ∈ column.cells → (column.readRow options true (some s) = some s ↔
      column.dict[0]? ≠ some s ∧ readAs options s = s) := by
    intro s hs
    rw [readRow_some hs]
    by_cases hfirst : column.dict[0]? = some s
    · rw [if_pos ⟨rfl, hfirst⟩]
      simp [hfirst]
    · rw [if_neg (fun h => hfirst h.2), Option.some.injEq]
      simp [hfirst]
  constructor
  · intro h
    have hsome : ∀ s, some s ∈ column.cells → column.dict[0]? ≠ some s ∧ readAs options s = s :=
      fun s hs => (hrow s hs).mp (h (some s) hs)
    have hnull : none ∈ column.cells := by
      by_contra hnot
      obtain ⟨s, hs, hfirst⟩ := exists_first hrows hnot
      exact (hsome s hs).1 hfirst
    exact ⟨fun s hs => (hsome s hs).2, hnull,
      fun hempty => (hsome [] hempty).1 (getElem?_dict_of_null hnull)⟩
  · rintro ⟨hsame, hnull, hempty⟩ row hmem
    cases row with
    | none => exact readRow_none
    | some s =>
        apply (hrow s hmem).mpr
        refine ⟨?_, hsame s hmem⟩
        rw [getElem?_dict_of_null hnull]
        rintro heq
        cases heq
        exact hempty hmem

theorem keepsStrings_iff_of (nullable : Bool) {P : Prop}
    (h : column.values ≠ [] → ((∀ row ∈ column.cells, column.readRow options nullable row = row) ↔
      (∀ s, some s ∈ column.cells → readAs options s = s) ∧ P)) :
    KeepsStrings options (.lowCardinality (stringType nullable .string)) column ↔
      column.Carried options ∧ P := by
  constructor
  · intro hkeeps
    obtain ⟨hrows, hsize, hlengths⟩ := writable_of_keepsStrings hkeeps
    obtain ⟨hsame, hP⟩ := (h hrows).mp ((keepsStrings_iff_rows hrows hsize hlengths).mp hkeeps)
    rw [length_flatten_dict] at hsize
    exact ⟨⟨hrows, hsize, hlengths, column.text_iff.mp hsame⟩, hP⟩
  · rintro ⟨hcarried, hP⟩
    have hsize := hcarried.size
    rw [← length_flatten_dict] at hsize
    exact (keepsStrings_iff_rows hcarried.rows hsize hcarried.lengths).mpr
      ((h hcarried.rows).mpr ⟨column.text_iff.mpr hcarried.text, hP⟩)

end Strings

/-- **An array of strings comes back from a `LowCardinality` of strings as it was**, if it can be
carried; **and from one of nullable strings exactly if it has, besides, a null and no empty
string.** -/
theorem keepsStrings_iff (options : Option ArrowOptions) (column : Strings) :
    (none ∉ column.cells →
      (KeepsStrings options (.lowCardinality .string) column ↔ column.Carried options)) ∧
      (KeepsStrings options (.lowCardinality (.nullable .string)) column ↔
        column.Carried options ∧ none ∈ column.cells ∧ some [] ∉ column.cells) := by
  constructor
  · intro hnull
    have h : KeepsStrings options (.lowCardinality .string) column ↔
        column.Carried options ∧ True :=
      Strings.keepsStrings_iff_of false fun _ => by
        rw [and_true]
        exact Strings.rows_iff hnull
    rwa [and_true] at h
  · exact Strings.keepsStrings_iff_of true Strings.nullable_rows_iff

/-- Repeated strings, one of them empty, as strings; and a null, as nullable strings. -/
theorem keepsStrings_iff_sample :
    KeepsStrings none (.lowCardinality .string)
        ⟨.utf8View, [[97], [], [97]], none, by simp [Nulls.Fit], by decide, by
          intro _ value hvalue
          simp only [List.mem_cons, List.not_mem_nil, or_false] at hvalue
          rcases hvalue with rfl | rfl | rfl
          · exact ⟨"a", by decide⟩
          · exact ⟨"", by decide⟩
          · exact ⟨"a", by decide⟩⟩ ∧
      KeepsStrings none (.lowCardinality (.nullable .string))
        ⟨.binary, [[97], [0], [0xFF]], some [true, false, true], by simp [Nulls.Fit], by decide,
          fun h => by cases h⟩ := by
  constructor
  · apply ((keepsStrings_iff none _).1 (by decide)).mpr
    refine ⟨by decide, by decide, ?_, fun h => by cases h⟩
    intro s hs
    have hmem := Strings.mem_values hs
    simp only [List.mem_cons, List.not_mem_nil, or_false] at hmem
    rcases hmem with rfl | rfl | rfl <;> decide
  · apply (keepsStrings_iff none _).2.mpr
    refine ⟨⟨by decide, by decide, ?_, fun h => by cases h⟩, by decide, by decide⟩
    intro s hs
    have hmem := Strings.mem_values hs
    simp only [List.mem_cons, List.not_mem_nil, or_false] at hmem
    rcases hmem with rfl | rfl | rfl <;> decide

/-- A string without a null next to it, and an empty string with one. -/
theorem not_keepsStrings_samples :
    ¬ KeepsStrings none (.lowCardinality (.nullable .string))
        ⟨.binary, [[97]], none, by simp [Nulls.Fit], by decide, fun h => by cases h⟩ ∧
      ¬ KeepsStrings none (.lowCardinality (.nullable .string))
        ⟨.binary, [[], []], some [true, false], by simp [Nulls.Fit], by decide,
          fun h => by cases h⟩ := by
  constructor
  · intro h
    have hnull := ((Strings.keepsStrings_iff_of true Strings.nullable_rows_iff).mp h).2.1
    exact absurd hnull (by decide)
  · intro h
    have hempty := ((Strings.keepsStrings_iff_of true Strings.nullable_rows_iff).mp h).2.2
    exact absurd hempty (by decide)

end Arrow

end ClickhouseArrow
