import ClickhouseArrow.Arrow.ColumnReads
import ClickhouseArrow.Native.BlockRoundTrip
import Mathlib.Data.List.Nodup
import Mathlib.Data.List.ReduceOption

/-!
# Enum columns that are read and written back

The decoder makes a dictionary of the labels in the order in which they first appear; the
encoder takes a dictionary whose values are all the labels of the type in their order.
-/

namespace ClickhouseArrow

open Wire

namespace Arrow

namespace Enums

/-! ## The dictionary of a column -/

/-- `k = a`, as the dictionaries of the Arrow library compare. -/
def sameLabel (k a : Bytes) : Bool := decide (k = a)

theorem decidesEq_sameLabel (labels : List Bytes) : DecidesEq sameLabel labels :=
  fun _ _ _ => decide_eq_true_iff

/-- The labels that occur, in the order in which they first do. -/
def firstSeen (rows : List (Option Bytes)) : List Bytes :=
  insertKeys sameLabel [] rows.reduceOption

/-- The rows as they are appended to the builder, after some labels. -/
def labelRows (maxKey : Nat) :
    List Bytes → List (Option Bytes) → ArrowResult (List Bytes × List (Option Nat))
  | labels, [] => .ok (labels, [])
  | labels, none :: rows => do
      let rest ← labelRows maxKey labels rows
      .ok (rest.1, none :: rest.2)
  | labels, some label :: rows => do
      let entry ← appendLabel maxKey labels label
      let rest ← labelRows maxKey entry.1 rows
      .ok (rest.1, some entry.2 :: rest.2)

theorem any_iff_indexOfKey (labels : List Bytes) (label : Bytes) :
    (labels.any fun k => sameLabel k label) = true ↔
      (indexOfKey sameLabel labels label).isSome = true := by
  rw [indexOfKey, List.findIdx?_isSome]

/-- A label that is appended is found where it was added or had been before. -/
theorem appendLabel_eq {maxKey : Nat} {labels : List Bytes} {label : Bytes}
    (hroom : (insertKey sameLabel labels label).length ≤ maxKey + 1) :
    ∃ key, appendLabel maxKey labels label = .ok (insertKey sameLabel labels label, key) ∧
      indexOfKey sameLabel (insertKey sameLabel labels label) label = some key := by
  have hindex : (labels.findIdx? fun k => decide (k = label)) = indexOfKey sameLabel labels label :=
    rfl
  unfold appendLabel insertKey at *
  cases hfound : indexOfKey sameLabel labels label with
  | some key =>
      have hany := (any_iff_indexOfKey labels label).mpr (Option.isSome_of_eq_some hfound)
      rw [if_pos hany, hindex, hfound]
      exact ⟨key, rfl, rfl⟩
  | none =>
      have hany : ¬ (labels.any fun k => sameLabel k label) = true := by
        rw [any_iff_indexOfKey, hfound]
        exact Bool.false_ne_true
      rw [if_neg hany] at hroom ⊢
      rw [List.length_append, List.length_singleton] at hroom
      rw [hindex, hfound]
      refine ⟨labels.length, if_neg (by omega), ?_⟩
      unfold indexOfKey at hfound ⊢
      rw [List.findIdx?_append, hfound]
      simp [sameLabel]

theorem appendLabel_panics {maxKey : Nat} {labels : List Bytes} {label : Bytes}
    (hroom : maxKey + 1 < (insertKey sameLabel labels label).length)
    (hlabels : labels.length ≤ maxKey + 1) :
    appendLabel maxKey labels label = .panic .unwrapNone := by
  have hindex : (labels.findIdx? fun k => decide (k = label)) = indexOfKey sameLabel labels label :=
    rfl
  unfold appendLabel insertKey at *
  cases hfound : indexOfKey sameLabel labels label with
  | some key =>
      have hany := (any_iff_indexOfKey labels label).mpr (Option.isSome_of_eq_some hfound)
      rw [if_pos hany] at hroom
      omega
  | none =>
      have hany : ¬ (labels.any fun k => sameLabel k label) = true := by
        rw [any_iff_indexOfKey, hfound]
        exact Bool.false_ne_true
      rw [if_neg hany, List.length_append, List.length_singleton] at hroom
      rw [hindex, hfound]
      exact if_pos (by omega)

/-- The keys of the rows in a dictionary of labels. -/
def keysOf (labels : List Bytes) (rows : List (Option Bytes)) : List (Option Nat) :=
  rows.map fun row => row.bind (indexOfKey sameLabel labels)

/-- While the keys fit, the dictionary is that of the labels in the order of their first
appearance, and each row has the key of its label in the whole of it. -/
theorem labelRows_eq {maxKey : Nat} {labels : List Bytes} {rows : List (Option Bytes)}
    (hroom : (insertKeys sameLabel labels rows.reduceOption).length ≤ maxKey + 1) :
    labelRows maxKey labels rows =
      .ok (insertKeys sameLabel labels rows.reduceOption,
        keysOf (insertKeys sameLabel labels rows.reduceOption) rows) := by
  induction rows generalizing labels with
  | nil => rfl
  | cons row rows ih =>
      cases row with
      | none =>
          rw [labelRows, ih hroom]
          rfl
      | some label =>
          have hextends : insertKey sameLabel labels label <+:
              insertKeys sameLabel (insertKey sameLabel labels label) rows.reduceOption :=
            prefix_insertKeys _ _
          have hroom' : (insertKey sameLabel labels label).length ≤ maxKey + 1 :=
            hextends.length_le.trans hroom
          obtain ⟨key, happend, hkey⟩ := appendLabel_eq hroom'
          have hkey' : indexOfKey sameLabel
              (insertKeys sameLabel (insertKey sameLabel labels label) rows.reduceOption) label =
                some key := indexOfKey_of_extends hextends hkey
          rw [labelRows, happend, Outcome.ok_bind, ih hroom, Outcome.ok_bind]
          show _ = Except.ok (_, Option.bind (some label) _ :: _)
          rw [Option.bind_some]
          show _ = Except.ok (_, indexOfKey sameLabel
            (insertKeys sameLabel (insertKey sameLabel labels label) rows.reduceOption) label :: _)
          rw [hkey']
          rfl

theorem labelRows_panics {maxKey : Nat} {labels : List Bytes} {rows : List (Option Bytes)}
    (hroom : maxKey + 1 < (insertKeys sameLabel labels rows.reduceOption).length)
    (hlabels : labels.length ≤ maxKey + 1) :
    labelRows maxKey labels rows = .panic .unwrapNone := by
  induction rows generalizing labels with
  | nil => exact absurd hroom (Nat.not_lt.mpr hlabels)
  | cons row rows ih =>
      cases row with
      | none =>
          rw [labelRows, ih hroom hlabels]
          rfl
      | some label =>
          rw [labelRows]
          rcases Nat.lt_or_ge (maxKey + 1) (insertKey sameLabel labels label).length with hlt | hge
          · rw [appendLabel_panics hlt hlabels]
            rfl
          · obtain ⟨key, happend, -⟩ := appendLabel_eq hge
            rw [happend, Outcome.ok_bind, ih hroom hge]
            rfl

/-! ## Decoding -/

section Decoding

variable {α : Type} [DecidableEq α]

/-- The label of an index. -/
def labelOf (pairs : List (String × α)) (idx : α) : Option Bytes :=
  (pairs.find? fun pair => pair.2 = idx).map fun pair => utf8Bytes pair.1

/-- The labels of the rows, none for a null. -/
def labelsOf (pairs : List (String × α)) (entries : List (Option α)) : List (Option Bytes) :=
  entries.map fun entry => entry.bind (labelOf pairs)

/-- The rows that are not null have indexes of the type. -/
def Known (pairs : List (String × α)) (entries : List (Option α)) : Prop :=
  ∀ idx, some idx ∈ entries → idx ∈ pairs.map Prod.snd

theorem exists_pair_of_known {pairs : List (String × α)} {idx : α}
    (h : idx ∈ pairs.map Prod.snd) :
    ∃ pair, pairs.find? (fun pair => pair.2 = idx) = some pair ∧ pair ∈ pairs ∧ pair.2 = idx := by
  obtain ⟨pair, hpair, hidx⟩ := List.mem_map.mp h
  have hsome : (pairs.find? fun pair => pair.2 = idx).isSome := by
    rw [List.find?_isSome]
    exact ⟨pair, hpair, decide_eq_true hidx⟩
  obtain ⟨found, hfound⟩ := Option.isSome_iff_exists.mp hsome
  have hidx' := List.find?_some hfound
  exact ⟨found, hfound, List.mem_of_find?_eq_some hfound, by simpa using hidx'⟩

/-- What the decoder makes of the bytes of a column is what the builder makes of its labels. -/
theorem enumRows_eq [Word α] (m : Mode) (notFound : α → ArrowError) (maxKey : Nat)
    (pairs : List (String × α)) {nulls : Bytes} {valids : List Bool} {indexes : List α}
    (hknown : Known pairs (keep valids indexes)) (labels : List Bytes) {row : Nat}
    (hvalids : ValidFrom nulls row valids) (hlength : valids.length = indexes.length)
    (rest : Bytes) :
    enumRows m notFound maxKey pairs nulls labels row indexes.length
        (indexes.flatMap putLe ++ rest) =
      (fun rows => (rows, rest)) <$> labelRows maxKey labels (labelsOf pairs (keep valids indexes)) := by
  induction indexes generalizing labels row valids with
  | nil =>
      obtain rfl := List.length_eq_zero_iff.mp hlength
      rfl
  | cons idx indexes ih =>
      match valids, hlength, hvalids with
      | valid :: valids, hlength, ⟨hvalid, hvalids⟩ =>
        have hknown' : Known pairs (keep valids indexes) :=
          fun i hi => hknown i (List.mem_cons_of_mem _ hi)
        have hrest := fun labels => ih hknown' labels hvalids (Nat.succ.inj hlength)
        have hget := Reads.getLe (eof m) idx
        rw [List.flatMap_cons, List.append_assoc, List.length_cons, enumRows, Reader.bind_apply,
          hget, Outcome.ok_bind]
        simp only [hvalid, Reader.ofOutcome_ok, Reader.bind_apply, Reader.pure_apply,
          Outcome.ok_bind]
        cases valid with
        | false =>
            have hlabels : labelsOf pairs (keep (false :: valids) (idx :: indexes)) =
                none :: labelsOf pairs (keep valids indexes) := rfl
            -- A null row takes its bytes and looks nothing up.
            rw [if_neg Bool.false_ne_true, hlabels, labelRows, Reader.bind_apply, hrest]
            cases labelRows maxKey labels (labelsOf pairs (keep valids indexes)) <;> rfl
        | true =>
            obtain ⟨pair, hpair, -, -⟩ := exists_pair_of_known (hknown idx List.mem_cons_self)
            have hlabel : labelOf pairs idx = some (utf8Bytes pair.1) := by
              rw [labelOf, hpair]
              rfl
            have hlabels : labelsOf pairs (keep (true :: valids) (idx :: indexes)) =
                some (utf8Bytes pair.1) :: labelsOf pairs (keep valids indexes) := by
              rw [← hlabel]
              rfl
            -- The label may be a new one, so the rest is read with the table that it leaves.
            rw [if_pos rfl, hpair, hlabels, labelRows]
            dsimp only
            cases appendLabel maxKey labels (utf8Bytes pair.1) with
            | error e => rfl
            | ok entry =>
                simp only [Reader.ofOutcome_ok, Reader.bind_apply, Reader.pure_apply,
                  Outcome.ok_bind, hrest]
                cases labelRows maxKey entry.1 (labelsOf pairs (keep valids indexes)) <;> rfl

end Decoding

/-! ## Encoding -/

section Encoding

variable {α : Type}

/-- The labels of a type, in the order of its declaration. -/
def declared (pairs : List (String × α)) : List Bytes := pairs.map fun pair => utf8Bytes pair.1

theorem checkLabels_eq_ok {i : Nat} {labels : List Bytes} {pairs : List (String × α)}
    (h : labels.length = pairs.length) :
    checkLabels i labels pairs = .ok () ↔ labels = declared pairs := by
  induction pairs generalizing labels i with
  | nil =>
      obtain rfl := List.length_eq_zero_iff.mp h
      exact ⟨fun _ => rfl, fun _ => rfl⟩
  | cons pair pairs ih =>
      match labels, h with
      | label :: labels, h =>
        rw [checkLabels, declared, List.map_cons, List.cons.injEq]
        by_cases hlabel : label = utf8Bytes pair.1
        · rw [if_neg (not_not.mpr hlabel), ih (Nat.succ.inj h)]
          exact ⟨fun hrest => ⟨hlabel, hrest⟩, fun hrest => hrest.2⟩
        · rw [if_pos hlabel]
          exact ⟨fun hok => absurd hok (by simp [Outcome.fail]), fun hrest => absurd hrest.1 hlabel⟩

/-- The value that is written for a key. -/
def valueAt [Word α] (cast : Int → α) (pairs : List (String × α)) (key : Option Nat) : ArrowResult Bytes :=
  match key with
  | none => .ok (putLe (cast 0))
  | some k =>
      match pairs[k]? with
      | some pair => .ok (putLe pair.2)
      | none => .fail (.arrowSerialize [.text "Dictionary key ", .number k, .text " out of bounds"])

/-- A dictionary is written if its labels are those of the type in their order. -/
theorem writeEnumValues_finishLabels [Word α] [DecidableEq α] (cast : Int → α) (toInt : α → Int)
    (pairs : List (String × α)) (key : KeyType) (rows : List Bytes × List (Option Nat))
    (bytes : Bytes) :
    writeEnumValues cast toInt pairs (finishLabels key rows) = .ok bytes ↔
      rows.1 = declared pairs ∧ Outcome.emit (valueAt cast pairs) rows.2 = .ok bytes := by
  show (if rows.1.length ≠ pairs.length then _ else _) = _ ↔ _
  by_cases hlength : rows.1.length = pairs.length
  · rw [if_neg (not_not.mpr hlength)]
    by_cases hlabels : rows.1 = declared pairs
    · rw [(checkLabels_eq_ok hlength).mpr hlabels, Outcome.ok_bind, slots_finished]
      exact ⟨fun h => ⟨hlabels, h⟩, fun h => h.2⟩
    · constructor
      · intro h
        obtain ⟨u, hu, -⟩ := Outcome.bind_eq_ok.mp h
        exact absurd ((checkLabels_eq_ok hlength).mp hu) hlabels
      · exact fun h => absurd h.1 hlabels
  · rw [if_pos hlength]
    constructor
    · exact fun h => absurd h (by simp [Outcome.fail])
    · rintro ⟨hlabels, -⟩
      rw [hlabels, declared, List.length_map] at hlength
      exact absurd rfl hlength

theorem utf8Bytes_injective {s s' : String} (h : utf8Bytes s = utf8Bytes s') : s = s' := by
  have hs := fromUtf8_utf8Bytes s
  rw [h, fromUtf8_utf8Bytes s'] at hs
  exact (Except.ok.inj hs).symm

/-- In the dictionary of all labels, the key of the label of an index is that of the index. -/
theorem valueAt_label [Word α] [DecidableEq α] (cast : Int → α) {pairs : List (String × α)}
    (hnodup : (pairs.map Prod.fst).Nodup) {idx : α} (h : idx ∈ pairs.map Prod.snd) :
    ∃ key, (labelOf pairs idx).bind (indexOfKey sameLabel (declared pairs)) = some key ∧
      valueAt cast pairs (some key) = .ok (putLe idx) := by
  obtain ⟨pair, hfind, hmem, hidx⟩ := exists_pair_of_known h
  obtain ⟨key, hkey, hlabel⟩ := exists_indexOfKey (decidesEq_sameLabel [utf8Bytes pair.1])
    List.mem_cons_self (List.mem_map.mpr ⟨pair, hmem, rfl⟩ : utf8Bytes pair.1 ∈ declared pairs)
  refine ⟨key, ?_, ?_⟩
  · rw [labelOf, hfind, Option.map_some, Option.bind_some]
    exact hkey
  · have hnamed : (pairs.map fun pair => utf8Bytes pair.1)[key]? = some (utf8Bytes pair.1) := hlabel
    rw [List.getElem?_map, Option.map_eq_some_iff] at hnamed
    obtain ⟨found, hfound, hname⟩ := hnamed
    have hfst : found.1 = pair.1 := utf8Bytes_injective hname
    have hpair : found = pair :=
      List.inj_on_of_nodup_map hnodup (List.mem_of_getElem? hfound) hmem hfst
    rw [valueAt, hfound, hpair]
    exact congrArg (fun i => Except.ok (putLe i)) hidx

/-- The values that are written for the rows of a column: a zero for a null. -/
theorem emit_keysOf [Word α] [DecidableEq α] (cast : Int → α) {pairs : List (String × α)}
    (hnodup : (pairs.map Prod.fst).Nodup) {entries : List (Option α)} (h : Known pairs entries) :
    Outcome.emit (valueAt cast pairs) (keysOf (declared pairs) (labelsOf pairs entries)) =
      .ok ((entries.map fun entry => entry.getD (cast 0)).flatMap putLe) := by
  induction entries with
  | nil => rfl
  | cons entry entries ih =>
      have hrest := ih fun idx hidx => h idx (List.mem_cons_of_mem entry hidx)
      have hhead : valueAt cast pairs
          ((entry.bind (labelOf pairs)).bind (indexOfKey sameLabel (declared pairs))) =
            .ok (putLe (entry.getD (cast 0))) := by
        cases entry with
        | none => rfl
        | some idx =>
            obtain ⟨key, hkey, hvalue⟩ := valueAt_label cast hnodup (h idx List.mem_cons_self)
            rw [Option.bind_some, hkey, hvalue]
            rfl
      show Outcome.emit (valueAt cast pairs)
        ((entry.bind (labelOf pairs)).bind (indexOfKey sameLabel (declared pairs)) ::
          keysOf (declared pairs) (labelsOf pairs entries)) = _
      rw [Outcome.emit, hhead, Outcome.ok_bind, hrest, Outcome.ok_bind, List.map_cons,
        List.flatMap_cons]

end Encoding

/-! ## Read and written back -/

section Columns

variable {α : Type} [Word α] [DecidableEq α]

/-- What a column is read back and written as, up to the mask of its nulls. -/
theorem enumRows_writeEnumValues_iff (m : Mode) (notFound : α → ArrowError) (maxKey : Nat)
    (cast : Int → α) (toInt : α → Int) (key : KeyType) {pairs : List (String × α)}
    (hnodup : (pairs.map Prod.fst).Nodup) {nulls : Bytes} {indexes : List α}
    (hcovers : Covers nulls indexes.length) (hknown : Known pairs (masked nulls indexes))
    (rest : Bytes) :
    (∃ rows, enumRows m notFound maxKey pairs nulls [] 0 indexes.length
          (indexes.flatMap putLe ++ rest) = .ok (rows, rest) ∧
        writeEnumValues cast toInt pairs (finishLabels key rows) = .ok (indexes.flatMap putLe)) ↔
      firstSeen (labelsOf pairs (masked nulls indexes)) = declared pairs ∧
        pairs.length ≤ maxKey + 1 ∧
        (masked nulls indexes).map (fun entry => entry.getD (cast 0)) = indexes := by
  rw [enumRows_eq m notFound maxKey pairs hknown [] (validFrom_zero nulls indexes.length)
    (validities_length hcovers) rest]
  show (∃ rows, (fun rows => (rows, rest)) <$>
    labelRows maxKey [] (labelsOf pairs (masked nulls indexes)) = _ ∧ _) ↔ _
  have hdeclared : (declared pairs).length = pairs.length := List.length_map _
  -- The keys run out where there are more labels than the key type can number.
  by_cases hroom : (firstSeen (labelsOf pairs (masked nulls indexes))).length ≤ maxKey + 1
  · rw [labelRows_eq hroom]
    constructor
    · rintro ⟨rows, hrows, hwritten⟩
      cases hrows
      obtain ⟨hlabels, hbytes⟩ := (writeEnumValues_finishLabels cast toInt pairs key _ _).mp hwritten
      have hemit := emit_keysOf cast hnodup hknown
      rw [← hlabels] at hemit
      rw [hemit] at hbytes
      have hlength : ((masked nulls indexes).map fun entry => entry.getD (cast 0)).length =
          indexes.length := by
        rw [List.length_map, masked_length hcovers]
      refine ⟨hlabels, ?_, flatMap_putLe_injective hlength (Except.ok.inj hbytes)⟩
      rw [← hdeclared, ← hlabels]
      exact hroom
    · rintro ⟨hlabels, -, hindexes⟩
      refine ⟨_, rfl, (writeEnumValues_finishLabels cast toInt pairs key _ _).mpr ⟨hlabels, ?_⟩⟩
      have hemit := emit_keysOf cast hnodup hknown
      rw [← hlabels, hindexes] at hemit
      exact hemit
  · rw [labelRows_panics (Nat.lt_of_not_le hroom) (Nat.zero_le _)]
    constructor
    · rintro ⟨rows, hrows, -⟩
      exact absurd hrows (by simp [Outcome.panic])
    · rintro ⟨hlabels, hpairs, -⟩
      rw [hlabels, hdeclared] at hroom
      exact absurd hpairs hroom

end Columns

/-! ## Null masks -/

/-- The mask of rows that are null or not. -/
def nullBytes (isNull : List Bool) : Bytes := isNull.map fun null => if null then 1 else 0

/-- The mask of a column, where it has one. -/
def maskBytes (mask : Option (List Bool)) : Bytes := mask.elim [] nullBytes

/-- The type of a column with a mask, and of one without. -/
def underMask (mask : Option (List Bool)) (t : ChType) : ChType :=
  match mask with
  | none => t
  | some _ => .nullable t

/-- The mask has an entry for every row. -/
def Masks (mask : Option (List Bool)) (rows : Nat) : Prop :=
  ∀ isNull, mask = some isNull → isNull.length = rows

theorem Masks.covers {mask : Option (List Bool)} {rows : Nat} (h : Masks mask rows) :
    Covers (maskBytes mask) rows := by
  cases mask with
  | none => exact .inl rfl
  | some isNull =>
      refine .inr ?_
      show (nullBytes isNull).length = rows
      rw [nullBytes, List.length_map]
      exact h isNull rfl

/-- Every label that occurs has a key. -/
theorem isSome_keysOf (rows : List (Option Bytes)) :
    (keysOf (firstSeen rows) rows).map Option.isSome = rows.map Option.isSome := by
  rw [keysOf, List.map_map]
  refine List.map_congr_left fun row hrow => ?_
  cases row with
  | none => rfl
  | some label =>
      obtain ⟨key, hkey, -⟩ := indexOfKey_insertKeys (decidesEq_sameLabel rows.reduceOption) []
        (List.reduceOption_mem_iff.mpr hrow)
      show ((some label).bind (indexOfKey sameLabel (firstSeen rows))).isSome = true
      rw [Option.bind_some]
      exact Option.isSome_of_eq_some hkey

theorem isSome_labelsOf {α : Type} [DecidableEq α] {pairs : List (String × α)}
    {entries : List (Option α)} (h : Known pairs entries) :
    (labelsOf pairs entries).map Option.isSome = entries.map Option.isSome := by
  rw [labelsOf, List.map_map]
  refine List.map_congr_left fun entry hentry => ?_
  cases entry with
  | none => rfl
  | some idx =>
      obtain ⟨pair, hpair, -, -⟩ := exists_pair_of_known (h idx hentry)
      show (labelOf pairs idx).isSome = true
      rw [labelOf, hpair]
      rfl

theorem isSome_of_enumRows {α : Type} [Word α] [DecidableEq α] {m : Mode}
    {notFound : α → ArrowError} {maxKey : Nat} {pairs : List (String × α)} {nulls : Bytes}
    {indexes : List α} (hcovers : Covers nulls indexes.length)
    (hknown : Known pairs (masked nulls indexes)) {rest : Bytes}
    {rows : List Bytes × List (Option Nat)}
    (h : enumRows m notFound maxKey pairs nulls [] 0 indexes.length
      (indexes.flatMap putLe ++ rest) = .ok (rows, rest)) :
    rows.2.map Option.isSome = validities nulls indexes.length := by
  rw [enumRows_eq m notFound maxKey pairs hknown [] (validFrom_zero nulls indexes.length)
    (validities_length hcovers) rest] at h
  by_cases hroom : (firstSeen (labelsOf pairs (masked nulls indexes))).length ≤ maxKey + 1
  · have hrows := labelRows_eq hroom
    change labelRows maxKey [] (labelsOf pairs (keep (validities nulls indexes.length) indexes)) =
      _ at hrows
    rw [hrows] at h
    cases h
    show (keysOf (firstSeen (labelsOf pairs (masked nulls indexes))) _).map Option.isSome = _
    rw [isSome_keysOf, isSome_labelsOf hknown, masked, isSome_keep (validities_length hcovers)]
  · have hpanics := labelRows_panics (Nat.lt_of_not_le hroom) (Nat.zero_le _)
    change labelRows maxKey [] (labelsOf pairs (keep (validities nulls indexes.length) indexes)) =
      _ at hpanics
    rw [hpanics] at h
    exact absurd h (by simp [Outcome.panic])

/-- The bytes of a column. -/
def columnBytes {α : Type} [Word α] (mask : Option (List Bool)) (indexes : List α) : Bytes :=
  maskBytes mask ++ indexes.flatMap putLe

/-- Every label occurs, the first time in the order of the declaration; there are keys for all of
them; a null is a zero; and a buffer can hold the mask. -/
structure InOrder {α : Type} [DecidableEq α] (maxKey : Nat) (zero : α)
    (pairs : List (String × α)) (mask : Option (List Bool)) (indexes : List α) : Prop where
  order : firstSeen (labelsOf pairs (masked (maskBytes mask) indexes)) = declared pairs
  keys : pairs.length ≤ maxKey + 1
  zeros : (masked (maskBytes mask) indexes).map (fun entry => entry.getD zero) = indexes
  mask : (maskBytes mask).length ≤ isizeMax

/-- What the codec of an enum comes to: the two widths differ in these parameters alone. -/
structure Coded {α : Type} [Word α] [DecidableEq α] (t : ChType) (d : DataType)
    (builder : TypedBuilder) (key : KeyType) (maxKey : Nat) (notFound : α → ArrowError)
    (cast : Int → α) (toInt : α → Int) (pairs : List (String × α)) : Prop where
  announced : ∀ options isNull, arrowTypeOf options isNull t = .ok (d, isNull)
  built : ∀ strips d, TypedBuilder.tryNewOf strips t d = .ok builder
  decoded : ∀ json d rows nulls, deserializeArrowAsync json t builder d rows nulls =
    finishLabels key <$> enumRows .async notFound maxKey pairs nulls [] 0 rows
  encoded : ∀ isNull a d, serializeAsyncOf isNull t a d = writeEnumValues cast toInt pairs a
  nulls : ∀ labels rows isNull, rows.map Option.isSome = isNull.map not →
    Null.serializeNullsAsync t (finishLabels key (labels, rows)) = nullBytes isNull

theorem serializeNulls_finishLabels (key : KeyType) (labels : List Bytes)
    (rows : List (Option Nat)) (isNull : List Bool)
    (h : rows.map Option.isSome = isNull.map not) :
    (match (finishLabels key (labels, rows)).nulls with
      | some valid => valid.map fun isValid : Bool => if isValid then (0 : UInt8) else 1
      | none => List.replicate (finishLabels key (labels, rows)).len 0) = nullBytes isNull := by
  have hbytes : (rows.map Option.isSome).map
      (fun isValid : Bool => if isValid then (0 : UInt8) else 1) =
      nullBytes isNull := by
    rw [h, List.map_map]
    refine List.map_congr_left fun null _ => ?_
    cases null <;> rfl
  show (match nullsOf rows with
    | some valid => valid.map fun isValid : Bool => if isValid then (0 : UInt8) else 1
    | none => List.replicate (valuesOf 0 rows).length 0) = _
  rw [← hbytes]
  -- Without a null there is no buffer, and a zero is written for every row.
  cases hall : rows.all Option.isSome with
  | false =>
      have hnulls : nullsOf rows = some (rows.map Option.isSome) := by
        rw [nullsOf, hall]
        rfl
      rw [hnulls]
  | true =>
      have hnulls : nullsOf rows = none := by
        rw [nullsOf, hall]
        rfl
      rw [hnulls, List.map_map, valuesOf, List.length_map]
      symm
      rw [List.eq_replicate_iff]
      refine ⟨List.length_map _, fun byte hbyte => ?_⟩
      obtain ⟨row, hrow, rfl⟩ := List.mem_map.mp hbyte
      have hsome : row.isSome = true := List.all_eq_true.mp hall row hrow
      show (if row.isSome then (0 : UInt8) else 1) = 0
      rw [hsome]
      rfl

theorem coded_enum8 (pairs : List (String × Int8)) :
    Coded (.enum8 pairs) (.dictionary (.primitive .int8) (.bytes .utf8)) .enum8 .int8 127
      (fun idx : Int8 => .arrowDeserialize
        [.text "Invalid Enum8 index: ", .number idx.toInt, .text " not found in pairs"])
      Int8.ofInt Int8.toInt pairs where
  announced _ _ := rfl
  built _ _ := rfl
  decoded _ _ _ _ := rfl
  encoded _ _ _ := rfl
  nulls labels rows isNull h := serializeNulls_finishLabels .int8 labels rows isNull h

theorem coded_enum16 (pairs : List (String × Int16)) :
    Coded (.enum16 pairs) (.dictionary (.primitive .int16) (.bytes .utf8)) .enum16 .int16 32767
      (fun idx : Int16 => .arrowDeserialize
        [.text "Invalid Enum16 index: ", .number idx.toInt, .text " not found in pairs"])
      Int16.ofInt Int16.toInt pairs where
  announced _ _ := rfl
  built _ _ := rfl
  decoded _ _ _ _ := rfl
  encoded _ _ _ := rfl
  nulls labels rows isNull h := serializeNulls_finishLabels .int16 labels rows isNull h

namespace Coded

variable {α : Type} [Word α] [DecidableEq α] {t : ChType} {d : DataType} {builder : TypedBuilder}
  {key : KeyType} {maxKey : Nat} {notFound : α → ArrowError} {cast : Int → α} {toInt : α → Int}
  {pairs : List (String × α)} {mask : Option (List Bool)} {indexes : List α}

theorem decoded_iff (h : Coded t d builder key maxKey notFound cast toInt pairs)
    (hmask : Masks mask indexes.length) (json : Bytes → Bytes) (d' : DataType) (rest : Bytes)
    (array : ArrowArray) :
    deserializeArrowAsync json (underMask mask t) builder d' indexes.length []
        (columnBytes mask indexes ++ rest) = .ok (array, rest) ↔
      (maskBytes mask).length ≤ isizeMax ∧
        ∃ rows, enumRows .async notFound maxKey pairs (maskBytes mask) [] 0 indexes.length
          (indexes.flatMap putLe ++ rest) = .ok (rows, rest) ∧ array = finishLabels key rows := by
  have hrows : ∀ nulls, deserializeArrowAsync json t builder d' indexes.length nulls
        (indexes.flatMap putLe ++ rest) = .ok (array, rest) ↔
      ∃ rows, enumRows .async notFound maxKey pairs nulls [] 0 indexes.length
        (indexes.flatMap putLe ++ rest) = .ok (rows, rest) ∧ array = finishLabels key rows := by
    intro nulls
    rw [h.decoded, Reader.map_apply, Outcome.bind_eq_ok]
    constructor
    · rintro ⟨x, hx, heq⟩
      cases heq
      exact ⟨x.1, hx, rfl⟩
    · rintro ⟨rows, hrows, rfl⟩
      exact ⟨(rows, rest), hrows, rfl⟩
  cases mask with
  | none =>
      show deserializeArrowAsync json t builder d' indexes.length [] (indexes.flatMap putLe ++ rest) =
        _ ↔ _
      rw [hrows]
      exact ⟨fun hread => ⟨Nat.zero_le _, hread⟩, fun hread => hread.2⟩
  | some isNull =>
      have hlength : (nullBytes isNull).length = indexes.length := by
        rw [nullBytes, List.length_map]
        exact hmask isNull rfl
      have hbytes : columnBytes (some isNull) indexes ++ rest =
          nullBytes isNull ++ (indexes.flatMap putLe ++ rest) := List.append_assoc _ _ _
      show (Null.readMaskAsync indexes.length >>= fun nulls =>
        deserializeArrowAsync json t builder d' indexes.length nulls) _ = _ ↔
          (nullBytes isNull).length ≤ isizeMax ∧ _
      rw [hbytes, Reader.bind_apply]
      -- The mask is read into a buffer of its own.
      by_cases hsize : (nullBytes isNull).length ≤ isizeMax
      · have hread := readMaskAsync_reads hsize
        rw [hlength] at hread
        rw [hread, Outcome.ok_bind]
        show deserializeArrowAsync json t builder d' indexes.length (nullBytes isNull) _ = _ ↔ _
        rw [hrows]
        exact ⟨fun hrow => ⟨hsize, hrow⟩, fun hrow => hrow.2⟩
      · have hmaskRead : Null.readMaskAsync indexes.length = Reader.panic .capacityOverflow := by
          rw [Null.readMaskAsync, if_pos (by omega), readBuffer, if_pos (by omega)]
        rw [hmaskRead]
        constructor
        · exact fun hread => absurd hread (by simp)
        · exact fun hread => absurd hread.1 hsize

theorem encoded_iff (h : Coded t d builder key maxKey notFound cast toInt pairs)
    (hmask : Masks mask indexes.length) {rows : List Bytes × List (Option Nat)}
    (hrows : rows.2.map Option.isSome = validities (maskBytes mask) indexes.length) :
    Arrow.serializeAsync (underMask mask t) (finishLabels key rows) d =
        .ok (columnBytes mask indexes) ↔
      writeEnumValues cast toInt pairs (finishLabels key rows) =
        .ok (indexes.flatMap putLe) := by
  cases mask with
  | none =>
      show serializeAsyncOf false t _ d = _ ↔ _
      rw [h.encoded]
      rfl
  | some isNull =>
      -- The nulls of the array are those of the mask that it was read with.
      have hvalid : rows.2.map Option.isSome = isNull.map not := by
        rw [hrows]
        have hlength := hmask isNull rfl
        show validities (nullBytes isNull) indexes.length = _
        cases isNull with
        | nil =>
            obtain hzero : indexes.length = 0 := hlength.symm
            rw [hzero]
            rfl
        | cons null isNull =>
            show (nullBytes (null :: isNull)).map (· == 0) = _
            rw [nullBytes, List.map_map]
            refine List.map_congr_left fun null _ => ?_
            cases null <;> rfl
      have hnulls := h.nulls rows.1 rows.2 isNull hvalid
      show (serializeAsyncOf true t (finishLabels key rows) d >>= fun body =>
        Except.ok (Null.serializeNullsAsync t (finishLabels key (rows.1, rows.2)) ++ body)) =
          Except.ok (nullBytes isNull ++ indexes.flatMap putLe) ↔ _
      rw [h.encoded, hnulls, Outcome.bind_eq_ok]
      constructor
      · rintro ⟨body, hbody, heq⟩
        rw [hbody, List.append_cancel_left (Except.ok.inj heq)]
      · exact fun hbody => ⟨_, hbody, rfl⟩

/-- A column of an enum is written back as it was exactly if its labels are in order. -/
theorem writesBack_iff (h : Coded t d builder key maxKey notFound cast toInt pairs)
    (hnodup : (pairs.map Prod.fst).Nodup) (hmask : Masks mask indexes.length)
    (hknown : Known pairs (masked (maskBytes mask) indexes)) :
    WritesBack (underMask mask t) indexes.length (columnBytes mask indexes) ↔
      InOrder maxKey (cast 0) pairs mask indexes := by
  have hannounced : ∀ options, ∃ nullable,
      chToArrowType (underMask mask t) options = .ok (d, nullable) := by
    intro options
    cases mask with
    | none => exact ⟨false, h.announced options false⟩
    | some isNull => exact ⟨true, h.announced options true⟩
  have hbuilt : ∀ d, TypedBuilder.tryNew (underMask mask t) d = .ok builder := by
    intro d
    cases mask with
    | none => exact h.built 1 d
    | some isNull => exact h.built 0 d
  -- Under the mask it is a matter of the labels and the indexes.
  have hcore := enumRows_writeEnumValues_iff .async notFound maxKey cast toInt key hnodup
    hmask.covers hknown
  constructor
  · intro hback
    obtain ⟨nullable, hd⟩ := hannounced none
    obtain ⟨array, hread, hwrite⟩ := hback id .async .async none d nullable builder [] hd (hbuilt d)
    obtain ⟨hsize, rows, hrows, rfl⟩ := (h.decoded_iff hmask id d [] array).mp hread
    have hbody := (h.encoded_iff hmask (isSome_of_enumRows hmask.covers hknown hrows)).mp hwrite
    obtain ⟨horder, hkeys, hzeros⟩ := (hcore []).mp ⟨rows, hrows, hbody⟩
    exact ⟨horder, hkeys, hzeros, hsize⟩
  · rintro ⟨horder, hkeys, hzeros, hsize⟩ json m m' options d' nullable builder' rest hd hb
    obtain ⟨nullable', hd'⟩ := hannounced options
    rw [hd'] at hd
    cases hd
    obtain ⟨rows, hrows, hbody⟩ := (hcore rest).mpr ⟨horder, hkeys, hzeros⟩
    refine ⟨finishLabels key rows, (deserializeBy_eq_ok m hb).mpr ?_, ?_⟩
    · rw [hbuilt] at hb
      cases hb
      exact (h.decoded_iff hmask json d rest _).mpr ⟨hsize, rows, hrows, rfl⟩
    · rw [serializeBy_eq]
      exact (h.encoded_iff hmask (isSome_of_enumRows hmask.covers hknown hrows)).mpr hbody

end Coded

/-- **An enum column comes back as it was exactly where every label occurs, first in the order of
the declaration**, and each null is a zero. -/
theorem enums_writeBack_iff (mask : Option (List Bool)) :
    (∀ (pairs : List (String × Int8)) (indexes : List Int8),
      (pairs.map Prod.fst).Nodup → (pairs.map Prod.snd).Nodup → Masks mask indexes.length →
      Known pairs (masked (maskBytes mask) indexes) →
      (WritesBack (underMask mask (.enum8 pairs)) indexes.length (columnBytes mask indexes) ↔
        InOrder 127 0 pairs mask indexes)) ∧
    ∀ (pairs : List (String × Int16)) (indexes : List Int16),
      (pairs.map Prod.fst).Nodup → (pairs.map Prod.snd).Nodup → Masks mask indexes.length →
      Known pairs (masked (maskBytes mask) indexes) →
      (WritesBack (underMask mask (.enum16 pairs)) indexes.length (columnBytes mask indexes) ↔
        InOrder 32767 0 pairs mask indexes) := by
  constructor
  · intro pairs indexes hlabels _ hmask hknown
    exact (coded_enum8 pairs).writesBack_iff hlabels hmask hknown
  · intro pairs indexes hlabels _ hmask hknown
    exact (coded_enum16 pairs).writesBack_iff hlabels hmask hknown

/-- Both labels in the order of the declaration, and a null. -/
theorem enums_writeBack_iff_sample :
    WritesBack (.nullable (.enum8 [("a", 1), ("b", 2)])) 4 [0, 0, 1, 0, 1, 2, 0, 1] :=
  ((enums_writeBack_iff (some [false, false, true, false])).1 [("a", 1), ("b", 2)] [1, 2, 0, 1]
    (by decide) (by decide) (fun _ h => by cases h; rfl) (by
      intro idx h
      simp [maskBytes, nullBytes, masked, keep, validities] at h
      rcases h with rfl | rfl | rfl <;> decide)).mpr
    ⟨by decide, by decide, by decide, by decide⟩

/-- A label that does not occur, and labels that occur in another order. -/
theorem not_writesBack_samples :
    ¬ WritesBack (.enum8 [("a", 1), ("b", 2)]) 1 [1] ∧
      ¬ WritesBack (.enum8 [("a", 1), ("b", 2)]) 2 [2, 1] := by
  have hknown : ∀ indexes : List Int8, (∀ idx ∈ indexes, idx ∈ ([1, 2] : List Int8)) →
      Known [("a", (1 : Int8)), ("b", 2)] (masked (maskBytes none) indexes) := by
    intro indexes h idx hidx
    rw [maskBytes, Option.elim_none, masked_nil] at hidx
    obtain ⟨value, hvalue, hsome⟩ := List.mem_map.mp hidx
    cases hsome
    exact h idx hvalue
  have hmask : ∀ indexes : List Int8, Masks none indexes.length :=
    fun _ _ h => absurd h (by simp)
  constructor
  · intro h
    have horder := ((coded_enum8 [("a", 1), ("b", 2)]).writesBack_iff (by decide) (hmask [1])
      (hknown [1] (by simp))).mp h
    exact absurd horder.order (by decide)
  · intro h
    have horder := ((coded_enum8 [("a", 1), ("b", 2)]).writesBack_iff (by decide) (hmask [2, 1])
      (hknown [2, 1] (by simp))).mp h
    exact absurd horder.order (by decide)

end Enums

end Arrow

end ClickhouseArrow
