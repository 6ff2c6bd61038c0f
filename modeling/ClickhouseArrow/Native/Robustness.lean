import ClickhouseArrow.Native.Scan

/-!
# What the column readers do on arbitrary bytes

The asynchronous column reader and the scan of a column end in the same way on every
input: both refuse, both panic, or both come to the end of the column, with as many
values as the scan counted.  So the reader keeps its promise (no panic, and one value for
every row) on exactly the bytes that are well laid out.
-/

namespace ClickhouseArrow

open Wire

/-- The reader of a column follows its scan: they end in the same way, and the column has
as many values as counted, all of them with the property `P`. -/
def Follows (P : Value → Prop) (column : Reader Error (List Value)) (scan : Scan Nat) : Prop :=
  Simulates (fun values n => values.length = n ∧ ∀ v ∈ values, P v) column scan

/-- Any value will do. -/
def anyValue (_ : Value) : Prop := True

theorem Follows.weaken {P : Value → Prop} {column : Reader Error (List Value)} {scan : Scan Nat}
    (h : Follows P column scan) : Follows anyValue column scan :=
  h.mono fun _ _ hvalues => ⟨hvalues.1, fun _ _ => trivial⟩

/-! ## Entries -/

section Entries

open Scan

theorem takeExact_follows_skip {ε : Type} {eof' : Nat → Nat → ε} (n : Nat) :
    Simulates (fun _ _ => True) (Reader.takeExact eof' n) (skip n) := by
  rw [← bind_pure (Reader.takeExact eof' n)]
  exact (Simulates.takeExact eof' Scan.eof n).bind fun _ _ _ => Simulates.pure trivial

theorem getLe_follows_skip {ε α : Type} [Word α] (eof' : Nat → Nat → ε) :
    Simulates (fun _ _ => True) (getLe α eof') (skip (Word.width α)) := by
  rw [← bind_pure (skip (Word.width α))]
  exact (takeExact_follows_skip (Word.width α)).bind fun _ _ _ => Simulates.pure trivial

theorem getOctets_follows_skip {ε : Type} (eof' : Nat → Nat → ε) (n : Nat) :
    Simulates (fun _ _ => True) (getOctets eof' n) (skip n) := by
  intro bs
  by_cases hshort : bs.length < n
  · simp [getOctets, skip, Reader.bind_apply, Reader.takeExact, hshort, Matching]
  · simp [getOctets, skip, Reader.bind_apply, Reader.takeExact, hshort, Matching]

/-- A value wrapped after it is read. -/
theorem map_follows {ε α β : Type} {p : Reader ε α} {s : Scan Unit} (f : α → β)
    (h : Simulates (fun _ _ => True) p s) : Simulates (fun _ _ => True) (f <$> p) s :=
  h.map_left fun _ _ => trivial

theorem getUsize_follows (m : Mode) : Simulates (fun a b => a = b) (getUsize m) word :=
  (Simulates.getLe UInt64 m.eof Scan.eof).bind fun _ _ h => Simulates.pure (by rw [h])

theorem readString_follows (m : Mode) :
    Simulates (fun _ _ => True) (readString m) skipString := by
  refine (Simulates.getLeb128 m.eofVarUint Scan.eof 9).bind ?_
  rintro len _ rfl
  refine Simulates.ite (fun _ => Simulates.fail _ _ _) fun _ => ?_
  by_cases hzero : len = 0
  · subst hzero
    intro bs
    simp [skip, Reader.bind_apply, Reader.takeExact, Matching]
  · simpa only [if_neg hzero] using takeExact_follows_skip len

theorem readFixed_follows (m : Mode) (n : Nat) :
    Simulates (fun _ _ => True) (StringDeserializer.readFixed m n)
      (if isizeMax < n then Reader.panic .capacityOverflow else skip n) := by
  refine Simulates.ite (fun _ => Simulates.panic _ _ _) fun _ => ?_
  rw [← bind_pure (skip n)]
  exact (takeExact_follows_skip n).bind fun _ _ _ => Simulates.pure trivial

theorem readIndex_follows {ι : Type} [Word ι] [DecidableEq ι] (m : Mode)
    (pairs : List (String × ι)) (found : String → ι → Value) (refused : ι → Error) :
    Simulates (fun _ _ => True) (SizedDeserializer.readIndex m pairs found refused)
      (do
        let index ← getLe ι Scan.eof
        if pairs.any fun e => e.2 = index then pure () else Reader.fail ()) := by
  refine (Simulates.getLe ι m.eof Scan.eof).bind ?_
  rintro idx _ rfl
  have hfound := SizedDeserializer.isSome_lookup pairs idx
  cases hlookup : SizedDeserializer.lookup pairs idx with
  | some label =>
      rw [hlookup] at hfound
      rw [← hfound]
      exact Simulates.pure trivial
  | none =>
      rw [hlookup] at hfound
      rw [← hfound]
      exact Simulates.fail _ _ _

namespace ChType

theorem readEntry_follows (m : Mode) {t : ChType} (h : t.isEntry = true) :
    Simulates (fun _ _ => True) (t.readEntry m) t.scanEntry := by
  cases t
  case string | binary | object => exact map_follows _ (readString_follows m)
  case fixedSizedString | fixedSizedBinary => exact readFixed_follows m _
  case int256 | uint256 | decimal256 =>
    exact map_follows _ (map_follows _ (getOctets_follows_skip _ 32))
  case ipv6 => exact map_follows _ (getOctets_follows_skip _ 16)
  case uuid =>
    refine (getLe_follows_skip (α := UInt64) _).bind fun n1 _ _ => ?_
    rw [← bind_pure (skip 8)]
    exact (getLe_follows_skip (α := UInt64) _).bind fun _ _ _ => Simulates.pure trivial
  case enum8 entries => exact readIndex_follows m entries _ _
  case enum16 entries => exact readIndex_follows m entries _ _
  case nullable | lowCardinality | array | tuple | map | point | ring | polygon | multiPolygon =>
    simp [isEntry, isComposite, isGeo] at h
  all_goals exact map_follows _ (getLe_follows_skip _)

end ChType

/-- Entries one after the other. -/
theorem entries_follows {P : Value → Prop} {p : Reader Error Value} {s : Scan Unit}
    (h : Simulates (fun v _ => P v) p s) (rows : Nat) :
    Follows P (Reader.readMany p rows) (entries s rows) := by
  rw [Follows, ← bind_pure (Reader.readMany p rows)]
  exact (h.readMany_left rows).bind fun values _ hvalues => Simulates.pure hvalues

theorem guardRows_follows {P : Value → Prop} {rows : Nat} {column : Reader Error (List Value)}
    {s : Scan Nat} (h : Follows P column s) :
    Follows P (guardRows rows column) (atMostMax rows s) :=
  Simulates.ite (fun _ => Simulates.fail _ _ _) fun _ => h

end Entries

/-! ## Arrays and geo types -/

section Arrays

open Scan

/-- The offsets of a column and what the scan sees of them. -/
theorem offsets_follow (m : Mode) (rows : Nat) :
    Simulates (fun os os' => os = os' ∧ os.length = rows)
      (Reader.readMany (getUsize m) rows) (Reader.readMany word rows) := by
  refine ((getUsize_follows m).readMany rows).mono fun os os' h => ⟨?_, h.2⟩
  simpa [List.forall₂_eq_eq_eq] using h.1

theorem getLast?_of_length {os : List Nat} {rows : Nat} (hlen : os.length = rows)
    (hrows : rows ≠ 0) : ∃ last, os.getLast? = some last := by
  cases os with
  | nil => exact absurd hlen.symm hrows
  | cons o os => exact ⟨_, List.getLast?_cons⟩

/-- An array column as the reader of the mode goes over it: the synchronous one looks for a
last offset even where there are no rows. -/
def Scan.arrayIn (m : Mode) (inner : Nat → Scan Nat) (rows : Nat) : Scan Nat :=
  if m = .sync ∧ rows = 0 then Reader.panic .subtractOverflow else array inner rows

/-- An array reader follows its scan when its items do and their shape suits the array. -/
theorem array_follows (m : Mode) {P Q : Value → Prop} {readInner : Nat → Reader Error (List Value)}
    {scanInner : Nat → Scan Nat} {innerValue : List Value → Result Value}
    {f : List Value → Value} (hinner : ∀ n, Follows P (readInner n) (scanInner n))
    (hwrap : ∀ xs, (∀ x ∈ xs, P x) → innerValue xs = .ok (f xs)) (hshape : ∀ xs, Q (f xs))
    (rows : Nat) :
    Follows Q (ArrayDeserializer.read m readInner innerValue rows)
      (Scan.arrayIn m scanInner rows) := by
  unfold ArrayDeserializer.read Scan.arrayIn array
  by_cases hrows : rows = 0
  · subst hrows
    cases m with
    | async => exact Simulates.pure ⟨rfl, by simp⟩
    | sync => exact Simulates.panic _ _ _
  rw [if_neg (fun h => hrows h.2), if_neg (fun h => hrows h.2), if_neg hrows]
  refine (offsets_follow m rows).bind ?_
  rintro offsets _ ⟨rfl, hlen⟩
  obtain ⟨last, hlast⟩ := getLast?_of_length hlen hrows
  simp only [hlast, Option.getD_some]
  refine (hinner last).bind fun items _ hitems => ?_
  cases hasc : Ascending 0 offsets with
  | true =>
      obtain ⟨values, hcut, hvalues, hparts⟩ := cutAt_of_ascending hwrap hitems.2 hasc
      refine Simulates.ofOutcome_ok hcut ⟨hvalues.trans hlen, fun v hv => ?_⟩
      obtain ⟨xs, rfl⟩ := hparts v hv
      exact hshape xs
  | false => exact Simulates.ofOutcome_panic _ _ (cutAt_of_not_ascending hwrap hitems.2 hasc)

/-- Coordinates that are doubles, one for every point, are stored. -/
theorem PointDeserializer.store_of_float64 (set : Point → UInt64 → Point) (points : List Point)
    {values : List Value} (hvalues : ∀ v ∈ values, ∃ bits, v = .float64 bits)
    (hlen : values.length = points.length) :
    ∃ stored, PointDeserializer.store set points values = .ok stored ∧
      stored.length = points.length := by
  induction values generalizing points with
  | nil => exact ⟨points, by rw [PointDeserializer.store], rfl⟩
  | cons v values ih =>
      cases points with
      | nil => simp at hlen
      | cons p points =>
          obtain ⟨bits, rfl⟩ := hvalues v List.mem_cons_self
          obtain ⟨stored, hstored, hlength⟩ := ih points
            (fun w hw => hvalues w (List.mem_cons_of_mem _ hw)) (by simpa using hlen)
          exact ⟨set p bits :: stored, by rw [PointDeserializer.store, hstored]; rfl,
            by simp [hlength]⟩

theorem coordinates_follow (m : Mode) (rows : Nat) :
    Simulates (fun values _ => values.length = rows ∧ ∀ v ∈ values, ∃ bits, v = .float64 bits)
      (Reader.readMany (SizedDeserializer.readEntry m .float64) rows)
      (Reader.readMany (skip 8) rows) := by
  have hentry : Simulates (fun v _ => ∃ bits, v = Value.float64 bits)
      (SizedDeserializer.readEntry m .float64) (skip 8) := by
    have h := (getLe_follows_skip (α := UInt64) m.eof).map (f := Value.float64) (g := id)
      (S := fun v _ => ∃ bits, v = Value.float64 bits) fun bits _ _ => ⟨bits, rfl⟩
    rwa [id_map] at h
  exact hentry.readMany_left rows

/-- The column reader of points, with the check at its head. -/
theorem point_follows (m : Mode) (rows : Nat) :
    Follows (fun v => ∃ p, v = .point p) (guardRows rows (PointDeserializer.read m rows))
      (point rows) := by
  refine Simulates.ite (fun _ => Simulates.fail _ _ _) fun hmax => ?_
  unfold PointDeserializer.read
  simp only [guardRows, if_neg hmax]
  refine (coordinates_follow m rows).bind fun xs _ hxs => ?_
  obtain ⟨points, hpoints, hplen⟩ := PointDeserializer.store_of_float64
    (fun p bits => { p with x := bits }) (List.replicate rows ⟨0, 0⟩) hxs.2
    (by simp [hxs.1])
  rw [hpoints, Reader.ofOutcome_ok, pure_bind]
  refine (coordinates_follow m rows).bind fun ys _ hys => ?_
  obtain ⟨stored, hstored, hslen⟩ := PointDeserializer.store_of_float64
    (fun p bits => { p with y := bits }) points hys.2
    (by rw [hplen, List.length_replicate, hys.1])
  rw [hstored, Reader.ofOutcome_ok, pure_bind]
  refine Simulates.pure ⟨by rw [List.length_map, hslen, hplen, List.length_replicate], ?_⟩
  simp

/-- Items of one shape are unwrapped. -/
theorem traverse_item {α : Type} [Inhabited α] {wrap : α → Value} {item : Value → Result α}
    (hitem : ∀ a, item (wrap a) = .ok a) :
    ∃ f : Value → α, ∀ xs : List Value, (∀ x ∈ xs, ∃ a, x = wrap a) →
      Outcome.traverse item xs = .ok (xs.map f) := by
  refine ⟨fun v => match item v with | .ok a => a | .error _ => default, fun xs hxs => ?_⟩
  refine Outcome.traverse_eq_ok_map fun x hx => ?_
  obtain ⟨a, rfl⟩ := hxs x hx
  rw [hitem]

/-- The column readers of the shapes, with the check at their heads. -/
theorem shape_follows (m : Mode) {α : Type} [Inhabited α] {P : Value → Prop} (wrap : α → Value)
    {item : Value → Result α} {outer : List α → Value} {readItem : Nat → Reader Error (List Value)}
    {scanItem : Nat → Scan Nat} (hitem : ∀ a, item (wrap a) = .ok a)
    (hread : ∀ n, Follows (fun v => ∃ a, v = wrap a) (readItem n) (scanItem n))
    (hshape : ∀ as, P (outer as)) (rows : Nat) :
    Follows P
      (guardRows rows (ArrayDeserializer.read m readItem
        (fun items => outer <$> Outcome.traverse item items) rows))
      (atMostMax rows (Scan.arrayIn m scanItem rows)) := by
  obtain ⟨f, hf⟩ := traverse_item hitem
  refine guardRows_follows (array_follows m (f := fun xs => outer (xs.map f)) hread
    (fun xs hxs => ?_) (fun xs => hshape (xs.map f)) rows)
  rw [hf xs hxs]
  rfl

/-- The scans of the shapes, as the reader of the mode goes over them. -/
def Scan.ringIn (m : Mode) (rows : Nat) : Scan Nat := atMostMax rows (Scan.arrayIn m point rows)

def Scan.polygonIn (m : Mode) (rows : Nat) : Scan Nat :=
  atMostMax rows (Scan.arrayIn m (Scan.ringIn m) rows)

def Scan.multiPolygonIn (m : Mode) (rows : Nat) : Scan Nat :=
  atMostMax rows (Scan.arrayIn m (Scan.polygonIn m) rows)

theorem ring_follows (m : Mode) (rows : Nat) :
    Follows (fun v => ∃ r, v = .ring r) (guardRows rows (RingDeserializer.read m rows))
      (Scan.ringIn m rows) :=
  shape_follows m .point (fun _ => rfl) (point_follows m) (fun ps => ⟨ps, rfl⟩) rows

theorem polygon_follows (m : Mode) (rows : Nat) :
    Follows (fun v => ∃ p, v = .polygon p)
      (guardRows rows (PolygonDeserializer.read m rows)) (Scan.polygonIn m rows) :=
  shape_follows m .ring (fun _ => rfl) (ring_follows m) (fun rs => ⟨rs, rfl⟩) rows

theorem multiPolygon_follows (m : Mode) (rows : Nat) :
    Follows anyValue (guardRows rows (MultiPolygonDeserializer.read m rows))
      (Scan.multiPolygonIn m rows) :=
  shape_follows m .polygon (fun _ => rfl) (polygon_follows m) (fun _ => trivial) rows

end Arrays

/-! ## Maps and nullable columns -/

section Maps

open Scan

theorem map_column_follows {readKey readValue : Nat → Reader Error (List Value)}
    {scanKey scanValue : Nat → Scan Nat} (hkey : ∀ n, Follows anyValue (readKey n) (scanKey n))
    (hvalue : ∀ n, Follows anyValue (readValue n) (scanValue n)) {rows : Nat}
    (hmax : ¬ maxStringSize < rows) :
    Follows anyValue (MapDeserializer.read .async readKey readValue rows)
      (map scanKey scanValue rows) := by
  unfold MapDeserializer.read map
  simp only [if_neg hmax]
  by_cases hrows : rows = 0
  · rw [if_pos hrows, if_pos hrows]
    exact Simulates.pure ⟨rfl, by simp⟩
  rw [if_neg hrows, if_neg hrows]
  refine (offsets_follow .async rows).bind ?_
  rintro offsets _ ⟨rfl, hlen⟩
  obtain ⟨total, hlast⟩ := getLast?_of_length hlen hrows
  simp only [hlast, Option.getD_some]
  refine (hkey total).bind ?_
  rintro keys _ ⟨rfl, -⟩
  refine Simulates.ite (fun _ => Simulates.panic _ _ _) fun hkeys => ?_
  refine (hvalue total).bind ?_
  rintro values _ ⟨rfl, -⟩
  refine Simulates.ite (fun _ => Simulates.panic _ _ _) fun hvalues => ?_
  have hklen : keys.length = total - 0 := by omega
  have hvlen : values.length = total - 0 := by omega
  by_cases hle : ∀ o ∈ offsets, o ≤ total
  · obtain ⟨pairs, hcut, hpairs⟩ :=
      cutPairsAt_of_le (ε := Error) hklen hvlen (Nat.zero_le total) hle
    rw [if_pos (by simpa using hle), hcut]
    exact Simulates.pure ⟨by rw [List.length_map, hpairs, hlen], fun _ _ => trivial⟩
  · have hlt : ∃ o ∈ offsets, total < o := by simpa using hle
    rw [if_neg (by simpa using hle), cutPairsAt_of_lt hklen hvlen (Nat.zero_le total) hlt]
    exact Simulates.panic _ _ _

/-- The mask panics exactly when it marks a value that is not there. -/
theorem applyMask_eq (mask : Bytes) (out : List Value) :
    if (mask.drop out.length).any (· ≠ 0) then
      NullableDeserializer.applyMask mask out = .panic .indexOutOfBounds
    else ∃ masked, NullableDeserializer.applyMask mask out = .ok masked ∧
      masked.length = out.length := by
  induction mask generalizing out with
  | nil => simp [NullableDeserializer.applyMask]
  | cons b mask ih =>
      cases out with
      | nil =>
          have htail := ih []
          rw [NullableDeserializer.applyMask]
          by_cases hb : b = 0
          · simpa [hb] using htail
          · simp [hb]
      | cons v out =>
          have htail := ih out
          rw [NullableDeserializer.applyMask, List.length_cons, List.drop_succ_cons]
          split at htail
          · rw [if_pos ‹_›, htail]
            rfl
          · obtain ⟨masked, hmasked, hlen⟩ := htail
            rw [if_neg ‹_›, hmasked]
            exact ⟨_, rfl, by simp [hlen]⟩

theorem nullable_follows (m : Mode) {P : Value → Prop} {readInner : Nat → Reader Error (List Value)}
    {scanInner : Nat → Scan Nat} {rows : Nat}
    (hinner : Follows P (readInner rows) (scanInner rows)) :
    Follows anyValue (NullableDeserializer.read m readInner rows)
      (nullable scanInner rows) := by
  refine (Simulates.takeExact _ Scan.eof rows).bind ?_
  rintro mask _ rfl
  refine hinner.bind ?_
  rintro out _ ⟨rfl, -⟩
  have hmask := applyMask_eq mask out
  split at hmask
  · rw [if_pos ‹_›]
    exact Simulates.ofOutcome_panic _ _ hmask
  · obtain ⟨masked, hmasked, hlen⟩ := hmask
    rw [if_neg ‹_›]
    exact Simulates.ofOutcome_ok hmasked ⟨hlen, fun _ _ => trivial⟩

end Maps

/-! ## Dictionary columns -/

namespace LowCardinalityDeserializer

open Scan LowCardinality

/-- The scan knows the sizes of the dictionaries and of the output of the reader. -/
structure Tracks (s : State) (p : Progress) : Prop where
  limit : s.limit = p.limit
  global : s.globalDictionary.map List.length = p.global
  additional : s.additionalKeys.map List.length = p.additional
  delivered : s.output.length = p.delivered

/-- After the head of a block the scan knows the rest of the state too, and the
dictionaries that the flag word counts on are there. -/
structure TracksHead (s : State) (h : Head) (p : Progress) : Prop extends Tracks s p where
  indexType : s.indexedType = h.indexType
  needsGlobal : s.needsGlobalDictionary = h.needsGlobal
  hasAdditional : s.hasAdditionalKeys = h.hasAdditional
  pending : s.numPendingRows = h.pending
  globalThere : s.needsGlobalDictionary = true → s.globalDictionary.isSome = true
  additionalThere : s.hasAdditionalKeys = true → s.additionalKeys.isSome = true

theorem readAnnounced_follows {P : Value → Prop} {readInner : Nat → Reader Error (List Value)}
    {scanInner : Nat → Scan Nat} (hinner : ∀ n, Follows P (readInner n) (scanInner n))
    (announced : Bool) {kept : Option (List Value)} {size : Option Nat}
    (hkept : kept.map List.length = size) :
    Simulates (fun d n => d.map List.length = n ∧ (d.isSome = (announced || kept.isSome)))
      (readAnnounced announced readInner kept) (dictionary announced scanInner size) := by
  cases announced with
  | false => exact Simulates.pure ⟨hkept, by simp⟩
  | true =>
      have hdictionary : Simulates (fun d n => d.length = n) (readDictionary readInner)
          (do let count ← word; scanInner count) := by
        refine (getUsize_follows .async).bind ?_
        rintro count _ rfl
        exact (hinner count).mono fun _ _ h => h.1
      have h := hdictionary.map (f := some) (g := some)
        (S := fun d n => d.map List.length = n ∧ d.isSome = (true || kept.isSome))
        fun d n hdn => by simp [hdn]
      simpa [readAnnounced, dictionary] using h

theorem readHeader_follows {P : Value → Prop} {readInner : Nat → Reader Error (List Value)}
    {scanInner : Nat → Scan Nat} (hinner : ∀ n, Follows P (readInner n) (scanInner n)) {s : State}
    {p : Progress} (htracks : Tracks s p) :
    Simulates (fun s' x => TracksHead s' x.1 x.2) (readHeader readInner s) (head scanInner p) := by
  refine (getUsize_follows .async).bind ?_
  rintro flags _ rfl
  cases IndexType.ofCode (flags &&& 255) with
  | none => exact Simulates.fail _ _ _
  | some indexType =>
      have hnone : s.globalDictionary.isNone = p.global.isNone := by
        rw [← htracks.global, Option.isNone_map]
      simp only [hnone]
      refine (readAnnounced_follows hinner _ htracks.global).bind fun global size hglobal => ?_
      refine (readAnnounced_follows hinner _ htracks.additional).bind
        fun additional size' hadditional => ?_
      refine (getUsize_follows .async).bind ?_
      rintro pending _ rfl
      refine Simulates.pure ⟨⟨htracks.limit, hglobal.1, hadditional.1, htracks.delivered⟩,
        rfl, rfl, rfl, rfl, fun hneeds => ?_, fun hhas => ?_⟩
      · have hneeds : decide (flags &&& needGlobalDictionaryBit ≠ 0) = true := hneeds
        simp only [hglobal.2, hneeds, Bool.true_and, ← hnone]
        cases s.globalDictionary <;> simp
      · have hhas : decide (flags &&& hasAdditionalKeysBit ≠ 0) = true := hhas
        simp [hadditional.2, hhas]

/-- Steps that succeed on the known arguments and fail on the others. -/
theorem traverse_known {f : Nat → Result Value} (known : Nat → Bool)
    (hknown : ∀ i, known i = true → ∃ v, f i = .ok v)
    (hunknown : ∀ i, known i = false → ∃ e, f i = .fail e) (indexes : List Nat) :
    if indexes.all known then
      ∃ values, Outcome.traverse f indexes = .ok values ∧ values.length = indexes.length
    else ∃ e, Outcome.traverse f indexes = .fail e := by
  induction indexes with
  | nil => exact ⟨[], rfl, rfl⟩
  | cons i indexes ih =>
      rw [List.all_cons, Outcome.traverse]
      cases hi : known i with
      | false =>
          obtain ⟨e, he⟩ := hunknown i hi
          exact ⟨e, by rw [he]; rfl⟩
      | true =>
          obtain ⟨v, hv⟩ := hknown i hi
          rw [Bool.true_and, hv]
          split at ih
          · obtain ⟨values, hvalues, hlen⟩ := ih
            rw [if_pos ‹_›, hvalues]
            exact ⟨v :: values, rfl, by simp [hlen]⟩
          · obtain ⟨e, he⟩ := ih
            rw [if_neg ‹_›, he]
            exact ⟨e, rfl⟩

theorem entryAt_ok {dictionary : List Value} {position index : Nat} {name : String}
    (h : position < dictionary.length) :
    ∃ v, entryAt dictionary position index name = .ok v := by
  rw [entryAt, List.getElem?_eq_getElem h]
  exact ⟨_, rfl⟩

theorem entryAt_fail {dictionary : List Value} {position index : Nat} {name : String}
    (h : dictionary.length ≤ position) :
    ∃ e, entryAt dictionary position index name = .fail e := by
  rw [entryAt, List.getElem?_eq_none h]
  exact ⟨_, rfl⟩

/-- The indexes of a block are resolved exactly when the scan knows them all; a block
without a dictionary resolves none. -/
theorem resolve_follows {s : State} {h : Head} {p : Progress} (htracks : TracksHead s h p)
    (isNullable : Bool) (indexes : List Nat) :
    if h.hasAdditional || h.needsGlobal then
      if indexes.all (indexKnown isNullable h p) then
        ∃ values, resolve isNullable s indexes = .ok values ∧ values.length = indexes.length
      else ∃ e, resolve isNullable s indexes = .fail e
    else resolve isNullable s indexes = .ok [] := by
  obtain ⟨⟨-, hglobal, hadditional, -⟩, -, hneeds, hhas, -, hglobalThere, hadditionalThere⟩ :=
    htracks
  unfold resolve
  rw [← hneeds, ← hhas]
  -- By the two flags of the header; the scan knows the lengths of the same dictionaries.
  cases hA : s.hasAdditionalKeys with
  | false =>
      rw [hA] at hhas
      cases hG : s.needsGlobalDictionary with
      | false => simp
      | true =>
          rw [hG] at hneeds
          obtain ⟨global, hsome⟩ := Option.isSome_iff_exists.mp (hglobalThere hG)
          simp only [hsome, Option.map_some] at hglobal
          have hbound : ∀ i, indexKnown isNullable h p i = decide (i < global.length) := by
            simp [indexKnown, ← hhas, ← hneeds, ← hglobal]
          simpa [hsome] using traverse_known (indexKnown isNullable h p)
            (fun i hi => entryAt_ok (by simpa [hbound] using hi))
            (fun i hi => entryAt_fail (by simpa [hbound] using hi)) indexes
  | true =>
      rw [hA] at hhas
      obtain ⟨additional, hsome⟩ := Option.isSome_iff_exists.mp (hadditionalThere hA)
      simp only [hsome, Option.map_some] at hadditional
      cases hG : s.needsGlobalDictionary with
      | false =>
          rw [hG] at hneeds
          have hbound : ∀ i, indexKnown isNullable h p i =
              (isNullable && i == 0 || decide (i < additional.length)) := by
            simp [indexKnown, ← hhas, ← hneeds, ← hadditional]
          simp only [hsome, Bool.true_or, if_true, not_false_eq_true, and_self, Bool.false_eq_true]
          refine traverse_known _ (fun i hi => ?_) (fun i hi => ?_) indexes
          · by_cases hnull : isNullable = true ∧ i = 0
            · exact ⟨.null, if_pos hnull⟩
            · rw [if_neg hnull]
              refine entryAt_ok ?_
              simpa [hbound, hnull] using hi
          · have hi' : ¬(isNullable = true ∧ i = 0) ∧ additional.length ≤ i := by
              simpa [hbound] using hi
            rw [if_neg hi'.1]
            exact entryAt_fail hi'.2
      | true =>
          rw [hG] at hneeds
          obtain ⟨global, hsome'⟩ := Option.isSome_iff_exists.mp (hglobalThere hG)
          simp only [hsome', Option.map_some] at hglobal
          have hbound : ∀ i, indexKnown isNullable h p i =
              (isNullable && i == 0 || decide (i < additional.length + global.length)) := by
            simp [indexKnown, ← hhas, ← hneeds, ← hadditional, ← hglobal]
          simp only [hsome, hsome', Bool.true_or, if_true, not_true_eq_false, and_false, if_false,
            and_self]
          refine traverse_known _ (fun i hi => ?_) (fun i hi => ?_) indexes
          · by_cases hnull : isNullable = true ∧ i = 0
            · exact ⟨.null, if_pos hnull⟩
            · rw [if_neg hnull]
              -- The index points into one of the two, and in both there is an entry.
              have hi' : i < additional.length + global.length := by
                simpa [hbound, hnull] using hi
              split
              · exact entryAt_ok ‹_›
              · exact entryAt_ok (by omega)
          · have hi' : ¬(isNullable = true ∧ i = 0) ∧
                additional.length + global.length ≤ i := by
              simpa [hbound] using hi
            rw [if_neg hi'.1, if_neg (by omega)]
            exact entryAt_fail (by omega)

theorem index_follows (i : IndexType) :
    Simulates (fun a b => a = b) (i.get .async) (index i) := by
  cases i <;> exact (Simulates.getLe _ _ _).map fun _ _ h => by rw [h]

/-- Between two turns no rows are pending, or none are wanted. -/
structure BetweenTurns (s : State) (p : Progress) : Prop extends Tracks s p where
  head : s.limit = 0 ∨ s.numPendingRows = 0

theorem turn_follows {P : Value → Prop} {readInner : Nat → Reader Error (List Value)}
    {scanInner : Nat → Scan Nat} (hinner : ∀ n, Follows P (readInner n) (scanInner n))
    (isNullable : Bool) {s : State} {p : Progress} (hs : BetweenTurns s p) (hlimit : s.limit ≠ 0) :
    Simulates BetweenTurns (turn isNullable readInner s) (block isNullable scanInner p) := by
  have hpending : s.numPendingRows = 0 := hs.head.resolve_left hlimit
  rw [turn, if_pos hpending]
  refine (readHeader_follows hinner hs.toTracks).bind ?_
  rintro s' ⟨h, p'⟩ htracks
  have htracks : TracksHead s' h p' := htracks
  simp only [← htracks.limit, ← htracks.pending, ← htracks.indexType]
  refine ((index_follows s'.indexedType).readMany _).bind ?_
  rintro entries indexes ⟨hentries, hlen⟩
  obtain rfl : entries = indexes := by simpa [List.forall₂_eq_eq_eq] using hentries
  have hhead : s'.limit - min s'.limit s'.numPendingRows = 0 ∨
      s'.numPendingRows - min s'.limit s'.numPendingRows = 0 := by omega
  have hresolve := resolve_follows htracks isNullable entries
  split at hresolve
  · rw [if_pos ‹_›]
    split at hresolve
    · obtain ⟨values, hvalues, hvlen⟩ := hresolve
      rw [if_pos ‹_›, hvalues]
      refine Simulates.pure ⟨⟨rfl, htracks.global, htracks.additional, ?_⟩, hhead⟩
      simp only [List.length_append, htracks.delivered, hvlen, hlen]
    · obtain ⟨e, he⟩ := hresolve
      rw [if_neg ‹_›, he]
      exact Simulates.fail _ _ _
  · rw [if_neg ‹_›, hresolve]
    refine Simulates.pure ⟨⟨rfl, htracks.global, htracks.additional, ?_⟩, hhead⟩
    simp only [List.append_nil, htracks.delivered]

theorem loop_follows {P : Value → Prop} {readInner : Nat → Reader Error (List Value)}
    {scanInner : Nat → Scan Nat} (hinner : ∀ n, Follows P (readInner n) (scanInner n))
    (isNullable : Bool) (fuel : Nat) {s : State} {p : Progress} (hs : BetweenTurns s p) :
    Follows anyValue (loop isNullable readInner fuel s) (blocks isNullable scanInner fuel p) := by
  induction fuel generalizing s p with
  | zero => exact Simulates.panic _ _ _
  | succ fuel ih =>
      rw [loop, blocks, ← hs.limit]
      by_cases hlimit : s.limit = 0
      · rw [if_pos hlimit, if_pos hlimit]
        exact Simulates.pure ⟨hs.delivered, fun _ _ => trivial⟩
      · rw [if_neg hlimit, if_neg hlimit]
        exact (turn_follows hinner isNullable hs hlimit).bind fun _ _ hs' => ih hs'

theorem read_follows {P : Value → Prop} {readInner : Nat → Reader Error (List Value)}
    {scanInner : Nat → Scan Nat} (hinner : ∀ n, Follows P (readInner n) (scanInner n))
    (isNullable : Bool) (rows : Nat) :
    Follows anyValue (read .async isNullable readInner rows)
      (lowCardinality isNullable scanInner rows) :=
  fun bs => loop_follows hinner isNullable (bs.length + 2) (s := State.init rows)
    ⟨⟨rfl, rfl, rfl, rfl⟩, .inr rfl⟩ bs

end LowCardinalityDeserializer

/-! ## Columns of any type -/

namespace ChType

theorem readTuples_follows {items : List ChType} {rows : Nat}
    (hitems : ∀ t ∈ items, Follows anyValue (t.readColumn .async rows) (t.scanColumn rows))
    {tuples : List (List Value)} (htuples : tuples.length = rows) :
    Simulates (fun out n => out.length = n) (readTuples .async items rows tuples)
      (scanTuple items rows) := by
  induction items generalizing tuples with
  | nil => exact Simulates.pure htuples
  | cons t ts ih =>
      have hcolumn := (hitems t List.mem_cons_self).and_consumes (readColumn_consumes .async t rows)
      refine hcolumn.bind fun column _ hcounted => ?_
      obtain ⟨tuples', hpush, htuples'⟩ :=
        pushEach_of_length_le (ε := Error) (hcounted.2.trans htuples.ge)
      rw [hpush]
      exact ih (fun t' ht' => hitems t' (List.mem_cons_of_mem t ht')) (htuples'.trans htuples)

/-- **The column reader follows the scan of the column**, for every type. -/
theorem readColumn_follows (t : ChType) (rows : Nat) :
    Follows anyValue (t.readColumn .async rows) (t.scanColumn rows) := by
  induction t using inductionOn generalizing rows with
  | hleaf t hflat =>
      cases hgeo : t.isGeo with
      | true =>
          cases t <;> simp [isGeo] at hgeo
          · exact (point_follows .async rows).weaken
          · exact (ring_follows .async rows).weaken
          · exact (polygon_follows .async rows).weaken
          · exact multiPolygon_follows .async rows
      | false =>
          have hentry : t.isEntry = true := by
            cases t with
            | nullable | lowCardinality | array | tuple | map => cases hflat
            | _ => first | rfl | simp [isGeo] at hgeo
          rw [readColumn_entry .async hentry, scanColumn_entry hentry]
          exact guardRows_follows (entries_follows (readEntry_follows .async hentry) rows)
  | hnullable inner ih => exact guardRows_follows (nullable_follows .async (ih rows))
  | hlowCardinality inner ih =>
      rw [readColumn_lowCardinality, scanColumn_lowCardinality]
      exact guardRows_follows (LowCardinalityDeserializer.read_follows ih _ rows)
  | harray inner ih =>
      exact guardRows_follows
        (array_follows .async ih (fun xs _ => rfl) (f := .array) (fun _ => trivial) rows)
  | htuple items ih =>
      refine guardRows_follows ?_
      -- The tuples start empty, and each item pushes one value on each of them.
      have htuples := readTuples_follows (fun t ht => ih t ht rows)
        (List.length_replicate (n := rows) (a := ([] : List Value)))
      rw [Follows, ← bind_pure (scanTuple items rows)]
      exact htuples.bind fun out n hout =>
        Simulates.pure ⟨by rw [List.length_map, hout], fun _ _ => trivial⟩
  | hmap key value ihkey ihvalue =>
      exact Simulates.ite (fun _ => Simulates.fail _ _ _)
        fun hmax => map_column_follows ihkey ihvalue hmax

theorem deserializePrefix_follows (m : Mode) (t : ChType) :
    Simulates (fun _ _ => True) (t.deserializePrefix m) t.scanPrefix := by
  induction t using inductionOn with
  | hleaf t hflat =>
      cases t with
      | nullable | lowCardinality | array | tuple | map => cases hflat
      | object =>
          rw [scanPrefix, ← bind_pure (Scan.skip 1)]
          exact (getLe_follows_skip (α := Int8) _).bind fun _ _ _ => Simulates.pure trivial
      | _ => exact Simulates.pure trivial
  | hnullable inner ih => simpa only [deserializePrefix, scanPrefix] using ih
  | hlowCardinality inner ih =>
      refine (getUsize_follows m).bind ?_
      rintro version _ rfl
      exact Simulates.ite (fun _ => Simulates.fail _ _ _) fun _ => Simulates.pure trivial
  | harray inner ih => simpa only [deserializePrefix, scanPrefix] using ih
  | htuple items ih =>
      rw [deserializePrefix, scanPrefix]
      induction items with
      | nil => exact Simulates.pure trivial
      | cons t ts ihs =>
          exact (ih t List.mem_cons_self).bind fun _ _ _ =>
            ihs fun t' ht' => ih t' (List.mem_cons_of_mem t ht')
  | hmap key value ihkey ihvalue => exact ihkey.bind fun _ _ _ => ihvalue

theorem readPrefixedColumn_follows (t : ChType) (rows : Nat) :
    Follows anyValue (t.readPrefixedColumn rows) (t.scanPrefixedColumn rows) :=
  (deserializePrefix_follows .async t).bind fun _ _ _ => readColumn_follows t rows

/-- What the decoder promises of an input: it ends without a panic, and a column that it
accepts has one value for every row. -/
def DecodesSafely (t : ChType) (rows : Nat) (bytes : Bytes) : Prop :=
  Outcome.NoPanic (t.readPrefixedColumn rows bytes) ∧
    ∀ values rest, t.readPrefixedColumn rows bytes = .ok (values, rest) → values.length = rows

/-- **The decoder is safe on exactly the well laid out bytes.**  On all others it panics,
or accepts a column of another length. -/
theorem decodesSafely_iff_wellLaidOut (t : ChType) (rows : Nat) (bytes : Bytes) :
    t.DecodesSafely rows bytes ↔ t.WellLaidOut rows bytes = true := by
  have hfollows := readPrefixedColumn_follows t rows bytes
  unfold DecodesSafely WellLaidOut
  revert hfollows
  cases t.readPrefixedColumn rows bytes with
  | ok x =>
      cases t.scanPrefixedColumn rows bytes with
      | ok y =>
          rintro ⟨⟨hlen, -⟩, -⟩
          simp [Outcome.NoPanic, ← hlen, Prod.ext_iff]
      | error e => cases e <;> exact False.elim
  | error e =>
      cases t.scanPrefixedColumn rows bytes with
      | ok y => cases e <;> exact False.elim
      | error e' => cases e <;> cases e' <;> simp [Matching, Outcome.NoPanic]

/-- Two rows of an array of bytes with the offsets 2 and 1 end in a panic, and a block of a
dictionary column that announces no dictionary delivers no value for its row. -/
theorem not_decodesSafely_samples :
    ¬ (ChType.array .uint8).DecodesSafely 2 (putUsize 2 ++ putUsize 1 ++ [7]) ∧
    ¬ (ChType.lowCardinality .string).DecodesSafely 1
      (putUsize LowCardinality.version ++ putUsize 0 ++ putUsize 1 ++ [0]) := by
  constructor
  · intro h
    exact h.1 .subtractOverflow rfl
  · intro h
    have hlen : ([] : List Value).length = 1 := h.2 [] [] rfl
    simp at hlen

end ChType

end ClickhouseArrow
