import ClickhouseArrow.Native.Robustness

/-!
# Where the two column decoders agree

The synchronous decoder returns only what the asynchronous one returns.  Where it stops
short is seen by a walk over the bytes: `scanColumnSync` goes on as `scanColumn` does, but
is refused at a tuple, a map or a dictionary column, and meets a defect at an array column
without rows.
-/

namespace ClickhouseArrow

open Wire

namespace ChType

open Scan

/-! ## The walk of the synchronous decoder -/

/-- Walk over a column as the synchronous decoder does. -/
def scanColumnSync : ChType → Nat → Scan Nat
  | .nullable inner, rows => atMostMax rows (Scan.nullable inner.scanColumnSync rows)
  | .array inner, rows => atMostMax rows (arrayIn .sync inner.scanColumnSync rows)
  | .lowCardinality _, rows | .tuple _, rows | .map _ _, rows => atMostMax rows (Reader.fail ())
  | .ring, rows => ringIn .sync rows
  | .polygon, rows => polygonIn .sync rows
  | .multiPolygon, rows => multiPolygonIn .sync rows
  | t, rows => t.scanColumn rows

/-- Walk over the prefix and the column. -/
def scanPrefixedColumnSync (t : ChType) (rows : Nat) : Scan Nat := do
  t.scanPrefix
  t.scanColumnSync rows

/-- `deserialize_prefix` followed by `deserialize_column_sync`. -/
def readPrefixedColumnSync (t : ChType) (rows : Nat) : Reader Error (List Value) := do
  t.deserializePrefix .sync
  t.deserializeColumnSync rows

theorem scanColumnSync_leaf {t : ChType} (hflat : t.isComposite = false) (hgeo : t.isGeo = false)
    (rows : Nat) : t.scanColumnSync rows = t.scanColumn rows := by
  cases t with
  | nullable | lowCardinality | array | tuple | map => simp [isComposite] at hflat
  | ring | polygon | multiPolygon => simp [isGeo] at hgeo
  | _ => rfl

/-- The synchronous decoder follows its walk. -/
theorem readColumnSync_follows (t : ChType) (rows : Nat) :
    Follows anyValue (t.readColumn .sync rows) (t.scanColumnSync rows) := by
  induction t using inductionOn generalizing rows with
  | hleaf t hflat =>
      cases hgeo : t.isGeo with
      | true =>
          cases t <;> simp [isGeo] at hgeo
          · exact (point_follows .sync rows).weaken
          · exact (ring_follows .sync rows).weaken
          · exact (polygon_follows .sync rows).weaken
          · exact multiPolygon_follows .sync rows
      | false =>
          have hentry : t.isEntry = true := by simp [isEntry, hflat, hgeo]
          rw [scanColumnSync_leaf hflat hgeo, readColumn_entry .sync hentry,
            scanColumn_entry hentry]
          exact guardRows_follows (entries_follows (readEntry_follows .sync hentry) rows)
  | hnullable inner ih => exact guardRows_follows (nullable_follows .sync (ih rows))
  -- These three are not implemented: the walk refuses where the reader does.
  | hlowCardinality inner _ ih =>
      rw [readColumn_lowCardinality]
      exact Simulates.ite (fun _ => Simulates.fail _ _ _) fun _ => Simulates.fail _ _ _
  | harray inner ih =>
      exact guardRows_follows
        (array_follows .sync ih (fun xs _ => rfl) (f := .array) (fun _ => trivial) rows)
  | htuple items ih =>
      exact Simulates.ite (fun _ => Simulates.fail _ _ _) fun _ => Simulates.fail _ _ _
  | hmap key value ihkey ihvalue =>
      exact Simulates.ite (fun _ => Simulates.fail _ _ _) fun _ => Simulates.fail _ _ _

theorem readPrefixedColumnSync_follows (t : ChType) (rows : Nat) :
    Follows anyValue (t.readPrefixedColumnSync rows) (t.scanPrefixedColumnSync rows) :=
  (deserializePrefix_follows .sync t).bind fun _ _ _ => readColumnSync_follows t rows

end ChType

/-! ## What the synchronous decoder returns -/

theorem map_simulates {α β : Type} {p q : Reader Error α} (f : α → β)
    (h : Simulates (fun a b => a = b) p q) : Simulates (fun a b => a = b) (f <$> p) (f <$> q) :=
  h.map fun _ _ hab => by rw [hab]

theorem getUsize_simulates :
    Simulates (fun a b => a = b) (getUsize .async) (getUsize .sync) :=
  (Simulates.getLe UInt64 _ _).bind fun _ _ h => Simulates.pure (by rw [h])

theorem read256_simulates :
    Simulates (fun a b => a = b) (SizedDeserializer.read256 .async)
      (SizedDeserializer.read256 .sync) :=
  map_simulates _ (Simulates.getOctets _ _ 32)

theorem readFixed_simulates (n : Nat) :
    Simulates (fun a b => a = b) (StringDeserializer.readFixed .async n)
      (StringDeserializer.readFixed .sync n) := by
  refine Simulates.ite (fun _ => Simulates.panic _ _ _) fun _ => ?_
  exact (Simulates.takeExact _ _ n).bind fun _ _ h => Simulates.pure (by rw [h])

/-- The two readers of an enum index give the same label. -/
theorem enum_simulates {ι : Type} [Word ι] [DecidableEq ι] (pairs : List (String × ι))
    (found : String → ι → Value) (refused refused' : ι → Error) :
    Simulates (fun a b => a = b)
      (do
        let idx ← getLe ι Mode.async.eof
        match SizedDeserializer.lookup pairs idx with
        | some label => pure (found label idx)
        | none => Reader.fail (refused idx))
      (do
        let idx ← getLe ι Mode.sync.eof
        match SizedDeserializer.lookup pairs idx with
        | some label => pure (found label idx)
        | none => Reader.fail (refused' idx)) := by
  refine (Simulates.getLe ι _ _).bind ?_
  rintro idx _ rfl
  cases SizedDeserializer.lookup pairs idx with
  | some label => exact Simulates.pure rfl
  | none => exact Simulates.fail _ _ _

namespace ChType

theorem readEntry_simulates {t : ChType} (h : t.isEntry = true) :
    Simulates (fun a b => a = b) (t.readEntry .async) (t.readEntry .sync) := by
  cases t
  case string | binary | object => exact map_simulates _ readString_simulates
  case fixedSizedString | fixedSizedBinary => exact readFixed_simulates _
  case int256 | uint256 | decimal256 => exact map_simulates _ read256_simulates
  case ipv6 => exact map_simulates _ (Simulates.getOctets _ _ 16)
  case uuid =>
    refine (Simulates.getLe UInt64 _ _).bind ?_
    rintro n1 _ rfl
    exact (Simulates.getLe UInt64 _ _).bind fun _ _ h => Simulates.pure (by rw [h])
  case enum8 entries => exact enum_simulates entries _ _ _
  case enum16 entries => exact enum_simulates entries _ _ _
  case nullable | lowCardinality | array | tuple | map | point | ring | polygon | multiPolygon =>
    simp [isEntry, isComposite, isGeo] at h
  all_goals exact map_simulates _ (Simulates.getLe _ _ _)

end ChType

theorem guardRows_extends (rows : Nat) {p q : Reader Error (List Value)} (h : Extends p q) :
    Extends (guardRows rows p) (guardRows rows q) :=
  Extends.ite (fun _ => Extends.fail _ _) fun _ => h

/-- Without rows the synchronous reader of arrays returns nothing, so the check that only
the asynchronous one makes does not matter here. -/
theorem array_extends {readInner readInner' : Nat → Reader Error (List Value)}
    {innerValue : List Value → Result Value} (h : ∀ n, Extends (readInner n) (readInner' n))
    (rows : Nat) :
    Extends (ArrayDeserializer.read .sync readInner innerValue rows)
      (ArrayDeserializer.read .async readInner' innerValue rows) := by
  unfold ArrayDeserializer.read
  by_cases hrows : rows = 0
  · subst hrows
    exact Extends.panic _ _
  · rw [if_neg (by simp), if_neg fun h => hrows h.2]
    refine (getUsize_simulates.extends.readMany rows).bind fun offsets => ?_
    cases offsets.getLast? with
    | none => exact Extends.panic _ _
    | some last => exact (h last).bind fun items => Extends.ofOutcome _

theorem point_extends (rows : Nat) :
    Extends (PointDeserializer.read .sync rows) (PointDeserializer.read .async rows) := by
  have hcolumn := guardRows_extends rows
    ((ChType.readEntry_simulates (t := .float64) rfl).extends.readMany rows)
  refine hcolumn.bind fun xs => (Extends.ofOutcome _).bind fun points => ?_
  exact hcolumn.bind fun ys => (Extends.ofOutcome _).bind fun points' => Extends.pure _

theorem ring_extends (rows : Nat) :
    Extends (RingDeserializer.read .sync rows) (RingDeserializer.read .async rows) :=
  array_extends (fun n => guardRows_extends _ (point_extends n)) rows

theorem polygon_extends (rows : Nat) :
    Extends (PolygonDeserializer.read .sync rows) (PolygonDeserializer.read .async rows) :=
  array_extends (fun n => guardRows_extends _ (ring_extends n)) rows

theorem multiPolygon_extends (rows : Nat) :
    Extends (MultiPolygonDeserializer.read .sync rows)
      (MultiPolygonDeserializer.read .async rows) :=
  array_extends (fun n => guardRows_extends _ (polygon_extends n)) rows

namespace ChType

/-- The synchronous decoder returns only what the asynchronous one returns. -/
theorem readColumn_extends (t : ChType) (rows : Nat) :
    Extends (t.readColumn .sync rows) (t.readColumn .async rows) := by
  induction t using inductionOn generalizing rows with
  | hleaf t hflat =>
      cases hgeo : t.isGeo with
      | true =>
          cases t <;> simp [isGeo] at hgeo
          · exact guardRows_extends _ (point_extends rows)
          · exact guardRows_extends _ (ring_extends rows)
          · exact guardRows_extends _ (polygon_extends rows)
          · exact guardRows_extends _ (multiPolygon_extends rows)
      | false =>
          have hentry : t.isEntry = true := by
            cases t with
            | nullable | lowCardinality | array | tuple | map => cases hflat
            | _ => first | rfl | simp [isGeo] at hgeo
          rw [readColumn_entry .sync hentry, readColumn_entry .async hentry]
          exact guardRows_extends _ ((readEntry_simulates hentry).extends.readMany rows)
  | hnullable inner ih =>
      refine guardRows_extends _ ?_
      refine (Simulates.takeExact _ _ rows).extends.bind fun mask => ?_
      exact (ih rows).bind fun out => Extends.ofOutcome _
  | hlowCardinality inner _ ih =>
      rw [readColumn_lowCardinality, readColumn_lowCardinality]
      exact guardRows_extends _ (Extends.fail _ _)
  | harray inner ih => exact guardRows_extends _ (array_extends ih rows)
  | htuple items ih => exact guardRows_extends _ (Extends.fail _ _)
  | hmap key value ihkey ihvalue => exact guardRows_extends _ (Extends.fail _ _)

theorem deserializePrefix_simulates (t : ChType) :
    Simulates (fun a b => a = b) (t.deserializePrefix .async) (t.deserializePrefix .sync) := by
  induction t using inductionOn with
  | hleaf t hflat =>
      cases t with
      | nullable | lowCardinality | array | tuple | map => cases hflat
      | object => exact (Simulates.getLe Int8 _ _).bind fun _ _ _ => Simulates.pure rfl
      | _ => exact Simulates.pure rfl
  | hnullable inner ih => exact ih
  | hlowCardinality inner _ ih =>
      refine getUsize_simulates.bind ?_
      rintro version _ rfl
      exact Simulates.ite (fun _ => Simulates.fail _ _ _) fun _ => Simulates.pure rfl
  | harray inner ih => exact ih
  | htuple items ih =>
      rw [deserializePrefix, deserializePrefix]
      induction items with
      | nil => exact Simulates.pure rfl
      | cons t ts ihs =>
          exact (ih t List.mem_cons_self).bind fun _ _ _ =>
            ihs fun u hu => ih u (List.mem_cons_of_mem t hu)
  | hmap key value ihkey ihvalue => exact ihkey.bind fun _ _ _ => ihvalue

/-! ## Agreement -/

/-- The two decoders agree on the bytes: neither returns a column, or both return the same
values and leave the same bytes. -/
def DecodersAgree (t : ChType) (rows : Nat) (bytes : Bytes) : Prop :=
  ∀ out, t.readPrefixedColumn rows bytes = .ok out ↔ t.readPrefixedColumnSync rows bytes = .ok out

/-- The walk comes to the end of the column. -/
def comesToEnd (walk : Scan Nat) (bytes : Bytes) : Bool :=
  match walk bytes with
  | .ok _ => true
  | .error _ => false

/-- A column that the whole walk can pass over has no tuple, map or dictionary column in it
and no array column without rows. -/
def SyncCovers (t : ChType) (rows : Nat) (bytes : Bytes) : Bool :=
  !comesToEnd (t.scanPrefixedColumn rows) bytes || comesToEnd (t.scanPrefixedColumnSync rows) bytes

/-- A reader returns a column exactly where its walk comes to the end. -/
theorem comesToEnd_iff {column : Reader Error (List Value)} {walk : Scan Nat}
    (h : Follows anyValue column walk) (bytes : Bytes) :
    comesToEnd walk bytes = true ↔ ∃ out, column bytes = .ok out := by
  have hstep := h bytes
  unfold comesToEnd
  revert hstep
  cases column bytes with
  | ok x =>
      cases walk bytes with
      | ok y => simp
      | error e => cases e <;> exact False.elim
  | error e =>
      cases walk bytes with
      | ok y => cases e <;> exact False.elim
      | error e' => simp

/-- **The two decoders agree on exactly the bytes that the synchronous one covers.** -/
theorem decodersAgree_iff_syncCovers (t : ChType) (rows : Nat) (bytes : Bytes) :
    t.DecodersAgree rows bytes ↔ t.SyncCovers rows bytes = true := by
  have hasync := comesToEnd_iff (readPrefixedColumn_follows t rows) bytes
  have hsync := comesToEnd_iff (readPrefixedColumnSync_follows t rows) bytes
  have hextends : Extends (t.readPrefixedColumnSync rows) (t.readPrefixedColumn rows) :=
    (deserializePrefix_simulates t).extends.bind fun _ => readColumn_extends t rows
  rw [SyncCovers, Bool.or_eq_true, Bool.not_eq_true', ← Bool.not_eq_true, hasync, hsync]
  constructor
  · intro hagree
    by_cases hreturns : ∃ out, t.readPrefixedColumn rows bytes = .ok out
    · obtain ⟨out, hout⟩ := hreturns
      exact .inr ⟨out, (hagree out).mp hout⟩
    · exact .inl hreturns
  · intro hcovers out
    refine ⟨fun hout => ?_, hextends bytes out⟩
    rcases hcovers with hnone | ⟨out', hout'⟩
    · exact absurd ⟨out, hout⟩ hnone
    · have hsame := hextends bytes out' hout'
      rw [hout] at hsame
      rwa [Except.ok.inj hsame]

/-- A tuple of one number, and an array column without rows. -/
theorem not_decodersAgree_samples :
    ¬ (ChType.tuple [.uint8]).DecodersAgree 1 [7] ∧ ¬ (ChType.array .uint8).DecodersAgree 0 [] := by
  constructor
  · intro h
    have hsync := (h ([.tuple [.uint8 7]], [])).mp rfl
    exact absurd hsync (by simp [readPrefixedColumnSync, Reader.bind_apply, deserializePrefix,
      deserializePrefix.prefixes, deserializeColumnSync, readColumn, guardRows, maxStringSize])
  · intro h
    have hsync := (h ([], [])).mp rfl
    have hpanic : (ChType.array .uint8).readPrefixedColumnSync 0 [] =
        .error (.panic .subtractOverflow) := rfl
    exact absurd (hpanic.symm.trans hsync) (by simp)

end ChType

end ClickhouseArrow
