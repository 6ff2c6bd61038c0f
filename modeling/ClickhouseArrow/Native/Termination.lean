import ClickhouseArrow.Native.Entries

/-!
# The column readers end

Every column reader ends on every input, whatever the peer sent: the only unbounded
loop, the one over the blocks of a dictionary column, takes sixteen bytes at every turn.
A reader that succeeds returns at most as many values as it was asked for.
-/

namespace ClickhouseArrow

open Wire

/-! ## Entries -/

theorem readString_consumes (m : Mode) : Consumes 0 (fun _ => True) (readString m) := by
  refine (Consumes.getLeb128 m.eofVarUint 9).bind_any fun len _ => ?_
  refine Consumes.ite (fun _ => Consumes.fail _ _ _) fun _ => ?_
  refine Consumes.ite (fun _ => Consumes.pure trivial) fun _ => ?_
  exact (Consumes.takeExact _ len).mono (Nat.zero_le _) fun _ _ => trivial

/-- A word read and wrapped. -/
theorem getLe_map_consumes {α β : Type} [Word α] (m : Mode) (f : α → β) :
    Consumes 0 (fun _ => True) (f <$> getLe α m.eof) :=
  ((Consumes.getLe α m.eof).mono (Nat.zero_le _) fun _ h => h).map fun _ _ => trivial

theorem read256_consumes (m : Mode) :
    Consumes 0 (fun _ => True) (SizedDeserializer.read256 m) :=
  (Consumes.getOctets m.eof 32).map fun _ _ => trivial

theorem readFixed_consumes (m : Mode) (n : Nat) :
    Consumes 0 (fun _ => True) (StringDeserializer.readFixed m n) := by
  refine Consumes.ite (fun _ => Consumes.panic _ _ (by decide)) fun _ => ?_
  have htake := (Consumes.takeExact m.eof n).mono (Nat.zero_le n) fun _ h => h
  exact htake.bind_any fun _ _ => Consumes.pure trivial

theorem readIndex_consumes {ι : Type} [Word ι] [DecidableEq ι] (m : Mode)
    (pairs : List (String × ι)) (found : String → ι → Value) (refused : ι → Error) :
    Consumes 0 (fun _ => True) (SizedDeserializer.readIndex m pairs found refused) := by
  have hindex := (Consumes.getLe ι m.eof).mono (Nat.zero_le _) fun _ h => h
  refine hindex.bind_any fun idx _ => ?_
  cases SizedDeserializer.lookup pairs idx with
  | some label => exact Consumes.pure trivial
  | none => exact Consumes.fail _ _ _

theorem readEntry_consumes (m : Mode) (t : ChType) :
    Consumes 0 (fun _ => True) (t.readEntry m) := by
  cases t
  case string | binary | object => exact (readString_consumes m).map fun _ _ => trivial
  case fixedSizedString | fixedSizedBinary => exact readFixed_consumes m _
  case int256 | uint256 | decimal256 => exact (read256_consumes m).map fun _ _ => trivial
  case ipv6 => exact (Consumes.getOctets m.eof 16).map fun _ _ => trivial
  case uuid =>
    have hhalf := (Consumes.getLe UInt64 m.eof).mono (Nat.zero_le _) fun _ h => h
    exact hhalf.bind_any fun _ _ => hhalf.bind_any fun _ _ => Consumes.pure trivial
  case enum8 entries => exact readIndex_consumes m entries _ _
  case enum16 entries => exact readIndex_consumes m entries _ _
  case nullable | lowCardinality | array | tuple | map | point | ring | polygon | multiPolygon =>
    exact Consumes.fail _ _ _
  all_goals exact getLe_map_consumes m _

/-! ## Containers -/

/-- What a column reader may return: no more values than rows. -/
def AtMost (rows : Nat) (values : List Value) : Prop := values.length ≤ rows

theorem guardRows_consumes {rows : Nat} {Q : List Value → Prop} {r : Reader Error (List Value)}
    (h : Consumes 0 Q r) : Consumes 0 Q (guardRows rows r) :=
  Consumes.ite (fun _ => Consumes.fail _ _ _) fun _ => h

theorem offsets_consumes (m : Mode) (rows : Nat) :
    Consumes 0 (fun offsets => offsets.length = rows) (Reader.readMany (getUsize m) rows) :=
  (getUsize_consumes m).readMany rows

/-- Cutting gives a part for every offset, or a panic that is not the end of the fuel. -/
theorem cutAt_length {wrap : List Value → Result Value} {prev : Nat} {os : List Nat}
    {items values : List Value} (h : cutAt wrap prev os items = .ok values) :
    values.length = os.length := by
  induction os generalizing prev items values with
  | nil =>
      obtain rfl : [] = values := by simpa [cutAt] using h
      rfl
  | cons o os ih =>
      rw [cutAt] at h
      split at h
      · simp at h
      · obtain ⟨b, -, h⟩ := Outcome.bind_eq_ok.mp h
        obtain ⟨bs, hbs, h⟩ := Outcome.bind_eq_ok.mp h
        obtain rfl : b :: bs = values := by simpa using h
        rw [List.length_cons, List.length_cons, ih hbs]

/-- No step of a pure computation is a bounded loop. -/
def Fueled {α : Type} (o : Result α) : Prop := o ≠ .error (.panic .outOfFuel)

theorem Fueled.bind {α β : Type} {o : Result α} {f : α → Result β} (ho : Fueled o)
    (hf : ∀ a, Fueled (f a)) : Fueled (o >>= f) := by
  cases o with
  | ok a => exact hf a
  | error e => exact fun h => ho (by simpa using h)

theorem Fueled.ok {α : Type} (a : α) : Fueled (.ok a : Result α) := by simp [Fueled]

theorem cutAt_fueled {wrap : List Value → Result Value} (hwrap : ∀ xs, Fueled (wrap xs))
    (prev : Nat) (os : List Nat) (items : List Value) : Fueled (cutAt wrap prev os items) := by
  induction os generalizing prev items with
  | nil => exact Fueled.ok _
  | cons o os ih =>
      rw [cutAt]
      split
      · simp [Fueled]
      · exact (hwrap _).bind fun b => (ih o _).bind fun bs => Fueled.ok _

theorem traverse_fueled {α β : Type} {f : α → Result β} (hf : ∀ a, Fueled (f a)) (as : List α) :
    Fueled (Outcome.traverse f as) := by
  induction as with
  | nil => exact Fueled.ok _
  | cons a as ih => exact (hf a).bind fun b => ih.bind fun bs => Fueled.ok _

theorem array_consumes {m : Mode} {readInner : Nat → Reader Error (List Value)}
    {innerValue : List Value → Result Value}
    (hinner : ∀ n, Consumes 0 (fun _ => True) (readInner n))
    (hwrap : ∀ xs, Fueled (innerValue xs)) (rows : Nat) :
    Consumes 0 (AtMost rows) (ArrayDeserializer.read m readInner innerValue rows) := by
  refine Consumes.ite (fun _ => Consumes.pure (Nat.zero_le rows)) fun _ => ?_
  refine (offsets_consumes m rows).bind_any fun offsets hlen => ?_
  cases offsets.getLast? with
  | none => exact Consumes.panic _ _ (by decide)
  | some last =>
      refine (hinner last).bind_any fun items _ => Consumes.ofOutcome (cutAt_fueled hwrap _ _ _) ?_
      intro values hvalues
      exact Nat.le_of_eq ((cutAt_length hvalues).trans hlen)

namespace PointDeserializer

theorem store_fueled (set : Point → UInt64 → Point) (points : List Point) (values : List Value) :
    Fueled (store set points values) := by
  induction points generalizing values with
  | nil =>
      cases values with
      | nil => exact Fueled.ok _
      | cons v values => cases v <;> simp [store, Fueled, Outcome.panic]
  | cons p points ih =>
      cases values with
      | nil => exact Fueled.ok _
      | cons v values =>
          cases v
          case float64 bits => exact (ih values).bind fun rest => Fueled.ok _
          all_goals simp [store, Fueled, Outcome.panic]

theorem store_length {set : Point → UInt64 → Point} {points stored : List Point}
    {values : List Value} (h : store set points values = .ok stored) :
    stored.length = points.length := by
  induction points generalizing values stored with
  | nil =>
      cases values with
      | nil => simpa [store] using h
      | cons v values => cases v <;> simp [store, Outcome.panic] at h
  | cons p points ih =>
      cases values with
      | nil =>
          obtain rfl : p :: points = stored := by simpa [store] using h
          rfl
      | cons v values =>
          cases v
          case float64 bits =>
            obtain ⟨rest, hrest, h⟩ := Outcome.bind_eq_ok.mp h
            obtain rfl : set p bits :: rest = stored := by simpa using h
            rw [List.length_cons, List.length_cons, ih hrest]
          all_goals simp [store, Outcome.panic] at h

end PointDeserializer

theorem point_consumes (m : Mode) (rows : Nat) :
    Consumes 0 (AtMost rows) (PointDeserializer.read m rows) := by
  have hcolumn : Consumes 0 (fun values => values.length = rows)
      (guardRows rows (Reader.readMany (SizedDeserializer.readEntry m .float64) rows)) :=
    guardRows_consumes ((readEntry_consumes m .float64).readMany rows)
  refine hcolumn.bind_any fun xs _ => ?_
  refine (Consumes.ofOutcome (PointDeserializer.store_fueled _ _ _)
    (Q := fun points => points.length = rows) ?_).bind_any fun points hpoints => ?_
  · intro points h
    simpa using PointDeserializer.store_length h
  refine hcolumn.bind_any fun ys _ => ?_
  refine (Consumes.ofOutcome (PointDeserializer.store_fueled _ _ _)
    (Q := fun points => points.length = rows) ?_).bind_any fun stored hstored => ?_
  · intro stored h
    rw [PointDeserializer.store_length h, hpoints]
  exact Consumes.pure (by rw [AtMost, List.length_map, hstored])

/-- A shape is wrapped by a function that unwraps its items. -/
theorem shapeValue_fueled {α : Type} {outer : List α → Value} {unwrap : Value → Result α}
    (hunwrap : ∀ v, Fueled (unwrap v)) (items : List Value) :
    Fueled (outer <$> Outcome.traverse unwrap items) := by
  have hitems := (traverse_fueled hunwrap items).bind fun xs => Fueled.ok (outer xs)
  intro h
  apply hitems
  rw [← h]
  cases Outcome.traverse unwrap items <;> rfl

theorem ring_consumes (m : Mode) (rows : Nat) :
    Consumes 0 (AtMost rows) (RingDeserializer.read m rows) := by
  refine array_consumes (fun n => ?_) (shapeValue_fueled fun v => ?_) rows
  · exact (guardRows_consumes (point_consumes m n)).mono (Nat.le_refl 0) fun _ _ => trivial
  · cases v <;> simp [PointDeserializer.item, Fueled, Outcome.panic]

theorem polygon_consumes (m : Mode) (rows : Nat) :
    Consumes 0 (AtMost rows) (PolygonDeserializer.read m rows) := by
  refine array_consumes (fun n => ?_) (shapeValue_fueled fun v => ?_) rows
  · exact (guardRows_consumes (ring_consumes m n)).mono (Nat.le_refl 0) fun _ _ => trivial
  · cases v <;> simp [RingDeserializer.item, Fueled, Outcome.panic]

theorem multiPolygon_consumes (m : Mode) (rows : Nat) :
    Consumes 0 (AtMost rows) (MultiPolygonDeserializer.read m rows) := by
  refine array_consumes (fun n => ?_) (shapeValue_fueled fun v => ?_) rows
  · exact (guardRows_consumes (polygon_consumes m n)).mono (Nat.le_refl 0) fun _ _ => trivial
  · cases v <;> simp [PolygonDeserializer.item, Fueled, Outcome.panic]

theorem cutPairsAt_fueled (taken : Nat) (os : List Nat) (xs ys : List Value) :
    Fueled (cutPairsAt taken os xs ys : Result (List (List Value × List Value))) := by
  induction os generalizing taken xs ys with
  | nil => exact Fueled.ok _
  | cons o os ih =>
      rw [cutPairsAt]
      split
      · simp [Fueled]
      · exact (ih _ _ _).bind fun rest => Fueled.ok _

theorem cutPairsAt_length {taken : Nat} {os : List Nat} {xs ys : List Value}
    {pss : List (List Value × List Value)}
    (h : (cutPairsAt taken os xs ys : Result (List (List Value × List Value))) = .ok pss) :
    pss.length = os.length := by
  induction os generalizing taken xs ys pss with
  | nil =>
      obtain rfl : [] = pss := by simpa [cutPairsAt] using h
      rfl
  | cons o os ih =>
      rw [cutPairsAt] at h
      split at h
      · simp at h
      · obtain ⟨rest, hrest, h⟩ := Outcome.bind_eq_ok.mp h
        obtain rfl := Except.ok.inj h
        rw [List.length_cons, List.length_cons, ih hrest]

theorem map_consumes {m : Mode} {readKey readValue : Nat → Reader Error (List Value)}
    (hkey : ∀ n, Consumes 0 (fun _ => True) (readKey n))
    (hvalue : ∀ n, Consumes 0 (fun _ => True) (readValue n)) (rows : Nat) :
    Consumes 0 (AtMost rows) (MapDeserializer.read m readKey readValue rows) := by
  cases m with
  | sync => exact Consumes.fail _ _ _
  | async =>
      refine Consumes.ite (fun _ => Consumes.fail _ _ _) fun _ => ?_
      refine Consumes.ite (fun _ => Consumes.pure (Nat.zero_le rows)) fun _ => ?_
      refine (offsets_consumes .async rows).bind_any fun offsets hlen => ?_
      cases offsets.getLast? with
      | none => exact Consumes.panic _ _ (by decide)
      | some total =>
          refine (hkey total).bind_any fun keys _ => ?_
          refine Consumes.ite (fun _ => Consumes.panic _ _ (by decide)) fun _ => ?_
          refine (hvalue total).bind_any fun values _ => ?_
          refine Consumes.ite (fun _ => Consumes.panic _ _ (by decide)) fun _ => ?_
          have hpairs := cutPairsAt_fueled 0 offsets keys values
          cases hcut : (cutPairsAt 0 offsets keys values :
              Result (List (List Value × List Value))) with
          | ok pss =>
              refine Consumes.ofOutcome (by simp [Functor.map, Except.map]) fun out hout => ?_
              obtain rfl := Except.ok.inj hout
              rw [AtMost, List.length_map, cutPairsAt_length hcut, hlen]
          | error e =>
              refine Consumes.ofOutcome ?_ fun out hout => by simp [Functor.map, Except.map] at hout
              intro he
              exact hpairs (hcut.trans (by simpa [Functor.map, Except.map] using he))

theorem applyMask_fueled (mask : Bytes) (out : List Value) :
    Fueled (NullableDeserializer.applyMask mask out) := by
  induction mask generalizing out with
  | nil => cases out <;> exact Fueled.ok _
  | cons b mask ih =>
      cases out with
      | nil =>
          rw [NullableDeserializer.applyMask]
          split
          · simp [Fueled, Outcome.panic]
          · exact ih []
      | cons v out => exact (ih out).bind fun rest => Fueled.ok _

theorem applyMask_length {mask : Bytes} {out masked : List Value}
    (h : NullableDeserializer.applyMask mask out = .ok masked) : masked.length = out.length := by
  induction mask generalizing out masked with
  | nil =>
      obtain rfl : out = masked := by simpa [NullableDeserializer.applyMask] using h
      rfl
  | cons b mask ih =>
      cases out with
      | nil =>
          rw [NullableDeserializer.applyMask] at h
          split at h
          · simp [Outcome.panic] at h
          · exact ih h
      | cons v out =>
          obtain ⟨rest, hrest, h⟩ := Outcome.bind_eq_ok.mp h
          obtain rfl := Except.ok.inj h
          rw [List.length_cons, List.length_cons, ih hrest]

theorem nullable_consumes {m : Mode} {readInner : Nat → Reader Error (List Value)} {rows : Nat}
    (hinner : Consumes 0 (AtMost rows) (readInner rows)) :
    Consumes 0 (AtMost rows) (NullableDeserializer.read m readInner rows) := by
  have hmask := (Consumes.takeExact m.eof rows).mono (Nat.zero_le rows) fun _ h => h
  refine hmask.bind_any fun mask _ => hinner.bind_any fun out hout => ?_
  refine Consumes.ofOutcome (applyMask_fueled mask out) fun masked hmasked => ?_
  rw [AtMost, applyMask_length hmasked]
  exact hout

/-! ## Dictionary columns -/

namespace LowCardinalityDeserializer

open LowCardinality

theorem readDictionary_consumes {readInner : Nat → Reader Error (List Value)}
    (hinner : ∀ n, Consumes 0 (fun _ => True) (readInner n)) :
    Consumes 0 (fun _ => True) (readDictionary readInner) :=
  ((getUsize_consumes .async).mono (Nat.zero_le _) fun _ h => h).bind_any fun n _ => hinner n

theorem readAnnounced_consumes {readInner : Nat → Reader Error (List Value)}
    (hinner : ∀ n, Consumes 0 (fun _ => True) (readInner n)) (announced : Bool)
    (kept : Option (List Value)) :
    Consumes 0 (fun _ => True) (readAnnounced announced readInner kept) :=
  Consumes.ite (fun _ => (readDictionary_consumes hinner).map fun _ _ => trivial)
    fun _ => Consumes.pure trivial

/-- A head is a flag word and a row count at least; it leaves the limit and the output. -/
theorem readHeader_consumes {readInner : Nat → Reader Error (List Value)}
    (hinner : ∀ n, Consumes 0 (fun _ => True) (readInner n)) (s : State) :
    Consumes 16 (fun s' => s'.limit = s.limit ∧ s'.output = s.output) (readHeader readInner s) := by
  refine Consumes.bind (j := 8) (k := 8) (getUsize_consumes .async) fun flags _ => ?_
  cases IndexType.ofCode (flags &&& 255) with
  | none => exact Consumes.fail _ _ _
  | some i =>
      refine Consumes.bind (j := 0) (k := 8) (readAnnounced_consumes hinner _ _) fun _ _ => ?_
      refine Consumes.bind (j := 0) (k := 8) (readAnnounced_consumes hinner _ _) fun _ _ => ?_
      exact (getUsize_consumes .async).bind_any fun pending _ => Consumes.pure ⟨rfl, rfl⟩

theorem entryAt_fueled (dictionary : List Value) (position index : Nat) (name : String) :
    Fueled (entryAt dictionary position index name) := by
  unfold entryAt
  split <;> simp [Fueled, Outcome.fail]

/-- The values of a block are as many as its indexes, or none at all. -/
theorem resolve_fueled (isNullable : Bool) (s : State) (entries : List Nat) :
    Fueled (resolve isNullable s entries) := by
  have hentry : ∀ additional entry, Fueled (if isNullable = true ∧ entry = 0 then (.ok .null)
      else entryAt additional entry entry "additional_keys") := by
    intro additional entry
    split
    · exact Fueled.ok _
    · exact entryAt_fueled _ _ _ _
  unfold resolve
  split
  · split
    · simp [Fueled, Outcome.fail]
    · exact traverse_fueled (hentry _) _
  split
  · split
    · simp [Fueled, Outcome.fail]
    · exact traverse_fueled (fun _ => entryAt_fueled _ _ _ _) _
  split
  · split
    · simp [Fueled, Outcome.fail]
    · simp [Fueled, Outcome.fail]
    · refine traverse_fueled (fun entry => ?_) _
      split
      · exact Fueled.ok _
      split
      · exact entryAt_fueled _ _ _ _
      · exact entryAt_fueled _ _ _ _
  · exact Fueled.ok _

theorem traverse_length {α β : Type} {f : α → Result β} {as : List α} {bs : List β}
    (h : Outcome.traverse f as = .ok bs) : bs.length = as.length := by
  induction as generalizing bs with
  | nil =>
      obtain rfl := Except.ok.inj h
      rfl
  | cons a as ih =>
      obtain ⟨b, -, h⟩ := Outcome.bind_eq_ok.mp h
      obtain ⟨rest, hrest, h⟩ := Outcome.bind_eq_ok.mp h
      obtain rfl := Except.ok.inj h
      rw [List.length_cons, List.length_cons, ih hrest]

theorem resolve_length {isNullable : Bool} {s : State} {entries : List Nat} {values : List Value}
    (h : resolve isNullable s entries = .ok values) : values.length ≤ entries.length := by
  unfold resolve at h
  split at h
  · split at h
    · simp [Outcome.fail] at h
    · exact (traverse_length h).le
  split at h
  · split at h
    · simp [Outcome.fail] at h
    · exact (traverse_length h).le
  split at h
  · split at h
    · simp [Outcome.fail] at h
    · simp [Outcome.fail] at h
    · exact (traverse_length h).le
  · obtain rfl := Except.ok.inj h
    exact Nat.zero_le _

theorem IndexType_get_consumes (i : IndexType) : Consumes 0 (fun _ => True) (i.get .async) := by
  cases i <;> exact getLe_map_consumes .async _

/-- Between two turns either no rows are wanted or none are pending; what is delivered and
what is wanted never exceeds the rows of the column. -/
def AtHead (rows : Nat) (s : State) : Prop :=
  (s.limit = 0 ∨ s.numPendingRows = 0) ∧ s.output.length + s.limit ≤ rows

theorem turn_consumes {readInner : Nat → Reader Error (List Value)}
    (hinner : ∀ n, Consumes 0 (fun _ => True) (readInner n)) (isNullable : Bool) {rows : Nat}
    {s : State} (hhead : AtHead rows s) (hlimit : s.limit ≠ 0) :
    Consumes 16 (AtHead rows) (turn isNullable readInner s) := by
  obtain ⟨hpending, hrows⟩ := hhead
  have hpending : s.numPendingRows = 0 := hpending.resolve_left hlimit
  rw [turn, if_pos hpending]
  refine (readHeader_consumes hinner s).bind_any fun s' hs' => ?_
  obtain ⟨hlimit', houtput'⟩ := hs'
  have hentries := (IndexType_get_consumes s'.indexedType).readMany
    (min s'.limit s'.numPendingRows)
  refine hentries.bind_any fun entries hlen => ?_
  refine (Consumes.ofOutcome (resolve_fueled isNullable s' entries)
    (Q := fun values => values.length ≤ entries.length)
    fun values hvalues => resolve_length hvalues).bind_any fun values hvalues => ?_
  refine Consumes.pure ⟨?_, ?_⟩
  · dsimp only
    omega
  · simp only [List.length_append, houtput']
    omega

/-- The loop ends: it takes sixteen bytes at every turn. -/
theorem loop_consumes {readInner : Nat → Reader Error (List Value)}
    (hinner : ∀ n, Consumes 0 (fun _ => True) (readInner n)) (isNullable : Bool) {rows : Nat}
    {fuel : Nat} {s : State} (hhead : AtHead rows s) {bs : Bytes} (hfuel : bs.length < fuel) :
    loop isNullable readInner fuel s bs ≠ .error (.panic .outOfFuel) ∧
      ∀ out rest, loop isNullable readInner fuel s bs = .ok (out, rest) →
        rest.length ≤ bs.length ∧ AtMost rows out := by
  induction fuel generalizing s bs with
  | zero => omega
  | succ fuel ih =>
      rw [loop]
      by_cases hlimit : s.limit = 0
      · rw [if_pos hlimit]
        refine ⟨by simp, fun out rest hok => ?_⟩
        obtain ⟨rfl, rfl⟩ : s.output = out ∧ bs = rest := by simpa using hok
        exact ⟨Nat.le_refl _, by have := hhead.2; rw [AtMost]; omega⟩
      · rw [if_neg hlimit, Reader.bind_apply]
        obtain ⟨hturnFuel, hturn⟩ := turn_consumes hinner isNullable hhead hlimit bs
        cases hstep : turn isNullable readInner s bs with
        | error e => exact ⟨by simpa [hstep] using hturnFuel, by simp⟩
        | ok x =>
            obtain ⟨hlen, hhead'⟩ := hturn x.1 x.2 hstep
            obtain ⟨hrestFuel, hrest⟩ := @ih x.1 hhead' x.2 (by omega)
            refine ⟨hrestFuel, fun out rest hok => ?_⟩
            obtain ⟨hlen', hout⟩ := hrest out rest hok
            exact ⟨by omega, hout⟩

theorem read_consumes {m : Mode} {readInner : Nat → Reader Error (List Value)}
    (hinner : ∀ n, Consumes 0 (fun _ => True) (readInner n)) (isNullable : Bool) (rows : Nat) :
    Consumes 0 (AtMost rows) (read m isNullable readInner rows) := by
  cases m with
  | sync => exact Consumes.fail _ _ _
  | async =>
      intro bs
      have hhead : AtHead rows (State.init rows) := ⟨.inr rfl, by simp [State.init]⟩
      exact loop_consumes hinner isNullable hhead (by omega)

end LowCardinalityDeserializer

/-! ## Columns of any type -/

namespace ChType

theorem readTuples_consumes {m : Mode} {items : List ChType} {rows : Nat}
    (hitems : ∀ t ∈ items, Consumes 0 (AtMost rows) (t.readColumn m rows))
    {tuples : List (List Value)} (htuples : tuples.length = rows) :
    Consumes 0 (fun out => out.length = rows) (readTuples m items rows tuples) := by
  induction items generalizing tuples with
  | nil => exact Consumes.pure htuples
  | cons t ts ih =>
      refine (hitems t List.mem_cons_self).bind_any fun column hcolumn => ?_
      have hlen : column.length ≤ tuples.length := by
        rw [htuples]
        exact hcolumn
      obtain ⟨tuples', hpush, htuples'⟩ := pushEach_of_length_le (ε := Error) hlen
      rw [hpush]
      exact ih (fun t' ht' => hitems t' (List.mem_cons_of_mem t ht')) (htuples'.trans htuples)

/-- **Every column reader ends**, on every input, and returns at most as many values as
rows. -/
theorem readColumn_consumes (m : Mode) (t : ChType) (rows : Nat) :
    Consumes 0 (AtMost rows) (t.readColumn m rows) := by
  have hany : ∀ {t : ChType}, (∀ n, Consumes 0 (AtMost n) (t.readColumn m n)) →
      ∀ n, Consumes 0 (fun _ => True) (t.readColumn m n) :=
    fun h n => (h n).mono (Nat.le_refl 0) fun _ _ => trivial
  induction t using inductionOn generalizing rows with
  | hleaf t hflat =>
      cases hgeo : t.isGeo with
      | true =>
          cases t <;> simp [isGeo] at hgeo
          · exact guardRows_consumes (point_consumes m rows)
          · exact guardRows_consumes (ring_consumes m rows)
          · exact guardRows_consumes (polygon_consumes m rows)
          · exact guardRows_consumes (multiPolygon_consumes m rows)
      | false =>
          have hentry : t.isEntry = true := by
            cases t with
            | nullable | lowCardinality | array | tuple | map => cases hflat
            | _ => first | rfl | simp [isGeo] at hgeo
          rw [readColumn_entry m hentry]
          exact guardRows_consumes
            (((readEntry_consumes m t).readMany rows).mono (Nat.le_refl 0) fun _ h => h.le)
  | hnullable inner ih => exact guardRows_consumes (nullable_consumes (ih rows))
  | hlowCardinality inner ih =>
      rw [readColumn_lowCardinality]
      exact guardRows_consumes (LowCardinalityDeserializer.read_consumes (hany ih) _ rows)
  | harray inner ih => exact guardRows_consumes (array_consumes (hany ih) (fun _ => Fueled.ok _) rows)
  | htuple items ih =>
      refine guardRows_consumes ?_
      cases m with
      -- The synchronous reader of tuples is not implemented.
      | sync => exact Consumes.fail _ _ _
      | async =>
          have htuples := readTuples_consumes (fun t ht => ih t ht rows)
            (List.length_replicate (n := rows) (a := ([] : List Value)))
          refine htuples.bind_any fun out hout => Consumes.pure ?_
          rw [AtMost, List.length_map, hout]
  | hmap key value ihkey ihvalue =>
      exact guardRows_consumes (map_consumes (hany ihkey) (hany ihvalue) rows)

end ChType

end ClickhouseArrow
