import ClickhouseArrow.Arrow.ModeAgreement

/-!
# The type of a decoded array

What the decoders return when they return: an array of a type that is known before the first
byte is read.  `Serves` says of a type, a builder and a data type that they belong together at
every depth; from it follow the type of the array, its length and the absence of nulls where
there is no mask, by one induction over the type.  Only the arrays that are returned are spoken
of, so the rules of partial correctness are enough.
-/

namespace ClickhouseArrow

open Wire

namespace Arrow

/-! ## What a builder builds -/

/-- The data type of the arrays that a builder finishes, for the builders that are not
nested. -/
def TypedBuilder.flatType : TypedBuilder → Option DataType
  | .int8 => some (.primitive .int8)
  | .int16 => some (.primitive .int16)
  | .int32 => some (.primitive .int32)
  | .int64 => some (.primitive .int64)
  | .uint8 => some (.primitive .uint8)
  | .uint16 => some (.primitive .uint16)
  | .uint32 => some (.primitive .uint32)
  | .uint64 => some (.primitive .uint64)
  | .float32 => some (.primitive .float32)
  | .float64 => some (.primitive .float64)
  | .decimal32 s => some (.primitive (.decimal128 9 s))
  | .decimal64 s => some (.primitive (.decimal128 18 s))
  | .decimal128 s => some (.primitive (.decimal128 38 s))
  | .decimal256 s => some (.primitive (.decimal256 76 s))
  | .date | .date32 => some (.primitive .date32)
  | .dateTime tz | .dateTimeS tz => some (.primitive (.timestamp .second tz))
  | .dateTimeMs tz => some (.primitive (.timestamp .millisecond tz))
  | .dateTimeMu tz => some (.primitive (.timestamp .microsecond tz))
  | .dateTimeNano tz => some (.primitive (.timestamp .nanosecond tz))
  | .string | .object => some (.bytes .utf8)
  | .binary => some (.bytes .binary)
  | .fixedSizeBinary size => some (.fixedSizeBinary size)
  | .enum8 => some (.dictionary (.primitive .int8) (.bytes .utf8))
  | .enum16 => some (.dictionary (.primitive .int16) (.bytes .utf8))
  | .list _ _ | .lowCardinality _ _ | .map _ _ | .tuple _ => none

mutual

/-- The builder and the data type belong to the type, down to its leaves: the arrays that are
read have this data type. -/
def Serves : ChType → TypedBuilder → DataType → Prop
  | .nullable inner, b, d => Serves inner b d
  | .array inner, b, d =>
      ∃ item it, b = .list .list item ∧
        d = listOf (it, inner.stripLowCardinality.isNullable) ∧ Serves inner item it
  | .lowCardinality inner, b, d =>
      ∃ key value v, b = .lowCardinality key value ∧
        d = .dictionary (.primitive key.primitive) v ∧ Serves inner value v
  | .map key value, b, d =>
      ∃ k v dk dv, b = .map k v ∧ d = mapOf dk dv ∧ Serves key k dk ∧ Serves value v dv.1
  | .tuple items, b, d =>
      ∃ builders fields, b = .tuple builders ∧ d = .struct fields ∧
        ServesEach items builders fields
  | t, b, d => (∃ d', typedBuild t d' = .ok b) ∧ b.flatType = some d

/-- As many builders and fields as components, which belong together one by one. -/
def ServesEach : List ChType → List TypedBuilder → List Field → Prop
  | t :: ts, builders, fields =>
      ∃ b bs f fs, builders = b :: bs ∧ fields = f :: fs ∧ Serves t b f.dataType ∧
        ServesEach ts bs fs
  | [], builders, fields => builders = [] ∧ fields = []

end

theorem serves_stripNull (t : ChType) (b : TypedBuilder) (d : DataType) :
    Serves t.stripNull b d ↔ Serves t b d := by
  cases t <;> simp [ChType.stripNull, Serves]

theorem serves_of_flat {t : ChType} {b : TypedBuilder} {d d' : DataType}
    (hb : typedBuild t d' = .ok b) (hd : b.flatType = some d) : Serves t b d := by
  cases t <;> first | exact ⟨⟨d', hb⟩, hd⟩ | simp [typedBuild, Outcome.fail] at hb

/-- A type that is passed a `Nullable` is served in the same way. -/
theorem Serves.intoNullable {t : ChType} {b : TypedBuilder} {d : DataType} (h : Serves t b d) :
    Serves t.intoNullable b d := by
  induction t using ChType.inductionOn generalizing b d with
  | hleaf t hflat =>
      cases t with
      | nullable | lowCardinality => cases hflat
      | _ => exact h
  | hlowCardinality inner _ ih =>
      obtain ⟨key, value, v, rfl, rfl, hvalue⟩ := h
      exact ⟨key, value, v, rfl, rfl, ih hvalue⟩
  | hnullable inner _ => exact h
  | harray inner _ => exact h
  | htuple items _ => exact h
  | hmap key value _ _ => exact h

theorem ServesEach.fitEach {ts : List ChType}
    (ih : ∀ t ∈ ts, ∀ b d, Serves t b d → Fits t b) {builders : List TypedBuilder}
    {fields : List Field} (h : ServesEach ts builders fields) : FitEach ts builders := by
  induction ts generalizing builders fields with
  | nil => exact h.1
  | cons t ts ihts =>
      obtain ⟨b, bs, f, fs, rfl, rfl, hhead, htail⟩ := h
      have hrest := ihts (fun u hu => ih u (List.mem_cons_of_mem t hu)) htail
      exact ⟨b, bs, rfl, ih t List.mem_cons_self b f.dataType hhead, hrest⟩

/-- The builder fits the type, so the synchronous decoder agrees with the other one. -/
theorem Serves.fits {t : ChType} {b : TypedBuilder} {d : DataType} (h : Serves t b d) :
    Fits t b := by
  induction t using ChType.inductionOn generalizing b d with
  | hleaf t hflat =>
      cases t with
      | nullable | lowCardinality | array | tuple | map => cases hflat
      | _ => exact h.1
  | hnullable inner ih => exact ih h
  | hlowCardinality inner _ ih =>
      obtain ⟨key, value, v, rfl, -, hvalue⟩ := h
      exact ⟨key, value, rfl, ih hvalue⟩
  | harray inner ih =>
      obtain ⟨item, it, rfl, -, hitem⟩ := h
      exact ⟨_, item, rfl, ih hitem⟩
  | htuple items ih =>
      obtain ⟨builders, fields, rfl, -, hitems⟩ := h
      exact ⟨builders, rfl, hitems.fitEach fun t ht _ _ => ih t ht⟩
  | hmap key value ihkey ihvalue =>
      obtain ⟨k, v, dk, dv, rfl, -, hkey, hvalue⟩ := h
      exact ⟨k, v, rfl, ihkey hkey, ihvalue hvalue⟩

/-! ## Rows of a leaf -/

/-- As many entries as rows, all of them values where there is no mask. -/
structure Filled {α : Type} (rows : Nat) (nulls : Bytes) (entries : List (Option α)) : Prop where
  length_eq : entries.length = rows
  isSome_of_nil : nulls = [] → ∀ entry ∈ entries, entry.isSome

theorem Filled.nil {α : Type} (nulls : Bytes) : Filled 0 nulls ([] : List (Option α)) :=
  ⟨rfl, by simp⟩

theorem Filled.cons {α : Type} {rows : Nat} {nulls : Bytes} {entry : Option α}
    {entries : List (Option α)} (hentry : nulls = [] → entry.isSome)
    (h : Filled rows nulls entries) : Filled (rows + 1) nulls (entry :: entries) := by
  constructor
  · rw [List.length_cons, h.length_eq]
  · intro hnulls
    exact List.forall_mem_cons.mpr ⟨hentry hnulls, h.isSome_of_nil hnulls⟩

theorem Filled.map {α β : Type} {rows : Nat} {nulls : Bytes} {entries : List (Option α)}
    (h : Filled rows nulls entries) (f : α → β) :
    Filled rows nulls (entries.map (Option.map f)) := by
  constructor
  · rw [List.length_map, h.length_eq]
  · intro hnulls entry hentry
    obtain ⟨row, hrow, rfl⟩ := List.mem_map.mp hentry
    rw [Option.isSome_map]
    exact h.isSome_of_nil hnulls row hrow

/-- The builder has no null buffer when there was no mask. -/
theorem Filled.count_nullsOf {α : Type} {rows : Nat} {nulls : Bytes} {entries : List (Option α)}
    (h : Filled rows nulls entries) (hnulls : nulls = []) : (nullsOf entries).count = 0 := by
  have hall : entries.all Option.isSome = true := List.all_eq_true.mpr (h.isSome_of_nil hnulls)
  rw [nullsOf, if_pos hall]
  rfl

theorem castSlice_length (width n : Nat) (bytes : Bytes) :
    (castSlice width n bytes).length = n := by
  induction n generalizing bytes with
  | zero => rfl
  | succ n ih => rw [castSlice, List.length_cons, ih]

theorem isSome_of_isValid {α : Type} {nulls : Bytes} {row : Nat} {valid : Bool} {value : α}
    (h : isValid nulls row = .ok valid) (hnulls : nulls = []) :
    (if valid then some value else none).isSome := by
  subst hnulls
  obtain rfl : true = valid := Except.ok.inj h
  rfl

theorem filled_of_maskFrom {α : Type} {nulls : Bytes} {values : List α} {row : Nat}
    {entries : List (Option α)} (h : maskFrom nulls row values = .ok entries) :
    Filled values.length nulls entries := by
  induction values generalizing row entries with
  | nil =>
      cases h
      exact Filled.nil nulls
  | cons value values ih =>
      obtain ⟨valid, hvalid, h⟩ := Outcome.bind_eq_ok.mp h
      obtain ⟨rest, hrest, h⟩ := Outcome.bind_eq_ok.mp h
      cases h
      exact Filled.cons (isSome_of_isValid hvalid) (ih hrest)

theorem deserBulk_filled (α : Type) [Word α] (m : Mode) (rows : Nat) (nulls : Bytes) :
    Yields (Filled rows nulls) (deserBulk m α rows nulls) := by
  apply Yields.ite
  · rintro rfl
    exact Yields.pure (Filled.nil nulls)
  · intro _
    have hbulk : Yields (fun values => values.length = rows) (readBulk m α rows) :=
      Yields.bind_any fun bytes => Yields.pure (by rw [List.length_map, castSlice_length])
    refine hbulk.bind fun values hvalues => Yields.ofOutcome fun entries hentries => ?_
    rw [← hvalues]
    exact filled_of_maskFrom hentries

theorem optValues_filled {α β : Type} (nulls : Bytes) (read : Reader ArrowError α)
    (append : α → ArrowResult β) (row n : Nat) :
    Yields (Filled n nulls) (optValues nulls read append row n) := by
  induction n generalizing row with
  | zero => exact Yields.pure (Filled.nil nulls)
  | succ n ih =>
      refine (Yields.ofOutcome fun valid h => h).bind fun valid hvalid => ?_
      refine Yields.bind_any fun value => ?_
      refine (Yields.ofOutcome fun entry h => h).bind fun entry hentry => ?_
      refine (ih (row + 1)).bind fun rest hrest => Yields.pure (hrest.cons fun hnulls => ?_)
      -- Without a mask every row is valid, so its value was appended.
      subst hnulls
      obtain rfl : true = valid := Except.ok.inj hvalid
      obtain ⟨x, -, rfl⟩ := Outcome.map_eq_ok.mp hentry
      rfl

theorem enumRows_filled {α : Type} [Word α] [DecidableEq α] (m : Mode)
    (notFound : α → ArrowError) (maxKey : Nat) (pairs : List (String × α)) (nulls : Bytes)
    (labels : List Bytes) (row n : Nat) :
    Yields (fun rows => Filled n nulls rows.2)
      (enumRows m notFound maxKey pairs nulls labels row n) := by
  induction n generalizing labels row with
  | zero => exact Yields.pure (Filled.nil nulls)
  | succ n ih =>
      refine Yields.bind_any fun idx => ?_
      refine (Yields.ofOutcome fun valid h => h).bind fun valid hvalid => ?_
      apply Yields.ite
      · intro _
        cases pairs.find? fun pair => pair.2 = idx with
        | none => exact Yields.fail _ _
        | some pair =>
            refine Yields.bind_any fun entry => ?_
            exact (ih entry.1 (row + 1)).bind fun rest hrest =>
              Yields.pure (hrest.cons fun _ => rfl)
      · intro hnot
        refine (ih labels (row + 1)).bind fun rest hrest =>
          Yields.pure (hrest.cons fun hnulls => absurd ?_ hnot)
        subst hnulls
        exact (Except.ok.inj hvalid).symm

/-! ## Leaves -/

/-- An array of the data type with a row for each of the rows, and without nulls of its own
where `nullFree` says so. -/
structure Decoded (d : DataType) (rows : Nat) (nullFree : Prop) (a : ArrowArray) : Prop where
  dataType_eq : a.dataType = d
  len_eq : a.len = rows
  nullCount_eq : nullFree → a.nullCount = 0

theorem finishPrimitive_decoded (t : PrimitiveType) {rows : Nat} {nulls : Bytes}
    {entries : List (Option t.Native)} (h : Filled rows nulls entries) :
    Decoded (.primitive t) rows (nulls = []) (finishPrimitive t entries) where
  dataType_eq := rfl
  len_eq := by
    show (valuesOf t.zero entries).length = rows
    rw [valuesOf, List.length_map, h.length_eq]
  nullCount_eq := h.count_nullsOf

theorem finishBytes_decoded (t : BytesType) {rows : Nat} {nulls : Bytes}
    {entries : List (Option Bytes)} (h : Filled rows nulls entries) :
    Decoded (.bytes t) rows (nulls = []) (finishBytes t entries) where
  dataType_eq := rfl
  len_eq := by
    show (valuesOf [] entries).length = rows
    rw [valuesOf, List.length_map, h.length_eq]
  nullCount_eq := h.count_nullsOf

theorem finishFixed_decoded (size : Int32) {rows : Nat} {nulls : Bytes}
    {entries : List (Option Bytes)} (h : Filled rows nulls entries) :
    Decoded (.fixedSizeBinary size) rows (nulls = []) (finishFixed size entries) where
  dataType_eq := rfl
  len_eq := by
    show (valuesOf (List.replicate size.toInt.toNat 0) entries).length = rows
    rw [valuesOf, List.length_map, h.length_eq]
  nullCount_eq := h.count_nullsOf

theorem finishLabels_decoded (key : KeyType) {rows : Nat} {nulls : Bytes}
    {entries : List Bytes × List (Option Nat)} (h : Filled rows nulls entries.2) :
    Decoded (.dictionary (.primitive key.primitive) (.bytes .utf8)) rows (nulls = [])
      (finishLabels key entries) where
  dataType_eq := rfl
  len_eq := by
    show (valuesOf 0 entries.2).length = rows
    rw [valuesOf, List.length_map, h.length_eq]
  nullCount_eq := h.count_nullsOf

/-- The arms of the builders of fixed-width values. -/
theorem Primitive.deserializeAsync_decoded {b : TypedBuilder} {d : DataType}
    (hd : b.flatType = some d) (rows : Nat) (nulls : Bytes) :
    Yields (Decoded d rows (nulls = [])) (Primitive.deserializeAsync b rows nulls) := by
  have hbulk (t : PrimitiveType) [Word t.Native] :
      Yields (Decoded (.primitive t) rows (nulls = []))
        (finishPrimitive t <$> deserBulk .async t.Native rows nulls) :=
    (deserBulk_filled t.Native .async rows nulls).map fun _ h => finishPrimitive_decoded t h
  -- Values that are stored wider than they are read.
  have hwiden (t : PrimitiveType) {α : Type} [Word α] (f : α → t.Native) :
      Yields (Decoded (.primitive t) rows (nulls = []))
        (do
          let values ← deserBulk .async α rows nulls
          pure (finishPrimitive t (values.map (Option.map f)))) :=
    (deserBulk_filled α .async rows nulls).bind fun _ h =>
      Yields.pure (finishPrimitive_decoded t (h.map f))
  have hrows (t : PrimitiveType) (read : Reader ArrowError t.Native) :
      Yields (Decoded (.primitive t) rows (nulls = []))
        (finishPrimitive t <$> optValues nulls read .ok 0 rows) :=
    (optValues_filled nulls read .ok 0 rows).map fun _ h => finishPrimitive_decoded t h
  cases b with
  | int8 => cases hd; exact @hbulk .int8 (inferInstanceAs (Word Int8))
  | int16 => cases hd; exact @hbulk .int16 (inferInstanceAs (Word Int16))
  | int32 => cases hd; exact @hbulk .int32 (inferInstanceAs (Word Int32))
  | int64 => cases hd; exact @hbulk .int64 (inferInstanceAs (Word Int64))
  | uint8 => cases hd; exact @hbulk .uint8 (inferInstanceAs (Word UInt8))
  | uint16 => cases hd; exact @hbulk .uint16 (inferInstanceAs (Word UInt16))
  | uint32 => cases hd; exact @hbulk .uint32 (inferInstanceAs (Word UInt32))
  | uint64 => cases hd; exact @hbulk .uint64 (inferInstanceAs (Word UInt64))
  | float32 => cases hd; exact @hbulk .float32 (inferInstanceAs (Word UInt32))
  | float64 => cases hd; exact @hbulk .float64 (inferInstanceAs (Word UInt64))
  | dateTimeS tz =>
      cases hd; exact @hbulk (.timestamp .second tz) (inferInstanceAs (Word Int64))
  | dateTimeMs tz =>
      cases hd; exact @hbulk (.timestamp .millisecond tz) (inferInstanceAs (Word Int64))
  | dateTimeMu tz =>
      cases hd; exact @hbulk (.timestamp .microsecond tz) (inferInstanceAs (Word Int64))
  | dateTimeNano tz =>
      cases hd; exact @hbulk (.timestamp .nanosecond tz) (inferInstanceAs (Word Int64))
  | decimal32 s => cases hd; exact hwiden (.decimal128 9 s) _
  | decimal64 s => cases hd; exact hwiden (.decimal128 18 s) _
  | date => cases hd; exact hwiden .date32 _
  | dateTime tz => cases hd; exact hwiden (.timestamp .second tz) _
  | date32 => cases hd; exact hrows .date32 _
  | decimal128 s => cases hd; exact hrows (.decimal128 38 s) _
  | decimal256 s => cases hd; exact hrows (.decimal256 76 s) _
  | _ => exact Yields.fail _ _

/-- The arms of the builders of byte strings, for any type. -/
theorem Binary.deserializeAsync_decoded (json : Bytes → Bytes) (t : ChType) {b : TypedBuilder}
    {d : DataType} (hd : b.flatType = some d) (rows : Nat) (nulls : Bytes) :
    Yields (Decoded d rows (nulls = [])) (Binary.deserializeAsync json t b rows nulls) := by
  have htext (u : BytesType) (read : Reader ArrowError Bytes) :
      Yields (Decoded (.bytes u) rows (nulls = []))
        (finishBytes u <$> optValues nulls read .ok 0 rows) :=
    (optValues_filled nulls read .ok 0 rows).map fun _ h => finishBytes_decoded u h
  have hfixed (size : Int32) (read : Reader ArrowError Bytes) :
      Yields (Decoded (.fixedSizeBinary size) rows (nulls = []))
        (finishFixed size <$> optValues nulls read (appendFixed size) 0 rows) :=
    (optValues_filled nulls read _ 0 rows).map fun _ h => finishFixed_decoded size h
  cases b with
  | string | object => cases hd; exact htext .utf8 _
  | binary => cases hd; exact htext .binary _
  | fixedSizeBinary size =>
      cases hd
      cases t with
      | fixedSizedString | fixedSizedBinary | ipv4 | ipv6 | uuid | int128 | uint128 | int256
      | uint256 => exact hfixed size _
      | _ => exact Yields.fail _ _
  | _ => exact Yields.fail _ _

/-- The arms of the builders of enums, for any type. -/
theorem Enums.deserializeAsync_decoded (t : ChType) {b : TypedBuilder} {d : DataType}
    (hd : b.flatType = some d) (rows : Nat) (nulls : Bytes) :
    Yields (Decoded d rows (nulls = [])) (Enums.deserializeAsync t b rows nulls) := by
  cases b with
  | enum8 =>
      cases hd
      cases t with
      | enum8 pairs =>
          exact (enumRows_filled _ _ _ pairs nulls [] 0 rows).map fun _ h =>
            finishLabels_decoded .int8 h
      | _ => exact Yields.fail _ _
  | enum16 =>
      cases hd
      cases t with
      | enum16 pairs =>
          exact (enumRows_filled _ _ _ pairs nulls [] 0 rows).map fun _ h =>
            finishLabels_decoded .int16 h
      | _ => exact Yields.fail _ _
  | _ => exact Yields.fail _ _

/-- Whichever arm the type chooses, the builder decides the data type.  A geo type has no
builder. -/
theorem decodeFlatAsync_decoded (json : Bytes → Bytes) {t : ChType} {b : TypedBuilder}
    {d d' : DataType} (hb : typedBuild t d' = .ok b) (hd : b.flatType = some d) (e : DataType)
    (rows : Nat) (nulls : Bytes) :
    Yields (Decoded d rows (nulls = [])) (decodeFlatAsync json t b e rows nulls) := by
  have hprimitive := Primitive.deserializeAsync_decoded hd rows nulls
  have hbinary := Binary.deserializeAsync_decoded json t hd rows nulls
  have henum := Enums.deserializeAsync_decoded t hd rows nulls
  cases t with
  | string | fixedSizedString | binary | fixedSizedBinary | object | int128 | int256 | uint128
  | uint256 | ipv6 | uuid | ipv4 => exact hbinary
  | enum8 | enum16 => exact henum
  | point | ring | polygon | multiPolygon => cases hb
  | _ => exact hprimitive

/-! ## Nested values -/

/-- What the constructor of a list returns is the list it was given. -/
theorem ListArray.eq_of_new {large : Bool} {item : Field} {offsets : List Nat}
    {values : ArrowArray} {nulls : Nulls} {a : ArrowArray}
    (h : ListArray.new large item offsets values nulls = .ok a) :
    a = .list large item offsets values nulls := by
  replace h := unwrap_eq_ok.mp h
  unfold ListArray.tryNew at h
  split_ifs at h
  · cases h
  all_goals obtain ⟨_, -, h⟩ := Outcome.bind_eq_ok.mp h
  · cases h
  · cases h
  · exact (Except.ok.inj h).symm

theorem StructArray.eq_of_tryNewWithLength {fields : List Field} {columns : List ArrowArray}
    {nulls : Nulls} {len : Nat} {a : ArrowArray}
    (h : StructArray.tryNewWithLength fields columns nulls len = .ok a) :
    a = .struct fields columns len nulls := by
  unfold StructArray.tryNewWithLength at h
  split_ifs at h
  · cases h
  · obtain ⟨_, -, h⟩ := Outcome.bind_eq_ok.mp h
    obtain ⟨_, -, h⟩ := Outcome.bind_eq_ok.mp h
    exact (Except.ok.inj h).symm

/-- The length is that of the first column. -/
theorem StructArray.eq_of_new {fields : List Field} {columns : List ArrowArray} {nulls : Nulls}
    {a : ArrowArray} (h : StructArray.new fields columns nulls = .ok a) :
    ∃ first rest, columns = first :: rest ∧ a = .struct fields columns first.len nulls := by
  cases columns with
  | nil => cases h
  | cons first rest =>
      exact ⟨first, rest, rfl, StructArray.eq_of_tryNewWithLength (unwrap_eq_ok.mp h)⟩

theorem MapArray.eq_of_new {entries : Field} {offsets : List Nat} {fields : List Field}
    {keys values : ArrowArray} {len : Nat} {nulls : Nulls} {sorted : Bool} {a : ArrowArray}
    (h : MapArray.new entries offsets (.struct fields [keys, values] len none) nulls sorted =
      .ok a) :
    a = .map entries sorted offsets keys values nulls := by
  replace h := unwrap_eq_ok.mp h
  unfold MapArray.tryNew at h
  split_ifs at h
  · cases h
  all_goals obtain ⟨_, -, h⟩ := Outcome.bind_eq_ok.mp h
  · cases h
  · cases h
  · exact (Except.ok.inj h).symm

theorem DictionaryArray.eq_of_new {key : KeyType} {keys : List (Option Int)}
    {values a : ArrowArray} (h : DictionaryArray.new key keys values = .ok a) :
    a = .dictionary key (keys.map fun k => (k.getD 0).toNat) (nullsOf keys) values := by
  unfold DictionaryArray.new at h
  split_ifs at h
  · exact (Except.ok.inj h).symm
  · cases h

theorem length_of_newOffsets {offsets : List Int} {out : List Nat}
    (h : newOffsets offsets = .ok out) : out.length = offsets.length := by
  unfold newOffsets at h
  split_ifs at h
  · obtain rfl := Except.ok.inj h
    rw [List.length_map]
  · cases h

theorem Lists.bulkOffsets_length (m : Mode) (rows : Nat) :
    Yields (fun offsets => offsets.length = rows + 1) (Lists.bulkOffsets m rows) := by
  apply Yields.ite
  · intro _
    exact Yields.panic _ _
  · intro _
    refine Yields.bind_any fun bytes => Yields.pure ?_
    rw [List.length_cons, List.length_map, castSlice_length]

theorem nullCount_nestedNulls {nulls : Bytes} (h : nulls = []) : (nestedNulls nulls).count = 0 := by
  subst h
  rfl

/-- A list has the data type that its items are read with, and the nullability of the type
without its dictionary. -/
theorem Lists.deserializeAsync_decoded {inner : ChType} {decode : Decode} {item : TypedBuilder}
    {it : DataType} (hitem : ∀ rows, Yields (fun a => a.dataType = it) (decode item it rows []))
    (rows : Nat) (nulls : Bytes) :
    Yields (Decoded (listOf (it, inner.stripLowCardinality.isNullable)) rows (nulls = []))
      (Lists.deserializeAsync inner decode (.list .list item)
        (listOf (it, inner.stripLowCardinality.isNullable)) rows nulls) := by
  show Yields _ (Lists.listDeserAsync false Lists.castI32 inner decode item it rows nulls)
  refine Yields.bind_any fun offsets => Yields.bind_any fun offsetBuffer => ?_
  refine (hitem _).bind fun innerArray hinner => ?_
  refine (Yields.ofOutcome fun a h => ListArray.eq_of_new h).bind fun listArray hlist => ?_
  apply Yields.ite
  · intro _
    exact Yields.fail _ _
  · intro hlen
    subst hlist
    refine Yields.pure ⟨?_, not_not.mp hlen, nullCount_nestedNulls⟩
    show DataType.list false _ = _
    rw [hinner]
    rfl

theorem LowCardinality.deserKey_filled (m : Mode)
    (indexes : ClickhouseArrow.LowCardinality.IndexType) (key : KeyType) (rows : Nat)
    (nulls : Bytes) : Yields (Filled rows nulls) (LowCardinality.deserKey m indexes key rows nulls) := by
  cases indexes <;>
    exact (deserBulk_filled _ m rows nulls).bind fun _ h => Yields.pure (h.map _)

/-- A dictionary has the keys of its builder and the values that are read. -/
theorem LowCardinality.deserializeAsync_decoded {inner : ChType} {decode : Decode}
    {key : KeyType} {value : TypedBuilder} {v : DataType}
    (hvalue : ∀ rows nulls, Yields (fun a => a.dataType = v) (decode value v rows nulls))
    (keyType : DataType) (rows : Nat) (nulls : Bytes) :
    Yields (Decoded (.dictionary (.primitive key.primitive) v) rows (nulls = []))
      (LowCardinality.deserializeAsync inner decode (.lowCardinality key value)
        (.dictionary keyType v) rows nulls) := by
  refine Yields.bind_any fun flags => ?_
  cases LowCardinality.indexType flags with
  | none => exact Yields.fail _ _
  | some indexes =>
      refine Yields.bind_any fun dictSize => ?_
      apply Yields.ite
      · intro _
        refine Yields.bind_any fun mask => (hvalue _ _).bind fun dictionary hdictionary => ?_
        refine Yields.bind_any fun numRows => ?_
        apply Yields.ite
        · intro _
          exact Yields.fail _ _
        · intro _
          refine (LowCardinality.deserKey_filled _ indexes key rows nulls).bind fun keys hkeys => ?_
          refine Yields.ofOutcome fun a h => ?_
          obtain rfl := DictionaryArray.eq_of_new h
          constructor
          · show DataType.dictionary _ _ = _
            rw [hdictionary]
          · show (keys.map _).length = rows
            rw [List.length_map, hkeys.length_eq]
          · exact hkeys.count_nullsOf
      · intro _
        exact Yields.fail _ _

/-- A map has the fields of its data type; its keys and values were checked against them. -/
theorem Maps.deserializeAsync_decoded {decodeKey decodeValue : Decode} {k v : TypedBuilder}
    (dk : DataType) (dv : DataType × Bool) (rows : Nat) (nulls : Bytes) :
    Yields (Decoded (mapOf dk dv) rows (nulls = []))
      (Maps.deserializeAsync decodeKey decodeValue (.map k v) (mapOf dk dv) rows nulls) := by
  refine (Yields.ofOutcome fun fields h => h).bind fun fields hfields => ?_
  obtain rfl := Except.ok.inj hfields
  refine (Lists.bulkOffsets_length _ rows).bind fun offsets hoffsets => ?_
  refine (Yields.ofOutcome fun out h => length_of_newOffsets h).bind fun offsetBuffer hbuffer => ?_
  refine Yields.bind_any fun keys => Yields.bind_any fun values => ?_
  refine (Yields.ofOutcome fun e h => h).bind fun entries hentries => ?_
  refine Yields.ofOutcome fun a h => ?_
  obtain ⟨first, rest, -, rfl⟩ := StructArray.eq_of_new hentries
  obtain rfl := MapArray.eq_of_new h
  constructor
  · rfl
  · show offsetBuffer.length - 1 = rows
    rw [hbuffer, List.length_map, hoffsets]
    omega
  · exact nullCount_nestedNulls

/-- A tuple has the fields of its data type.  One without rows is given its length. -/
theorem Tuples.deserializeAsync_decoded
    {decode : List TypedBuilder → List Field → Nat → Reader ArrowError (List ArrowArray)}
    {builders : List TypedBuilder} {fields : List Field} {rows : Nat}
    (hdecode : Yields (fun arrays => ∀ a ∈ arrays, a.len = rows) (decode builders fields rows))
    (nulls : Bytes) :
    Yields (Decoded (.struct fields) rows (nulls = []))
      (Tuples.deserializeAsync decode (.tuple builders) (.struct fields) rows nulls) := by
  apply Yields.ite
  · rintro rfl
    refine Yields.ofOutcome fun a h => ?_
    obtain rfl := StructArray.eq_of_tryNewWithLength h
    exact ⟨rfl, rfl, fun _ => rfl⟩
  · intro _
    refine hdecode.bind fun arrays harrays => Yields.ofOutcome fun a h => ?_
    obtain ⟨first, rest, rfl, rfl⟩ := StructArray.eq_of_new h
    exact ⟨rfl, harrays first List.mem_cons_self, nullCount_nestedNulls⟩

/-! ## Columns of any type -/

theorem deserializeColumnsAsync_len (json : Bytes → Bytes) {ts : List ChType}
    (ih : ∀ t ∈ ts, ∀ b d, Serves t b d → ∀ rows nulls,
      Yields (fun a => a.len = rows) (deserializeArrowAsync json t b d rows nulls))
    {builders : List TypedBuilder} {fields : List Field} (h : ServesEach ts builders fields)
    (rows : Nat) :
    Yields (fun arrays => ∀ a ∈ arrays, a.len = rows)
      (deserializeColumnsAsync json ts builders fields rows) := by
  induction ts generalizing builders fields with
  | nil => exact Yields.pure (by simp)
  | cons t ts ihts =>
      obtain ⟨b, bs, f, fs, rfl, rfl, hhead, htail⟩ := h
      refine (ih t List.mem_cons_self b f.dataType hhead rows []).bind fun array harray => ?_
      have hrest := ihts (fun u hu => ih u (List.mem_cons_of_mem t hu)) htail
      exact hrest.bind fun arrays harrays =>
        Yields.pure (List.forall_mem_cons.mpr ⟨harray, harrays⟩)

/-- **Decoding keeps the data type**: a column that its builder and data type serve is read
into an array of this data type, with a row for each of the rows; it has no nulls of its own
unless the type is nullable or a mask was given. -/
theorem deserializeArrowAsync_decoded (json : Bytes → Bytes) {t : ChType} {b : TypedBuilder}
    {d : DataType} (h : Serves t b d) (rows : Nat) (nulls : Bytes) :
    Yields (Decoded d rows (t.isNullable = false ∧ nulls = []))
      (deserializeArrowAsync json t b d rows nulls) := by
  -- Only a `Nullable` makes a mask of its own.
  have hmaskFree {d : DataType} {rows : Nat} {nullFree : Prop} {nulls : Bytes}
      {p : Reader ArrowError ArrowArray} (hp : Yields (Decoded d rows (nulls = [])) p) :
      Yields (Decoded d rows (nullFree ∧ nulls = [])) p :=
    hp.mono fun _ ha => ⟨ha.dataType_eq, ha.len_eq, fun hfree => ha.nullCount_eq hfree.2⟩
  induction t using ChType.inductionOn generalizing b d rows nulls with
  | hleaf t hflat =>
      cases t with
      | nullable | lowCardinality | array | tuple | map => cases hflat
      | _ =>
          obtain ⟨⟨d', hb⟩, hd⟩ := h
          exact hmaskFree (decodeFlatAsync_decoded json hb hd d rows nulls)
  | hnullable inner ih =>
      refine Yields.bind_any fun mask => (ih h rows mask).mono fun a ha => ?_
      exact ⟨ha.dataType_eq, ha.len_eq, fun hfree => absurd hfree.1 (by simp [ChType.isNullable])⟩
  | hlowCardinality inner ih _ =>
      obtain ⟨key, value, v, rfl, rfl, hvalue⟩ := h
      rw [deserializeArrowAsync_lowCardinality]
      refine hmaskFree (LowCardinality.deserializeAsync_decoded (fun rows mask => ?_) _ rows nulls)
      exact (ih ((serves_stripNull inner value v).mpr hvalue) rows mask).mono fun _ ha =>
        ha.dataType_eq
  | harray inner ih =>
      obtain ⟨item, it, rfl, rfl, hitem⟩ := h
      refine hmaskFree (Lists.deserializeAsync_decoded (fun rows => ?_) rows nulls)
      exact (ih hitem rows []).mono fun _ ha => ha.dataType_eq
  | htuple items ih =>
      obtain ⟨builders, fields, rfl, rfl, hitems⟩ := h
      refine hmaskFree (Tuples.deserializeAsync_decoded ?_ nulls)
      refine deserializeColumnsAsync_len json (fun t ht b d hserves rows nulls => ?_) hitems rows
      exact (ih t ht hserves rows nulls).mono fun _ ha => ha.len_eq
  | hmap key value ihkey ihvalue =>
      obtain ⟨k, v, dk, dv, rfl, rfl, -, -⟩ := h
      exact hmaskFree (Maps.deserializeAsync_decoded dk dv rows nulls)

/-- The synchronous decoder returns nothing else. -/
theorem deserializeArrow_decoded (json : Bytes → Bytes) {t : ChType} {b : TypedBuilder}
    {d : DataType} (h : Serves t b d) (rows : Nat) (nulls : Bytes) :
    Yields (Decoded d rows (t.isNullable = false ∧ nulls = []))
      (deserializeArrow json t b d rows nulls) :=
  (deserializeArrowAsync_decoded json h rows nulls).of_extends
    (deserializeArrow_agree json h.fits d rows nulls).extends

end Arrow

end ClickhouseArrow
