import ClickhouseArrow.Arrow.TypeHint

/-!
# The type announced is the type built

Four recursions have to agree on every type: `ch_to_arrow_type` announces a data type,
`normalize_type` fits the type to it, `TypedBuilder::try_new` builds for the two, and the
decoder reads into the builder.  The module says for which types they do (`Announceable`), shows
that then every array that is read, at any depth, has the data type announced for it, and that
for no other type whose dictionaries hold plain values it is so.
-/

namespace ClickhouseArrow

open Wire

namespace Arrow

/-! ## Columns within columns -/

/-- A column as the decoder is handed it. -/
structure Column where
  type : ChType
  builder : TypedBuilder
  dataType : DataType

/-- The columns that are decoded on the way to a column, itself included. -/
inductive Column.Within (c : Column) : Column → Prop
  | self : Within c c
  | nullable {inner b d} : Within c ⟨inner, b, d⟩ → Within c ⟨.nullable inner, b, d⟩
  | item {inner kind b large f} :
      Within c ⟨inner, b, f.dataType⟩ → Within c ⟨.array inner, .list kind b, .list large f⟩
  | value {inner key b k v} :
      Within c ⟨inner.stripNull, b, v⟩ →
        Within c ⟨.lowCardinality inner, .lowCardinality key b, .dictionary k v⟩
  | component {items builders fields t b f} :
      (t, b, f) ∈ items.zip (builders.zip fields) → Within c ⟨t, b, f.dataType⟩ →
        Within c ⟨.tuple items, .tuple builders, .struct fields⟩
  | mapKey {key value bk bv name fk fv nullable sorted} :
      Within c ⟨key, bk, FieldOf.dataType fk⟩ →
        Within c ⟨.map key value, .map bk bv, .map ⟨name, .struct [fk, fv], nullable⟩ sorted⟩
  | mapValue {key value bk bv name fk fv nullable sorted} :
      Within c ⟨value, bv, FieldOf.dataType fv⟩ →
        Within c ⟨.map key value, .map bk bv, .map ⟨name, .struct [fk, fv], nullable⟩ sorted⟩

/-- Every array that is read for the column has the column's data type, whatever the bytes, the
rows and the mask are. -/
def Column.Faithful (c : Column) : Prop :=
  ∀ (json : Bytes → Bytes) (rows : Nat) (nulls : Bytes),
    Yields (fun a => a.dataType = c.dataType)
      (deserializeArrowAsync json c.type c.builder c.dataType rows nulls) ∧
    Yields (fun a => a.dataType = c.dataType)
      (deserializeArrow json c.type c.builder c.dataType rows nulls)

/-- The array has a row for each of the rows, and a record batch takes it for the field. -/
def Accepted (name : String) (d : DataType) (nullable : Bool) (rows : Nat) (a : ArrowArray) :
    Prop :=
  a.len = rows ∧ ∃ batch, RecordBatch.tryNew [⟨name, d, nullable⟩] [a] = .ok batch

/-- **The type announced is the type built**: the type is announced without a panic; when a data
type is announced, there is a builder for it, every column within has arrays of its data type
alone, and the arrays that are read for the whole column are taken by a record batch. -/
def AnnouncedIsBuilt (options : Option ArrowOptions) (t : ChType) : Prop :=
  (chToArrowType t options).NoPanic ∧
  ∀ d nullable, chToArrowType t options = .ok (d, nullable) →
    ∃ builder, TypedBuilder.tryNew (typeHint t d) d = .ok builder ∧
      (∀ column : Column, column.Within ⟨typeHint t d, builder, d⟩ → column.Faithful) ∧
      ∀ (json : Bytes → Bytes) (name : String) (rows : Nat),
        Yields (Accepted name d nullable rows)
          (deserializeArrowAsync json (typeHint t d) builder d rows []) ∧
        Yields (Accepted name d nullable rows)
          (deserializeArrow json (typeHint t d) builder d rows [])

/-! ## Where the announcement stops -/

/-- Why no data type is announced. -/
inductive Stop
  | refused
  | panics
  deriving DecidableEq, Repr

mutual

/-- The first part of a type, from the outside in and from the left, that cannot be announced:
one that is refused, or one that is met in a `Nullable` although it cannot be in one. -/
def firstStop (options : Option ArrowOptions) (isNull : Bool) : ChType → Option Stop
  | .dateTime64 p _ => if 9 < p then some .refused else none
  | .array inner =>
      if isNull && refusesNullableArray options then some .refused
      else firstStop options false inner
  | .lowCardinality inner =>
      if isNull && refusesNullableDictionary options then some .refused
      else firstStop options false inner
  | .tuple types => firstStops options types
  | .map key value => (firstStop options false key).or (firstStop options false value)
  | .point | .ring | .polygon | .multiPolygon => if isNull then some .panics else none
  | .nullable inner => if isNull then some .panics else firstStop options true inner
  | _ => none

def firstStops (options : Option ArrowOptions) : List ChType → Option Stop
  | [] => none
  | t :: ts => (firstStop options false t).or (firstStops options ts)

end

/-- The computation ends as the stop says. -/
def Stop.Ends {α : Type} : Option Stop → ArrowResult α → Prop
  | none, o => ∃ a, o = .ok a
  | some .refused, o => ∃ e, o = .error (.error e)
  | some .panics, o => ∃ p, o = .error (.panic p)

/-- The first of two steps that stops decides. -/
theorem Stop.Ends.bind {α β : Type} {s s' : Option Stop} {o : ArrowResult α}
    {f : α → ArrowResult β} (ho : Stop.Ends s o) (hf : ∀ a, Stop.Ends s' (f a)) :
    Stop.Ends (s.or s') (o >>= f) := by
  match s, ho with
  | none, ⟨a, ha⟩ =>
      subst ha
      exact hf a
  | some .refused, ⟨e, he⟩ =>
      subst he
      exact ⟨e, rfl⟩
  | some .panics, ⟨p, hp⟩ =>
      subst hp
      exact ⟨p, rfl⟩

theorem Stop.Ends.bind_ok {α β : Type} {s : Option Stop} {o : ArrowResult α}
    {f : α → ArrowResult β} (ho : Stop.Ends s o) (hf : ∀ a, ∃ b, f a = .ok b) :
    Stop.Ends s (o >>= f) := by
  have h : Stop.Ends (s.or none) (o >>= f) := ho.bind hf
  rwa [Option.or_none] at h

theorem arrowTypesOf_ends {options : Option ArrowOptions} {ts : List ChType}
    (ih : ∀ t ∈ ts, Stop.Ends (firstStop options false t) (arrowTypeOf options false t)) :
    Stop.Ends (firstStops options ts) (arrowTypesOf options ts) := by
  induction ts with
  | nil => exact ⟨[], rfl⟩
  | cons t ts ihts =>
      have htail := ihts fun u hu => ih u (List.mem_cons_of_mem t hu)
      exact (ih t List.mem_cons_self).bind fun item => htail.bind_ok fun items => ⟨_, rfl⟩

/-- The announcement ends where the walk stops. -/
theorem arrowTypeOf_ends (options : Option ArrowOptions) (isNull : Bool) (t : ChType) :
    Stop.Ends (firstStop options isNull t) (arrowTypeOf options isNull t) := by
  induction t using ChType.inductionOn generalizing isNull with
  | hleaf t hflat =>
      cases t with
      | nullable | lowCardinality | array | tuple | map => cases hflat
      | dateTime64 p tz =>
          rw [firstStop, arrowTypeOf]
          by_cases hp : 9 < p
          · rw [if_pos hp, if_neg (by omega), if_neg (by omega), if_neg (by omega),
              if_neg (by omega)]
            exact ⟨_, rfl⟩
          · rw [if_neg hp]
            split_ifs
            all_goals first | exact ⟨_, rfl⟩ | omega
      -- A geo type is announced by its alias; `Nullable` of one has none.
      | point | ring | polygon | multiPolygon =>
          cases isNull with
          | false => exact ⟨_, rfl⟩
          | true => exact ⟨_, rfl⟩
      | _ => exact ⟨_, rfl⟩
  | hnullable inner ih =>
      cases isNull with
      | false => exact ih true
      | true => exact ⟨_, rfl⟩
  | hlowCardinality inner _ ih =>
      rw [firstStop, arrowTypeOf]
      split_ifs
      · exact ⟨_, rfl⟩
      · exact (ih false).bind_ok fun value => ⟨_, rfl⟩
  | harray inner ih =>
      rw [firstStop, arrowTypeOf]
      split_ifs
      · exact ⟨_, rfl⟩
      · exact (ih false).bind_ok fun item => ⟨_, rfl⟩
  | htuple items ih =>
      exact (arrowTypesOf_ends fun t ht => ih t ht false).bind_ok fun items => ⟨_, rfl⟩
  | hmap key value ihkey ihvalue =>
      exact (ihkey false).bind fun k => (ihvalue false).bind_ok fun v => ⟨_, rfl⟩

/-- A whole column of a nullable dictionary is announced as nullable. -/
def columnAgrees (options : Option ArrowOptions) : ChType → Bool
  | .nullable (.lowCardinality y) => coerces options y || y.isNullable
  | _ => true

/-- The walk over the type stops at a part that is refused, or it comes to its end and every
part fits. -/
def Announceable (options : Option ArrowOptions) (t : ChType) : Prop :=
  firstStop options false t = some .refused ∨
    firstStop options false t = none ∧ fitsBuilder options false t = true ∧
      columnAgrees options t = true

instance (options : Option ArrowOptions) (t : ChType) : Decidable (Announceable options t) :=
  inferInstanceAs (Decidable (_ ∨ _))

/-! ## What is announced is built -/

theorem ServesEach.component {items : List ChType} {builders : List TypedBuilder}
    {fields : List Field} (h : ServesEach items builders fields) {t : ChType} {b : TypedBuilder}
    {f : Field} (hmem : (t, b, f) ∈ items.zip (builders.zip fields)) :
    Serves t b f.dataType := by
  induction items generalizing builders fields with
  | nil => cases hmem
  | cons u us ih =>
      obtain ⟨b', bs, f', fs, rfl, rfl, hhead, htail⟩ := h
      rw [List.zip_cons_cons, List.zip_cons_cons, List.mem_cons] at hmem
      rcases hmem with heq | hmem
      · cases heq
        exact hhead
      · exact ih htail hmem

/-- A column is served with every column within. -/
theorem Serves.within {c outer : Column} (hwithin : c.Within outer)
    (h : Serves outer.type outer.builder outer.dataType) :
    Serves c.type c.builder c.dataType := by
  induction hwithin with
  | self => exact h
  | nullable _ ih => exact ih h
  | item _ ih =>
      obtain ⟨item, it, hb, hd, hitem⟩ := h
      cases hb
      cases hd
      exact ih hitem
  | @value inner _ b _ v _ ih =>
      obtain ⟨_, value, v', hb, hd, hvalue⟩ := h
      cases hb
      cases hd
      exact ih ((serves_stripNull inner b v).mpr hvalue)
  | component hmem _ ih =>
      obtain ⟨bs, fs, hb, hd, hitems⟩ := h
      cases hb
      cases hd
      exact ih (hitems.component hmem)
  | mapKey _ ih =>
      obtain ⟨k, v, dk, dv, hb, hd, hkey, -⟩ := h
      cases hb
      cases hd
      exact ih hkey
  | mapValue _ ih =>
      obtain ⟨k, v, dk, dv, hb, hd, -, hvalue⟩ := h
      cases hb
      cases hd
      exact ih hvalue

theorem Serves.faithful {c : Column} (h : Serves c.type c.builder c.dataType) : c.Faithful :=
  fun json rows nulls =>
    ⟨(deserializeArrowAsync_decoded json h rows nulls).mono fun _ ha => ha.dataType_eq,
      (deserializeArrow_decoded json h rows nulls).mono fun _ ha => ha.dataType_eq⟩

/-- A whole column has nulls of its own only where its field is nullable. -/
theorem nullable_of_columnAgrees {options : Option ArrowOptions} {t : ChType} {d : DataType}
    {n : Bool} (h : arrowTypeOf options false t = .ok (d, n))
    (hagrees : columnAgrees options t = true) :
    n = true ∨ (typeHint t d).isNullable = false := by
  have hplain (hnull : t.isNullable = false) : n = true ∨ (typeHint t d).isNullable = false :=
    .inr (head_hintOf h hnull false).1
  cases t with
  | nullable z =>
      obtain ⟨-, hz⟩ := arrowTypeOf_nullable h
      have hn := eq_announcedNullable hz
      cases z with
      | nullable w => cases hz
      | lowCardinality y =>
          -- The `Nullable` is moved to the values, unless nothing is normalized.
          rcases (Bool.or_eq_true _ _).mp hagrees with hcoerces | hy
          · right
            show (hintOf false (.nullable (.lowCardinality y)) d).isNullable = false
            have hcoerced : coerced options false (.lowCardinality y) = true := hcoerces
            rw [hintOf_nullable hz, if_pos hcoerced, isNullable_intoNullable,
              (head_hintOf hz rfl false).2]
            rfl
          · left
            rw [hn]
            exact hy
      | _ => exact .inl hn
  | _ => exact hplain rfl

theorem accepted_of_decoded {name : String} {d : DataType} {nullable : Bool} {rows : Nat}
    {nullFree : Prop} {a : ArrowArray} (ha : Decoded d rows nullFree a)
    (hnulls : nullable = true ∨ nullFree) : Accepted name d nullable rows a := by
  refine ⟨ha.len_eq, _, RecordBatch.tryNew_single ha.dataType_eq ?_⟩
  rcases hnulls with h | h
  · exact .inl h
  · exact .inr (ha.nullCount_eq h)

/-- Every type that is announced without a panic, and whose parts fit, is built as it is
announced. -/
theorem announcedIsBuilt_of_announceable {options : Option ArrowOptions} {t : ChType}
    (h : Announceable options t) : AnnouncedIsBuilt options t := by
  have hends : Stop.Ends (firstStop options false t) (chToArrowType t options) :=
    arrowTypeOf_ends options false t
  rcases h with hrefused | ⟨hstop, hfits, hagrees⟩
  · rw [hrefused] at hends
    obtain ⟨e, he⟩ := hends
    constructor
    · intro p hp
      rw [he] at hp
      cases hp
    · intro d nullable hok
      rw [he] at hok
      cases hok
  · rw [hstop] at hends
    obtain ⟨⟨d, n⟩, hok⟩ := hends
    constructor
    · intro p hp
      rw [hok] at hp
      cases hp
    · intro d' n' hok'
      rw [hok] at hok'
      cases hok'
      have hhint : HasBuilder (hintOf false t d) d := hasBuilder_hintOf hok hfits
      obtain ⟨builder, hbuilder, hserves⟩ := hhint
      refine ⟨builder, hbuilder 0, fun c hc => (hserves.within hc).faithful, ?_⟩
      intro json name rows
      have hnulls : n = true ∨ (typeHint t d).isNullable = false ∧ ([] : Bytes) = [] :=
        (nullable_of_columnAgrees hok hagrees).imp_right fun hnull => ⟨hnull, rfl⟩
      exact ⟨(deserializeArrowAsync_decoded json hserves rows []).mono fun _ ha =>
          accepted_of_decoded ha hnulls,
        (deserializeArrow_decoded json hserves rows []).mono fun _ ha =>
          accepted_of_decoded ha hnulls⟩

/-! ## Columns that can be read -/

theorem getUsizeOf_reads {n : Nat} (h : n < 2 ^ 64) :
    Reads (LowCardinality.deserializeAsync.getUsizeOf .async) (putUsize n) n :=
  (getUsize_reads .async h).mapError _

/-- A leaf without rows reads nothing. -/
theorem exists_reads_nil (json : Bytes → Bytes) {t : ChType} {b : TypedBuilder} {d' : DataType}
    (hb : typedBuild t d' = .ok b) (d : DataType) :
    ∃ a, Reads (deserializeArrowAsync json t b d 0 []) [] a := by
  have hbulk (α : Type) [Word α] (f : List (Option α) → ArrowArray) :
      ∃ a, Reads (f <$> deserBulk .async α 0 []) [] a :=
    ⟨_, (Reads.pure []).map f⟩
  have hrows {α β : Type} (read : Reader ArrowError α) (append : α → ArrowResult β)
      (f : List (Option β) → ArrowArray) :
      ∃ a, Reads (f <$> optValues [] read append 0 0) [] a :=
    ⟨_, (Reads.pure []).map f⟩
  -- A leaf is read in bulk or row by row, and without rows neither takes a byte.
  cases t with
  | int8 => cases hb; exact hbulk Int8 _
  | int16 => cases hb; exact hbulk Int16 _
  | int32 => cases hb; exact hbulk Int32 _
  | int64 => cases hb; exact hbulk Int64 _
  | uint8 => cases hb; exact hbulk UInt8 _
  | uint16 => cases hb; exact hbulk UInt16 _
  | uint32 => cases hb; exact hbulk UInt32 _
  | uint64 => cases hb; exact hbulk UInt64 _
  | float32 => cases hb; exact hbulk UInt32 _
  | float64 => cases hb; exact hbulk UInt64 _
  | date | dateTime =>
      cases hb
      exact ⟨_, (Reads.pure []).bind_nil (Reads.pure _)⟩
  | date32 =>
      cases hb
      exact hrows _ _ _
  | decimal32 | decimal64 =>
      obtain ⟨s, -, rfl⟩ := Outcome.map_eq_ok.mp hb
      exact ⟨_, (Reads.pure []).bind_nil (Reads.pure _)⟩
  | decimal128 | decimal256 =>
      obtain ⟨s, -, rfl⟩ := Outcome.map_eq_ok.mp hb
      exact hrows _ _ _
  | dateTime64 p tz =>
      simp only [typedBuild] at hb
      split_ifs at hb
      all_goals cases hb
      all_goals exact hbulk Int64 _
  | string | binary | object =>
      cases hb
      exact hrows _ _ _
  | fixedSizedString | fixedSizedBinary | ipv4 | ipv6 | uuid | int128 | uint128 | int256
  | uint256 =>
      obtain ⟨-, rfl⟩ := fixedSizeBinaryBuilder_eq_ok.mp hb
      exact hrows _ _ _
  | enum8 | enum16 =>
      cases hb
      exact ⟨_, (Reads.pure ([], [])).map _⟩
  | _ => cases hb

/-- The bytes of one row of a dictionary of so many values: the flags, the values, and the
key of the first one. -/
def dictionaryBytes (n : Nat) (values : Bytes) : Bytes :=
  putUsize 512 ++ (putUsize n ++ (values ++ (putUsize 1 ++ [0])))

theorem LowCardinality.deserKey_reads (nulls : Bytes) {entries : List (Option UInt8)}
    (h : maskFrom nulls 0 [(0 : UInt8)] = .ok entries) :
    Reads (LowCardinality.deserKey .async .uint8 .int32 1 nulls) [0]
      (entries.map (Option.map fun k : UInt8 => LowCardinality.castKey .int32 k.toNat)) := by
  have hbulk : Reads (readBulk .async UInt8 1) [0] [(0 : UInt8)] :=
    (Reads.takeExact _ [0]).bind_nil (Reads.pure _)
  have hread : Reads (deserBulk .async UInt8 1 nulls) [0] entries :=
    hbulk.bind_nil (Reads.ofOutcome h)
  exact hread.bind_nil (Reads.pure _)

/-- One row of a dictionary is read. -/
theorem LowCardinality.deserializeAsync_reads {inner : ChType} {decode : Decode}
    {value : TypedBuilder} {v : DataType} {n : Nat} {mask values nulls : Bytes}
    {dictionary a : ArrowArray} {entries : List (Option UInt8)} (hn : n < 2 ^ 64)
    (hmask : LowCardinality.dictionaryMask inner n = .ok mask)
    (hvalues : Reads (decode value v n mask) values dictionary)
    (hentries : maskFrom nulls 0 [(0 : UInt8)] = .ok entries)
    (ha : DictionaryArray.new .int32
      (entries.map (Option.map fun k : UInt8 => LowCardinality.castKey .int32 k.toNat))
      dictionary = .ok a) (k : DataType) :
    Reads (LowCardinality.deserializeAsync inner decode (.lowCardinality .int32 value)
      (.dictionary k v) 1 nulls) (dictionaryBytes n values) a := by
  have hkeys := LowCardinality.deserKey_reads nulls hentries
  refine (getUsizeOf_reads (by decide)).bind ?_
  show Reads (LowCardinality.deserializeAsync.getUsizeOf .async >>= fun dictSize => _) _ a
  refine (getUsizeOf_reads hn).bind ?_
  refine (Reads.ofOutcome hmask).nil_bind ?_
  refine hvalues.bind ?_
  refine (getUsizeOf_reads (show 1 < 2 ^ 64 by decide)).bind ?_
  exact hkeys.bind_nil (Reads.ofOutcome ha)

/-- One row of a list is read, of one item. -/
theorem Lists.deserializeAsync_reads {inner : ChType} {decode : Decode} {item : TypedBuilder}
    {a : ArrowArray} {f : Field} {values : Bytes}
    (hvalues : Reads (decode item f.dataType 1 []) values a) (hlen : a.len = 1)
    (hinner : inner.stripLowCardinality.isNullable = true) :
    Reads (Lists.deserializeAsync inner decode (.list .list item) (.list false f) 1 [])
      (putUsize 1 ++ values)
      (.list false ⟨listItemFieldName, a.dataType, true⟩ [0, 1] a none) := by
  have hoffsets : Reads (Lists.bulkOffsets .async 1) (putUsize 1) [0, 1] :=
    (Reads.takeExact _ (putUsize 1)).bind_nil (Reads.pure _)
  have hbuffer : newOffsets ([(0 : UInt64), 1].map Lists.castI32) = .ok [0, 1] := by
    rw [newOffsets, if_pos (by decide)]
    rfl
  have hnew : ListArray.new false ⟨listItemFieldName, a.dataType, true⟩ [0, 1] a none =
      .ok (.list false ⟨listItemFieldName, a.dataType, true⟩ [0, 1] a none) := by
    apply unwrap_eq_ok.mpr
    rw [ListArray.tryNew, if_neg (by rw [hlen]; decide), if_neg (by simp)]
    show (if a.dataType ≠ a.dataType then _ else _) = _
    rw [if_neg (not_not.mpr rfl)]
  refine hoffsets.bind ?_
  refine (Reads.ofOutcome hbuffer).nil_bind ?_
  refine hvalues.bind_nil ?_
  rw [hinner]
  exact (Reads.ofOutcome hnew).nil_bind (Reads.pure _)

theorem Null.deserializeAsync_reads (json : Bytes → Bytes) {inner : ChType} {b : TypedBuilder}
    {d : DataType} {values nulls : Bytes} {a : ArrowArray}
    (h : Reads (deserializeArrowAsync json inner b d 1 [1]) values a) :
    Reads (deserializeArrowAsync json (.nullable inner) b d 1 nulls) (1 :: values) a := by
  have hmask : Reads (Null.readMaskAsync 1) [1] [1] := Reads.takeExact _ [1]
  exact hmask.bind h

/-- A null has a value in the stream, which is not appended. -/
theorem optValues_reads_null {α β : Type} {read : Reader ArrowError α} {bytes : Bytes} {x : α}
    (h : Reads read bytes x) (append : α → ArrowResult β) :
    Reads (optValues [1] read append 0 1) bytes [none] := by
  have hvalid : isValid [1] 0 = .ok false := rfl
  have hrow : appendRow append false x = .ok none := rfl
  refine (Reads.ofOutcome hvalid).nil_bind (h.bind_nil ?_)
  exact (Reads.ofOutcome hrow).nil_bind ((Reads.pure []).nil_bind (Reads.pure _))

/-! ## Nullable dictionaries -/

/-- The values of a dictionary are plain: no container, no dictionary, no second `Nullable`. -/
def isPlain : ChType → Bool
  | .nullable _ | .lowCardinality _ | .array _ | .tuple _ | .map _ _ => false
  | _ => true

section Dictionaries

variable {options : Option ArrowOptions} {inMap : Bool}

theorem typedBuild_of_tryNewOf {y : ChType} (hy : isPlain y = true) {s : Nat} {d : DataType}
    {b : TypedBuilder} (h : TypedBuilder.tryNewOf s y d = .ok b) : typedBuild y d = .ok b := by
  cases y with
  | nullable i => cases hy
  | lowCardinality i => cases hy
  | array i => cases hy
  | tuple ts => cases hy
  | map k v => cases hy
  | _ => exact h

theorem tryNewOf_lowCardinality {y : ChType} {s : Nat} {v : DataType} {b : TypedBuilder}
    (h : TypedBuilder.tryNewOf s (.lowCardinality y) (.dictionary (.primitive .int32) v) = .ok b) :
    ∃ value, TypedBuilder.tryNewOf 2 y v = .ok value ∧ b = .lowCardinality .int32 value := by
  obtain ⟨key, hkey, h⟩ := Outcome.bind_eq_ok.mp h
  obtain ⟨value, hvalue, h⟩ := Outcome.bind_eq_ok.mp h
  cases hkey
  cases h
  exact ⟨value, hvalue, rfl⟩

/-- A null of a dictionary whose values are not nullable: the key stands for nothing, and the
dictionary may be empty. -/
theorem exists_null_dictionary (json : Bytes → Bytes) {y : ChType} (hy : isPlain y = true)
    {s : Nat} {v : DataType} {b : TypedBuilder}
    (hb : TypedBuilder.tryNewOf s (.nullable (.lowCardinality y))
      (.dictionary (.primitive .int32) v) = .ok b) :
    ∃ bytes a, Reads (deserializeArrowAsync json (.nullable (.lowCardinality y)) b
      (.dictionary (.primitive .int32) v) 1 []) bytes a ∧ a.len = 1 ∧ a.nullCount = 1 := by
  cases s with
  | zero => cases hb
  | succ s =>
      replace hb : TypedBuilder.tryNewOf s (.lowCardinality y)
        (.dictionary (.primitive .int32) v) = .ok b := hb
      obtain ⟨value, hvalue, rfl⟩ := tryNewOf_lowCardinality hb
      obtain ⟨dictionary, hdictionary⟩ := exists_reads_nil json (typedBuild_of_tryNewOf hy hvalue) v
      have hnull : y.isNullable = false := by
        cases y <;> first | rfl | cases hy
      have hstrip : y.stripNull = y := by
        cases y <;> first | rfl | cases hnull
      have hmask : LowCardinality.dictionaryMask y 0 = .ok [] := by
        rw [LowCardinality.dictionaryMask, hnull]
        rfl
      rw [← hstrip] at hdictionary
      have hread : Reads (deserializeArrowAsync json (.lowCardinality y) (.lowCardinality .int32 value)
          (.dictionary (.primitive .int32) v) 1 [1]) (dictionaryBytes 0 [])
          (.dictionary .int32 [0] (some [false]) dictionary) := by
        rw [deserializeArrowAsync_lowCardinality]
        exact LowCardinality.deserializeAsync_reads (by decide) hmask hdictionary rfl rfl _
      exact ⟨_, _, Null.deserializeAsync_reads json hread, rfl, rfl⟩

/-- The null that stands first in a dictionary of coerced values: an empty string, or a fixed
string of zeros. -/
theorem exists_coerced_dictionary (json : Bytes → Bytes) {y : ChType} (hy : isPlain y = true)
    {v : DataType} {n : Bool} (harrow : arrowTypeOf options false y = .ok (v, n))
    (hcoerced : coerced options inMap y = true) {s : Nat} {b : TypedBuilder}
    (hb : TypedBuilder.tryNewOf s (.lowCardinality (.nullable (hintOf inMap y v)))
      (.dictionary (.primitive .int32) v) = .ok b) :
    ∃ bytes a, Reads (deserializeArrowAsync json (.lowCardinality (.nullable (hintOf inMap y v))) b
      (.dictionary (.primitive .int32) v) 1 []) bytes a ∧ a.len = 1 := by
  obtain ⟨value, hvalue, rfl⟩ := tryNewOf_lowCardinality hb
  obtain ⟨hmap, hcoerces⟩ := (Bool.and_eq_true _ _).mp hcoerced
  obtain rfl : inMap = false := by simpa using hmap
  -- One value, which is null.
  suffices hone : ∃ bytes dictionary, dictionary.len = 1 ∧
      Reads (deserializeArrowAsync json (hintOf false y v) value v 1 [1]) bytes dictionary by
    obtain ⟨bytes, dictionary, hlen, hdictionary⟩ := hone
    have hkeys : DictionaryArray.new .int32 [some 0] dictionary =
        .ok (.dictionary .int32 [0] none dictionary) := by
      rw [DictionaryArray.new, if_pos (by simp [hlen])]
      rfl
    refine ⟨dictionaryBytes 1 bytes, .dictionary .int32 [0] none dictionary, ?_, rfl⟩
    rw [deserializeArrowAsync_lowCardinality]
    have hentries : maskFrom [] 0 [(0 : UInt8)] = .ok [some 0] := rfl
    refine LowCardinality.deserializeAsync_reads (by decide) rfl hdictionary hentries ?_ _
    exact hkeys
  cases y with
  | string =>
      cases harrow
      rw [coerces, Bool.not_eq_true'] at hcoerces
      rw [hcoerces] at hvalue ⊢
      cases hvalue
      have htext : Reads (readText .async) [0] [] :=
        (readString_reads .async [] (by decide)).mapError _
      exact ⟨[0], _, rfl, (optValues_reads_null htext .ok).map _⟩
  | fixedSizedString len =>
      cases harrow
      obtain ⟨hwidth, rfl⟩ := fixedSizeBinaryBuilder_eq_ok.mp hvalue
      rw [i32OfUsize_usizeOfInt] at hwidth ⊢
      have hlt := Int32.toInt_lt (i32OfUsize len)
      have hsize : usizeOfInt (i32OfUsize len).toInt ≤ isizeMax := by
        rw [usizeOfInt, isizeMax]
        omega
      have hbuffer : Reads (readBuffer .async (usizeOfInt (i32OfUsize len).toInt))
          (List.replicate (usizeOfInt (i32OfUsize len).toInt) 0)
          (List.replicate (usizeOfInt (i32OfUsize len).toInt) 0) := by
        rw [readBuffer, if_neg (by omega)]
        have htake := Reads.takeExact (eof .async)
          (List.replicate (usizeOfInt (i32OfUsize len).toInt) (0 : UInt8))
        rwa [List.length_replicate] at htake
      exact ⟨_, _, rfl, (optValues_reads_null hbuffer (appendFixed _)).map _⟩
  | nullable i => cases hy
  | lowCardinality i => cases hy
  | array i => cases hy
  | tuple ts => cases hy
  | _ => cases hcoerces

end Dictionaries

/-! ## What is built is announced -/

mutual

/-- The dictionaries of the type hold plain values. -/
def plainDictionaries : ChType → Bool
  | .lowCardinality inner => isPlain inner.stripNull
  | .nullable inner | .array inner => plainDictionaries inner
  | .tuple items => plainDictionariesIn items
  | .map key value => plainDictionaries key && plainDictionaries value
  | _ => true

def plainDictionariesIn : List ChType → Bool
  | [] => true
  | t :: ts => plainDictionaries t && plainDictionariesIn ts

end

section Converse

variable {options : Option ArrowOptions} {isNull inMap n : Bool} {d : DataType}

theorem scale_le_of_checkScale {maxScale precision : Nat} {scale scale' : Int8}
    (h : checkScale maxScale precision scale = .ok scale') : scale.toInt ≤ precision := by
  unfold checkScale at h
  split_ifs at h
  · cases h
  · cases h
  · omega

/-- A plain column fits if it has a builder and its array without rows has the data type
announced. -/
theorem fitsBuilder_of_emptyArray {t : ChType} (ht : isPlain t = true)
    (h : arrowTypeOf options isNull t = .ok (d, n)) {s : Nat} {b : TypedBuilder}
    (hb : TypedBuilder.tryNewOf s (hintOf inMap t d) d = .ok b)
    (htype : ∀ x, deserializeArrowAsync id (hintOf inMap t d) b d 0 [] [] = .ok x →
      x.1.dataType = d) :
    fitsBuilder options inMap t = true := by
  have hself (hsame : coerces options t = false) : hintOf inMap t d = t :=
    hintOf_eq_self h (by rw [coerced, hsame, Bool.and_false])
  cases t with
  | nullable i => cases ht
  | lowCardinality i => cases ht
  | array i => cases ht
  | tuple ts => cases ht
  | map k v => cases ht
  | string =>
      cases inMap with
      | false => rfl
      | true =>
          cases h
          cases hb
          -- Without a row the array is a string array all the same.
          have htext := htype (finishBytes .utf8 [], []) rfl
          show (false || wantsStrings options) = true
          cases hstrings : wantsStrings options with
          | true => rfl
          | false =>
              rw [hstrings] at htext
              cases htext
  | fixedSizedString len =>
      cases h
      apply decide_eq_true
      cases inMap with
      | true => exact (fixedSizeBinaryBuilder_eq_ok.mp hb).1
      | false =>
          have hwidth := (fixedSizeBinaryBuilder_eq_ok.mp hb).1
          rwa [i32OfUsize_usizeOfInt] at hwidth
  | fixedSizedBinary len =>
      rw [hself rfl] at hb
      exact decide_eq_true (fixedSizeBinaryBuilder_eq_ok.mp hb).1
  | decimal32 | decimal64 | decimal128 | decimal256 =>
      rw [hself rfl] at hb
      obtain ⟨_, hscale, -⟩ := Outcome.map_eq_ok.mp hb
      exact decide_eq_true (scale_le_of_checkScale hscale)
  | point | ring | polygon | multiPolygon =>
      rw [hself rfl] at hb
      cases hb
  | _ => rfl

theorem fitsBuilder_of_faithful_plain {t : ChType} (ht : isPlain t = true)
    (h : arrowTypeOf options isNull t = .ok (d, n)) {s : Nat} {b : TypedBuilder}
    (hb : TypedBuilder.tryNewOf s (hintOf inMap t d) d = .ok b)
    (hfaithful : Column.Faithful ⟨hintOf inMap t d, b, d⟩) :
    fitsBuilder options inMap t = true :=
  fitsBuilder_of_emptyArray ht h hb fun x hx => (hfaithful id 0 []).1 [] x hx

theorem not_isDictionary_of_isPlain {u : ChType} (hu : isPlain u = true) :
    isDictionary u = false := by
  cases u <;> first | rfl | cases hu

/-- The values of a dictionary, without their `Nullable`. -/
theorem stripNull_hintOf {y : ChType} (hy : isPlain y.stripNull = true)
    (h : arrowTypeOf options isNull y = .ok (d, n)) (inMap : Bool) :
    (hintOf inMap y d).stripNull = hintOf inMap y.stripNull d ∧
      ∃ isNull', arrowTypeOf options isNull' y.stripNull = .ok (d, n) := by
  have hplain (hnull : y.isNullable = false) (hstrip : y.stripNull = y) :
      (hintOf inMap y d).stripNull = hintOf inMap y.stripNull d ∧
        ∃ isNull', arrowTypeOf options isNull' y.stripNull = .ok (d, n) := by
    rw [hstrip]
    refine ⟨?_, isNull, h⟩
    have hhint := (head_hintOf h hnull inMap).1
    cases hcase : hintOf inMap y d <;> first | rfl | simp [hcase, ChType.isNullable] at hhint
  cases y with
  | nullable u =>
      obtain ⟨rfl, hu⟩ := arrowTypeOf_nullable h
      refine ⟨?_, true, hu⟩
      obtain ⟨hnull, hdict⟩ := head_hintOf hu (isNullable_of_arrowTypeOf hu) inMap
      have hplain : isPlain u = true := hy
      rw [not_isDictionary_of_isPlain hplain] at hdict
      rw [hintOf_nullable hu]
      split_ifs
      · rw [intoNullable_eq hnull hdict]
        rfl
      · rfl
  | _ => exact hplain rfl rfl

/-- Plain values are not normalized to a dictionary. -/
theorem isDictionary_hintOf_value {y : ChType} (hy : isPlain y.stripNull = true)
    (h : arrowTypeOf options false y = .ok (d, n)) : isDictionary (hintOf inMap y d) = false := by
  have htakes : takesNullable options inMap y = true := by
    cases y with
    | nullable w =>
        have hw : isPlain w = true := hy
        rw [takesNullable, not_isDictionary_of_isPlain hw, Bool.not_false, Bool.or_true]
    | lowCardinality u => cases hy
    | _ => rfl
  rw [← isNullable_hintOf_value h, isNullable_intoNullable] at htakes
  exact (Bool.not_eq_true' _).mp htakes

theorem exists_tryNewOf_stripNull {x : ChType} {s : Nat} {b : TypedBuilder}
    (h : TypedBuilder.tryNewOf s x d = .ok b) :
    ∃ s', TypedBuilder.tryNewOf s' x.stripNull d = .ok b := by
  cases x with
  | nullable u =>
      cases s with
      | zero => cases h
      | succ s => exact ⟨s, h⟩
  | _ => exact ⟨s, h⟩

/-- A dictionary fits if its values do, whether or not a `Nullable` was moved to them. -/
theorem fitsBuilder_of_faithful_dictionary {y x : ChType} (hy : isPlain y.stripNull = true)
    (h : arrowTypeOf options isNull y = .ok (d, n))
    (hx : x.stripNull = (hintOf inMap y d).stripNull) {s : Nat} {b : TypedBuilder}
    (hb : TypedBuilder.tryNewOf s (.lowCardinality x) (.dictionary (.primitive .int32) d) = .ok b)
    (hfaithful : ∀ c : Column,
      c.Within ⟨.lowCardinality x, b, .dictionary (.primitive .int32) d⟩ → c.Faithful) :
    fitsBuilder options inMap y = true := by
  obtain ⟨value, hvalue, rfl⟩ := tryNewOf_lowCardinality hb
  obtain ⟨s', hvalue⟩ := exists_tryNewOf_stripNull hvalue
  obtain ⟨hstrip, isNull', hu⟩ := stripNull_hintOf hy h inMap
  have hvalues : Column.Faithful ⟨x.stripNull, value, d⟩ := hfaithful _ (.value .self)
  rw [hx, hstrip] at hvalue hvalues
  have hfits := fitsBuilder_of_faithful_plain hy hu hvalue hvalues
  cases y <;> exact hfits

/-- The only items that can disagree are nullable dictionaries. -/
theorem exists_of_not_itemAgrees {t : ChType} (ht : plainDictionaries t = true)
    (h : ¬itemAgrees options inMap t = true) :
    ∃ y, t = .nullable (.lowCardinality y) ∧ isPlain y = true := by
  cases t with
  | nullable z =>
      cases z with
      | lowCardinality y =>
          refine ⟨y, rfl, ?_⟩
          cases y with
          | nullable w => cases w <;> first | exact absurd rfl h | cases ht
          | lowCardinality u => cases ht
          | array u => cases ht
          | tuple ts => cases ht
          | map k v => cases ht
          | _ => rfl
      | _ => exact absurd rfl h
  | lowCardinality z =>
      cases z with
      | nullable w => cases w <;> first | exact absurd rfl h | cases ht
      | _ => exact absurd rfl h
  | _ => exact absurd rfl h

/-- One nullable dictionary entry can be read. -/
theorem exists_nullable_dictionary {y : ChType} (hy : isPlain y = true)
    (h : arrowTypeOf options false (.nullable (.lowCardinality y)) = .ok (d, n)) {s : Nat}
    {b : TypedBuilder}
    (hb : TypedBuilder.tryNewOf s (hintOf inMap (.nullable (.lowCardinality y)) d) d = .ok b) :
    ∃ bytes a, Reads (deserializeArrowAsync id (hintOf inMap (.nullable (.lowCardinality y)) d) b d
      1 []) bytes a ∧ a.len = 1 := by
  obtain ⟨-, hz⟩ := arrowTypeOf_nullable h
  obtain ⟨v, hv, rfl, -⟩ := arrowTypeOf_lowCardinality hz
  have hnull : y.isNullable = false := by
    cases y <;> first | rfl | cases hy
  rw [hintOf_nullable hz, hintOf_lowCardinality] at hb ⊢
  by_cases hcoerced : coerced options inMap (.lowCardinality y) = true
  · rw [if_pos hcoerced] at hb ⊢
    obtain ⟨hnull', hdict⟩ := head_hintOf hv hnull inMap
    rw [not_isDictionary_of_isPlain hy] at hdict
    have hinto : (ChType.lowCardinality (hintOf inMap y v.1)).intoNullable =
        .lowCardinality (.nullable (hintOf inMap y v.1)) := by
      rw [ChType.intoNullable, intoNullable_eq hnull' hdict]
    rw [hinto] at hb ⊢
    exact exists_coerced_dictionary id hy hv hcoerced hb
  · rw [if_neg hcoerced, hintOf_eq_self hv (Bool.eq_false_iff.mpr hcoerced)] at hb ⊢
    obtain ⟨bytes, a, hread, hlen, -⟩ := exists_null_dictionary id hy hb
    exact ⟨bytes, a, hread, hlen⟩

/-- The items of an array whose arrays have the data type announced agree. -/
theorem itemAgrees_of_faithful {inner : ChType} {item : DataType × Bool}
    (hinner : plainDictionaries inner = true)
    (h : arrowTypeOf options false inner = .ok item) {s : Nat} {b : TypedBuilder}
    (hb : TypedBuilder.tryNewOf s (hintOf inMap inner item.1) item.1 = .ok b)
    (hfaithful : Column.Faithful
      ⟨.array (hintOf inMap inner item.1), .list .list b, listOf item⟩) :
    itemAgrees options inMap inner = true := by
  by_contra hnot
  obtain ⟨y, rfl, hy⟩ := exists_of_not_itemAgrees hinner hnot
  have hannounced : item.2 = false := by
    rw [eq_announcedNullable h]
    cases y <;> first | rfl | cases hy
  have hbuilt : (hintOf inMap (.nullable (.lowCardinality y)) item.1).stripLowCardinality.isNullable =
      true := by
    rw [itemAgrees_iff h, hannounced] at hnot
    exact Bool.not_eq_false _ ▸ hnot
  obtain ⟨bytes, a, hread, hlen⟩ := exists_nullable_dictionary hy h hb
  have hlist := Lists.deserializeAsync_reads (f := ⟨listItemFieldName, item.1, item.2⟩) hread hlen
    hbuilt
  have htype := (hfaithful id 1 []).1 _ _ hlist.run
  have hflag : true = item.2 := (FieldOf.mk.inj (DataType.list.inj htype).2).2.2
  rw [hannounced] at hflag
  cases hflag

theorem fitsBuilders_of_faithful {ts : List ChType}
    (ih : ∀ t ∈ ts, ∀ d n b, arrowTypeOf options false t = .ok (d, n) →
      TypedBuilder.tryNewOf 1 (hintOf inMap t d) d = .ok b →
      (∀ c : Column, c.Within ⟨hintOf inMap t d, b, d⟩ → c.Faithful) →
      plainDictionaries t = true → fitsBuilder options inMap t = true)
    {items : List (DataType × Bool)} (h : arrowTypesOf options ts = .ok items) (i : Nat)
    {bs : List TypedBuilder}
    (hb : TypedBuilder.tryNews (hintsOf inMap ts (tupleFields i items)) (tupleFields i items) =
      .ok bs)
    (hfaithful : ∀ u b f,
      (u, b, f) ∈ (hintsOf inMap ts (tupleFields i items)).zip (bs.zip (tupleFields i items)) →
        ∀ c : Column, c.Within ⟨u, b, FieldOf.dataType f⟩ → c.Faithful)
    (hplain : plainDictionariesIn ts = true) : fitsBuilders options inMap ts = true := by
  induction ts generalizing items i bs with
  | nil => rfl
  | cons t ts ihts =>
      obtain ⟨item, rest, hitem, hrest, rfl⟩ := arrowTypesOf_cons h
      obtain ⟨b, hhead, hb⟩ := Outcome.bind_eq_ok.mp hb
      obtain ⟨bs', htail, hb⟩ := Outcome.bind_eq_ok.mp hb
      cases hb
      rw [plainDictionariesIn, Bool.and_eq_true] at hplain
      rw [fitsBuilders, Bool.and_eq_true]
      constructor
      · exact ih t List.mem_cons_self item.1 item.2 b hitem hhead
          (hfaithful _ _ _ List.mem_cons_self) hplain.1
      · refine ihts (fun u hu => ih u (List.mem_cons_of_mem t hu)) hrest (i + 1) htail ?_ hplain.2
        intro u b' f hmem
        exact hfaithful u b' f (List.mem_cons_of_mem _ hmem)

/-- A type whose columns within have arrays of the data types announced fits. -/
theorem fitsBuilder_of_faithful {t : ChType} (h : arrowTypeOf options isNull t = .ok (d, n))
    {s : Nat} {b : TypedBuilder} (hb : TypedBuilder.tryNewOf s (hintOf inMap t d) d = .ok b)
    (hfaithful : ∀ c : Column, c.Within ⟨hintOf inMap t d, b, d⟩ → c.Faithful)
    (hplain : plainDictionaries t = true) : fitsBuilder options inMap t = true := by
  induction t using ChType.inductionOn generalizing isNull inMap d n s b with
  | hleaf t hflat =>
      have ht : isPlain t = true := by
        cases t with
        | nullable | lowCardinality | array | tuple | map => cases hflat
        | _ => rfl
      exact fitsBuilder_of_faithful_plain ht h hb (hfaithful _ .self)
  | hnullable inner ih =>
      obtain ⟨rfl, hinner⟩ := arrowTypeOf_nullable h
      have hnull := isNullable_of_arrowTypeOf hinner
      obtain ⟨hnull', hdict⟩ := head_hintOf hinner hnull inMap
      -- The `Nullable` stays, or it has been moved to the values of a dictionary.
      by_cases hmoved : coerced options inMap inner = true ∧ isDictionary inner = true
      · obtain ⟨hcoerced, hdictionary⟩ := hmoved
        rw [hintOf_nullable hinner, if_pos hcoerced] at hb hfaithful
        cases inner with
        | lowCardinality y =>
            obtain ⟨v, hv, rfl, -⟩ := arrowTypeOf_lowCardinality hinner
            rw [hintOf_lowCardinality] at hb hfaithful
            have hy : isPlain y.stripNull = true := hplain
            show fitsBuilder options inMap y = true
            refine fitsBuilder_of_faithful_dictionary hy hv ?_ hb hfaithful
            have hvalues : isDictionary (hintOf inMap y v.1) = false := isDictionary_hintOf_value hy hv
            cases hcase : hintOf inMap y v.1 with
            | lowCardinality u => simp [hcase, isDictionary] at hvalues
            | _ => rfl
        | _ => cases hdictionary
      · have hstays : hintOf inMap (.nullable inner) d = .nullable (hintOf inMap inner d) := by
          rw [hintOf_nullable hinner]
          split_ifs with hcoerced
          · rw [intoNullable_eq hnull']
            rw [hdict]
            exact Bool.eq_false_iff.mpr fun hdictionary => hmoved ⟨hcoerced, hdictionary⟩
          · rfl
        rw [hstays] at hb hfaithful
        cases s with
        | zero => cases hb
        | succ s => exact ih hinner hb (fun c hc => hfaithful c (.nullable hc)) hplain
  | hlowCardinality inner _ _ =>
      obtain ⟨v, hv, rfl, -⟩ := arrowTypeOf_lowCardinality h
      rw [hintOf_lowCardinality] at hb hfaithful
      have hinner : isPlain inner.stripNull = true := hplain
      show fitsBuilder options inMap inner = true
      exact fitsBuilder_of_faithful_dictionary hinner hv rfl hb hfaithful
  | harray inner ih =>
      obtain ⟨item, hitem, rfl, -⟩ := arrowTypeOf_array h
      rw [hintOf_array] at hb hfaithful
      obtain ⟨b', hb', rfl⟩ := Outcome.map_eq_ok.mp hb
      rw [fitsBuilder, Bool.and_eq_true]
      constructor
      · exact ih hitem hb' (fun c hc => hfaithful c (.item hc)) hplain
      · exact itemAgrees_of_faithful hplain hitem hb' (hfaithful _ .self)
  | htuple items ih =>
      obtain ⟨fields, hfields, rfl, -⟩ := arrowTypeOf_tuple h
      have hlength := length_of_arrowTypesOf hfields 0
      rw [hintOf_tuple inMap hlength] at hb hfaithful
      rw [TypedBuilder.tryNewOf, if_neg (not_not.mpr (length_hintsOf inMap hlength))] at hb
      obtain ⟨bs, hbs, rfl⟩ := Outcome.map_eq_ok.mp hb
      exact fitsBuilders_of_faithful (fun t ht d n b hd hb => ih t ht hd hb) hfields 0 hbs
        (fun u b f hmem c hc => hfaithful c (.component hmem hc)) hplain
  | hmap key value ihkey ihvalue =>
      obtain ⟨k, v, hk, hv, rfl, -⟩ := arrowTypeOf_map h
      rw [hintOf_map] at hb hfaithful
      obtain ⟨fields, hfieldsOk, hb⟩ := Outcome.bind_eq_ok.mp hb
      cases hfieldsOk
      obtain ⟨bk, hbk, hb⟩ := Outcome.bind_eq_ok.mp hb
      obtain ⟨bv, hbv, hb⟩ := Outcome.bind_eq_ok.mp hb
      cases hb
      rw [plainDictionaries, Bool.and_eq_true] at hplain
      rw [fitsBuilder, Bool.and_eq_true]
      constructor
      · exact ihkey hk hbk (fun c hc => hfaithful c (.mapKey hc)) hplain.1
      · exact ihvalue hv hbv (fun c hc => hfaithful c (.mapValue hc)) hplain.2

/-- A whole column whose arrays are taken by a record batch agrees. -/
theorem columnAgrees_of_accepted {t : ChType} (h : arrowTypeOf options false t = .ok (d, n))
    {s : Nat} {b : TypedBuilder} (hb : TypedBuilder.tryNewOf s (typeHint t d) d = .ok b)
    (haccepted : Yields (Accepted "" d n 1) (deserializeArrowAsync id (typeHint t d) b d 1 []))
    (hplain : plainDictionaries t = true) : columnAgrees options t = true := by
  by_contra hnot
  cases t with
  | nullable z =>
      obtain ⟨-, hz⟩ := arrowTypeOf_nullable h
      cases z with
      | lowCardinality y =>
          obtain ⟨v, hv, rfl, rfl⟩ := arrowTypeOf_lowCardinality hz
          obtain ⟨hcoerces, hnull⟩ := Bool.or_eq_false_iff.mp (Bool.eq_false_iff.mpr hnot)
          have hy : isPlain y = true := by
            cases y with
            | nullable w => cases hnull
            | _ => exact hplain
          have hhint : typeHint (.nullable (.lowCardinality y))
              (.dictionary (.primitive .int32) v.1) = .nullable (.lowCardinality y) :=
            hintOf_eq_self h (show coerced options false _ = false from hcoerces)
          rw [hhint] at hb haccepted
          obtain ⟨bytes, a, hread, -, hcount⟩ := exists_null_dictionary id hy hb
          obtain ⟨-, batch, hbatch⟩ := haccepted _ _ hread.run
          have hpos : 0 < a.nullCount := hcount ▸ Nat.one_pos
          exact RecordBatch.tryNew_single_ne_ok hnull hpos batch hbatch
      | _ => exact hnot rfl
  | _ => exact hnot rfl

/-- A type that is announced as it is built is announceable, if its dictionaries hold plain
values. -/
theorem announceable_of_announcedIsBuilt {t : ChType} (hplain : plainDictionaries t = true)
    (h : AnnouncedIsBuilt options t) : Announceable options t := by
  obtain ⟨hnoPanic, hbuilt⟩ := h
  have hends : Stop.Ends (firstStop options false t) (chToArrowType t options) :=
    arrowTypeOf_ends options false t
  cases hstop : firstStop options false t with
  | none =>
      rw [hstop] at hends
      obtain ⟨⟨d, n⟩, hok⟩ := hends
      obtain ⟨builder, hbuilder, hfaithful, haccepted⟩ := hbuilt d n hok
      refine .inr ⟨hstop, ?_, ?_⟩
      · have hhint : hintOf false t d = typeHint t d := rfl
        rw [← hhint] at hbuilder hfaithful
        exact fitsBuilder_of_faithful hok hbuilder hfaithful hplain
      · exact columnAgrees_of_accepted hok hbuilder (haccepted id "" 1).1 hplain
  | some stop =>
      cases stop with
      | refused => exact .inl hstop
      | panics =>
          rw [hstop] at hends
          obtain ⟨p, hp⟩ := hends
          exact absurd hp (hnoPanic p)

end Converse

/-- **The type announced is the type built** wherever the walk over the type ends and all its
parts fit, or stops at a part that is refused; and, for types whose dictionaries hold plain
values, nowhere else. -/
theorem announcedIsBuilt_iff_announceable (options : Option ArrowOptions) (t : ChType) :
    (Announceable options t → AnnouncedIsBuilt options t) ∧
      (plainDictionaries t = true → (AnnouncedIsBuilt options t ↔ Announceable options t)) :=
  ⟨announcedIsBuilt_of_announceable, fun hplain =>
    ⟨announceable_of_announcedIsBuilt hplain, announcedIsBuilt_of_announceable⟩⟩

/-- A tuple of an array of nullable strings and a nullable dictionary, and a map of strings. -/
theorem announcedIsBuilt_iff_announceable_sample :
    AnnouncedIsBuilt (some .new)
        (.tuple [.array (.nullable .string), .lowCardinality (.nullable .string)]) ∧
      (AnnouncedIsBuilt (some .new) (.map .string .string) ↔
        Announceable (some .new) (.map .string .string)) :=
  ⟨(announcedIsBuilt_iff_announceable _ _).1 (by decide),
    (announcedIsBuilt_iff_announceable _ _).2 rfl⟩

/-- Names that are parsed, of types that are not built as they are announced: the first is
announced with a panic, the next two have no builder, and the arrays of the last two have
another data type than the one announced. -/
theorem not_announcedIsBuilt_samples :
    (ChType.fromStr .ascii "Nullable(Point)".toList = .ok (.nullable .point) ∧
      ¬AnnouncedIsBuilt (some .new) (.nullable .point)) ∧
    (ChType.fromStr .ascii "Ring".toList = .ok .ring ∧ ¬AnnouncedIsBuilt (some .new) .ring) ∧
    (ChType.fromStr .ascii "FixedString(2147483648)".toList =
        .ok (.fixedSizedString 2147483648) ∧
      ¬AnnouncedIsBuilt (some .new) (.fixedSizedString 2147483648)) ∧
    (ChType.fromStr .ascii "Map(String, String)".toList = .ok (.map .string .string) ∧
      ¬AnnouncedIsBuilt (some .new) (.map .string .string)) ∧
    (ChType.fromStr .ascii "Array(Nullable(LowCardinality(UInt8)))".toList =
        .ok (.array (.nullable (.lowCardinality .uint8))) ∧
      ¬AnnouncedIsBuilt (some .new) (.array (.nullable (.lowCardinality .uint8)))) := by
  have hnot {t : ChType} (hplain : plainDictionaries t = true)
      (h : ¬Announceable (some .new) t) : ¬AnnouncedIsBuilt (some .new) t :=
    fun hbuilt => h (announceable_of_announcedIsBuilt hplain hbuilt)
  exact ⟨⟨rfl, hnot rfl (by decide)⟩, ⟨rfl, hnot rfl (by decide)⟩, ⟨rfl, hnot rfl (by decide)⟩,
    ⟨rfl, hnot rfl (by decide)⟩, ⟨rfl, hnot rfl (by decide)⟩⟩

end Arrow

end ClickhouseArrow
