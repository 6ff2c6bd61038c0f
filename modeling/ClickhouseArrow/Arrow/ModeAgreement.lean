import ClickhouseArrow.Arrow.DeserializeSync
import ClickhouseArrow.Arrow.SerializeSync

/-!
# The two Arrow codecs agree

The serializers are equal as functions.  The decoders dispatch differently, one on the type
and one on the builder; they read the same arrays with any builder that the type has been
given by `TypedBuilder::try_new`.  What is needed of such a builder is that it fits the type
(`Fits`), which the induction over the type carries from a column to its inner columns.
-/

namespace ClickhouseArrow

open Wire

namespace Arrow

/-! ## Builders that fit a type -/

mutual

/-- The builder is one that the type is given, whatever the data types are. -/
def Fits : ChType → TypedBuilder → Prop
  | .nullable inner, b => Fits inner b
  | .array inner, b => ∃ kind item, b = .list kind item ∧ Fits inner item
  | .lowCardinality inner, b => ∃ key value, b = .lowCardinality key value ∧ Fits inner value
  | .map key value, b => ∃ k v, b = .map k v ∧ Fits key k ∧ Fits value v
  | .tuple items, b => ∃ builders, b = .tuple builders ∧ FitEach items builders
  | t, b => ∃ d, typedBuild t d = .ok b

/-- As many builders as components, each of which fits. -/
def FitEach : List ChType → List TypedBuilder → Prop
  | t :: ts, builders => ∃ b bs, builders = b :: bs ∧ Fits t b ∧ FitEach ts bs
  | [], builders => builders = []

end

theorem fits_stripNull (t : ChType) (b : TypedBuilder) : Fits t.stripNull b ↔ Fits t b := by
  cases t <;> simp [ChType.stripNull, Fits]

theorem fits_of_typedBuild {t : ChType} {d : DataType} {b : TypedBuilder}
    (hb : typedBuild t d = .ok b) : Fits t b := by
  cases t <;> first | exact ⟨d, hb⟩ | simp [typedBuild, Outcome.fail] at hb

theorem fitEach_of_tryNews {ts : List ChType}
    (ih : ∀ t ∈ ts, ∀ (strips : Nat) (d : DataType) (b : TypedBuilder),
      TypedBuilder.tryNewOf strips t d = .ok b → Fits t b)
    {fields : List Field} {builders : List TypedBuilder} (hlength : ts.length = fields.length)
    (hb : TypedBuilder.tryNews ts fields = .ok builders) : FitEach ts builders := by
  induction ts generalizing fields builders with
  | nil =>
      cases hb
      rfl
  | cons t ts ihts =>
      obtain _ | ⟨f, fs⟩ := fields
      · simp at hlength
      · rw [TypedBuilder.tryNews] at hb
        obtain ⟨b, hhead, hb⟩ := Outcome.bind_eq_ok.mp hb
        obtain ⟨bs, htail, hb⟩ := Outcome.bind_eq_ok.mp hb
        cases hb
        have hrest := ihts (fun u hu => ih u (List.mem_cons_of_mem t hu)) (by simpa using hlength) htail
        exact ⟨b, bs, rfl, ih t (by simp) _ _ _ hhead, hrest⟩

/-- The builder that a type is given fits it. -/
theorem fits_of_tryNewOf {t : ChType} {strips : Nat} {d : DataType} {b : TypedBuilder}
    (hb : TypedBuilder.tryNewOf strips t d = .ok b) : Fits t b := by
  induction t using ChType.inductionOn generalizing strips d b with
  | hleaf t hflat =>
      cases t with
      | nullable | lowCardinality | array | tuple | map => cases hflat
      | _ => exact fits_of_typedBuild hb
  | hnullable inner ih =>
      cases strips with
      -- Each `Nullable` costs one of the strips that are left.
      | zero => cases hb
      | succ n => exact ih hb
  | hlowCardinality inner _ ih =>
      cases d with
      | dictionary keyType valueType =>
          obtain ⟨key, _, hb⟩ := Outcome.bind_eq_ok.mp hb
          obtain ⟨value, hvalue, hb⟩ := Outcome.bind_eq_ok.mp hb
          cases hb
          exact ⟨key, value, rfl, ih hvalue⟩
      | _ => cases hb
  | harray inner ih =>
      cases d with
      | list large f =>
          cases large with
          | false | true =>
              obtain ⟨item, hitem, rfl⟩ := Outcome.map_eq_ok.mp hb
              exact ⟨_, item, rfl, ih hitem⟩
      | fixedSizeList f size =>
          obtain ⟨item, hitem, rfl⟩ := Outcome.map_eq_ok.mp hb
          exact ⟨_, item, rfl, ih hitem⟩
      | _ => cases hb
  | htuple items ih =>
      cases d with
      | struct fields =>
          -- The fields of the data type are as many as the items, or no builder is made.
          by_cases hlength : items.length = fields.length
          · replace hb : TypedBuilder.tuple <$> TypedBuilder.tryNews items fields = .ok b := by
              simpa [TypedBuilder.tryNewOf, hlength] using hb
            obtain ⟨builders, hbuilders, rfl⟩ := Outcome.map_eq_ok.mp hb
            exact ⟨builders, rfl, fitEach_of_tryNews (fun t ht _ _ _ => ih t ht) hlength hbuilders⟩
          · simp [TypedBuilder.tryNewOf, hlength, Outcome.fail] at hb
      | _ => cases hb
  | hmap key value ihkey ihvalue =>
      obtain ⟨fields, _, hb⟩ := Outcome.bind_eq_ok.mp hb
      obtain ⟨k, hk, hb⟩ := Outcome.bind_eq_ok.mp hb
      obtain ⟨v, hv, hb⟩ := Outcome.bind_eq_ok.mp hb
      cases hb
      exact ⟨k, v, rfl, ihkey hk, ihvalue hv⟩

/-! ## Leaves -/

theorem readBuffer_simulates (n : Nat) :
    Simulates (fun a b => a = b) (readBuffer .async n) (readBuffer .sync n) :=
  Simulates.ite (fun _ => Simulates.panic _ _ _) fun _ => Simulates.takeExact _ _ n

theorem Simulates.ofOutcome_refl {α : Type} (o : ArrowResult α) :
    Simulates (fun a b => a = b) (Reader.ofOutcome o) (Reader.ofOutcome o) :=
  Simulates.ofOutcome (Matching.refl o)

theorem readText_simulates :
    Simulates (fun a b => a = b) (readText .async) (readText .sync) :=
  readString_simulates.mapError _ _

theorem getUsize_simulates :
    Simulates (fun a b => a = b) (LowCardinality.deserializeAsync.getUsizeOf .async)
      LowCardinality.tryGetUsize :=
  ((Simulates.getLe UInt64 _ _).bind fun _ _ h => Simulates.pure (by rw [h])).mapError _ _

theorem deserBulk_simulates (α : Type) [Word α] (rows : Nat) (nulls : Bytes) :
    Simulates (fun a b => a = b) (deserBulk .async α rows nulls) (deserBulk .sync α rows nulls) := by
  refine Simulates.ite (fun _ => Simulates.pure rfl) fun _ => ?_
  have hbulk : Simulates (fun a b => a = b) (readBulk .async α rows) (readBulk .sync α rows) :=
    (readBuffer_simulates _).bind fun _ _ h => Simulates.pure (by rw [h])
  refine hbulk.bind ?_
  rintro values _ rfl
  exact Simulates.ofOutcome_refl _

theorem optValues_simulates {α β : Type} {read read' : Reader ArrowError α}
    (hread : Simulates (fun a b => a = b) read read') (nulls : Bytes) (append : α → ArrowResult β)
    (row n : Nat) :
    Simulates (fun a b => a = b) (optValues nulls read append row n)
      (optValues nulls read' append row n) := by
  induction n generalizing row with
  | zero => exact Simulates.pure rfl
  | succ n ih =>
      refine (Simulates.ofOutcome_refl _).bind ?_
      rintro valid _ rfl
      refine hread.bind ?_
      rintro value _ rfl
      refine (Simulates.ofOutcome_refl _).bind ?_
      rintro entry _ rfl
      exact (ih (row + 1)).bind fun _ _ h => Simulates.pure (by rw [h])

theorem enumRows_simulates {α : Type} [Word α] [DecidableEq α] (notFound notFound' : α → ArrowError)
    (maxKey : Nat) (pairs : List (String × α)) (nulls : Bytes) (labels : List Bytes) (row n : Nat) :
    Simulates (fun a b => a = b) (enumRows .async notFound maxKey pairs nulls labels row n)
      (enumRows .sync notFound' maxKey pairs nulls labels row n) := by
  induction n generalizing labels row with
  | zero => exact Simulates.pure rfl
  | succ n ih =>
      refine (Simulates.getLe α _ _).bind ?_
      rintro idx _ rfl
      refine (Simulates.ofOutcome_refl _).bind ?_
      rintro valid _ rfl
      refine Simulates.ite (fun _ => ?_) fun _ =>
        (ih labels (row + 1)).bind fun _ _ h => Simulates.pure (by rw [h])
      cases pairs.find? fun pair => pair.2 = idx with
      | none => exact Simulates.fail _ _ _
      | some pair =>
          refine (Simulates.ofOutcome_refl _).bind ?_
          rintro entry _ rfl
          exact (ih entry.1 (row + 1)).bind fun _ _ h => Simulates.pure (by rw [h])

/-- The arms of the builders of fixed-width values read alike. -/
theorem Primitive.deserialize_simulates (b : TypedBuilder) (rows : Nat) (nulls : Bytes) :
    Simulates (fun x y => x = y) (Primitive.deserializeAsync b rows nulls)
      (Primitive.deserialize b rows nulls) := by
  have hbulk (α : Type) [Word α] (f : List (Option α) → ArrowArray) :
      Simulates (fun x y => x = y) (f <$> deserBulk .async α rows nulls)
        (f <$> deserBulk .sync α rows nulls) :=
    (deserBulk_simulates α rows nulls).map fun _ _ h => by rw [h]
  cases b with
  | int8 => exact hbulk Int8 _
  | int16 => exact hbulk Int16 _
  | int32 => exact hbulk Int32 _
  | int64 => exact hbulk Int64 _
  | uint8 => exact hbulk UInt8 _
  | uint16 => exact hbulk UInt16 _
  | uint32 => exact hbulk UInt32 _
  | uint64 => exact hbulk UInt64 _
  | float32 => exact hbulk UInt32 _
  | float64 => exact hbulk UInt64 _
  | dateTimeS | dateTimeMs | dateTimeMu | dateTimeNano => exact hbulk Int64 _
  | decimal32 | decimal64 | date | dateTime =>
      exact (deserBulk_simulates _ rows nulls).bind fun _ _ h => Simulates.pure (by rw [h])
  | date32 =>
      refine (optValues_simulates ?_ nulls _ 0 rows).map fun _ _ h => by rw [h]
      refine (Simulates.getLe Int32 _ _).bind ?_
      rintro days _ rfl
      exact Simulates.ofOutcome_refl _
  | decimal128 =>
      exact (optValues_simulates (Simulates.getLe _ _ _) nulls _ 0 rows).map fun _ _ h => by rw [h]
  | decimal256 =>
      refine (optValues_simulates ?_ nulls _ 0 rows).map fun _ _ h => by rw [h]
      exact (Simulates.getOctets _ _ 32).bind fun _ _ h => Simulates.pure (by rw [h])
  | _ => exact Simulates.fail _ _ _

/-- The arms of the builders that are filled row by row read alike, for any type. -/
theorem Binary.deserialize_simulates (json : Bytes → Bytes) (t : ChType) (b : TypedBuilder)
    (rows : Nat) (nulls : Bytes) :
    Simulates (fun x y => x = y) (Binary.deserializeAsync json t b rows nulls)
      (Binary.deserialize json t b rows nulls) := by
  have hrows {read read' : Reader ArrowError Bytes} (append : Bytes → ArrowResult Bytes)
      (finish : List (Option Bytes) → ArrowArray)
      (h : Simulates (fun x y => x = y) read read') :
      Simulates (fun x y => x = y) (finish <$> optValues nulls read append 0 rows)
        (finish <$> optValues nulls read' append 0 rows) :=
    (optValues_simulates h nulls append 0 rows).map fun _ _ h => by rw [h]
  have htext (f : Bytes → Bytes) :
      Simulates (fun x y => x = y) (f <$> readText .async) (f <$> readText .sync) :=
    readText_simulates.map fun _ _ h => by rw [h]
  have hexact (n : Nat) : Simulates (fun x y => x = y) (Reader.takeExact (eof .async) n)
      (Reader.takeExact (eof .sync) n) := Simulates.takeExact _ _ n
  cases b with
  | string => exact hrows _ _ (htext _)
  | object => exact hrows _ _ (htext _)
  | binary => exact hrows _ _ readText_simulates
  | fixedSizeBinary size =>
      cases t with
      | fixedSizedString n | fixedSizedBinary n => exact hrows _ _ (readBuffer_simulates n)
      | ipv4 => exact hrows _ _ ((Simulates.getLe UInt32 _ _).map fun _ _ h => by rw [h])
      | ipv6 | uuid | int128 | uint128 => exact hrows _ _ (hexact 16)
      | int256 | uint256 => exact hrows _ _ ((hexact 32).map fun _ _ h => by rw [h])
      | _ => exact Simulates.fail _ _ _
  | _ => exact Simulates.fail _ _ _

/-- The arms of the builders of enums read alike, for any type; they name different types in
an error. -/
theorem Enums.deserialize_simulates (t : ChType) (b : TypedBuilder) (rows : Nat) (nulls : Bytes) :
    Simulates (fun x y => x = y) (Enums.deserializeAsync t b rows nulls)
      (Enums.deserialize t b rows nulls) := by
  cases b with
  | enum8 =>
      cases t with
      | enum8 pairs => exact (enumRows_simulates _ _ _ _ _ _ _ _).map fun _ _ h => by rw [h]
      | _ => exact Simulates.fail _ _ _
  | enum16 =>
      cases t with
      | enum16 pairs => exact (enumRows_simulates _ _ _ _ _ _ _ _).map fun _ _ h => by rw [h]
      | _ => exact Simulates.fail _ _ _
  | _ => exact Simulates.fail _ _ _

/-- The builder of fixed-size binary values that there is. -/
theorem fixedSizeBinaryBuilder_eq_ok {size : Int32} {b : TypedBuilder} :
    fixedSizeBinaryBuilder size = .ok b ↔ 0 ≤ size.toInt ∧ b = .fixedSizeBinary size := by
  by_cases h : 0 ≤ size.toInt
  · simp [fixedSizeBinaryBuilder, h, eq_comm]
  · simp [fixedSizeBinaryBuilder, h, Outcome.panic]

/-- At a builder that fits, the type and the builder lead to the same arm. -/
theorem decodeFlat_simulates (json : Bytes → Bytes) {t : ChType} {d : DataType} {b : TypedBuilder}
    (hb : typedBuild t d = .ok b) (d' : DataType) (rows : Nat) (nulls : Bytes) :
    Simulates (fun x y => x = y) (decodeFlatAsync json t b d' rows nulls)
      (decodeFlat json t b rows nulls) := by
  unfold decodeFlatAsync decodeFlat
  cases t with
  | int8 | int16 | int32 | int64 | uint8 | uint16 | uint32 | uint64 | float32 | float64 | date
  | date32 | dateTime =>
      cases hb
      exact Primitive.deserialize_simulates _ rows nulls
  | decimal32 | decimal64 | decimal128 | decimal256 =>
      obtain ⟨s, _, rfl⟩ := Outcome.map_eq_ok.mp hb
      exact Primitive.deserialize_simulates _ rows nulls
  | dateTime64 p tz =>
      simp only [typedBuild] at hb
      split_ifs at hb <;> cases hb <;> exact Primitive.deserialize_simulates _ rows nulls
  | string | binary | object =>
      cases hb
      exact Binary.deserialize_simulates json _ _ rows nulls
  | fixedSizedString | fixedSizedBinary | ipv4 | ipv6 | uuid | int128 | uint128 | int256
  | uint256 =>
      obtain ⟨_, rfl⟩ := fixedSizeBinaryBuilder_eq_ok.mp hb
      exact Binary.deserialize_simulates json _ _ rows nulls
  | enum8 | enum16 =>
      cases hb
      exact Enums.deserialize_simulates _ _ rows nulls
  | _ => cases hb

/-! ## Nested values -/

/-- The two decoders of an inner column agree at a builder. -/
def Agree (decode decode' : Decode) (b : TypedBuilder) : Prop :=
  ∀ d rows nulls, Simulates (fun x y => x = y) (decode b d rows nulls) (decode' b d rows nulls)

theorem Null.readMask_simulates (rows : Nat) :
    Simulates (fun a b => a = b) (Null.readMaskAsync rows) (Null.readMask rows) :=
  Simulates.ite (fun _ => readBuffer_simulates rows) fun _ => Simulates.pure rfl

theorem Lists.bulkOffsets_simulates (rows : Nat) :
    Simulates (fun a b => a = b) (Lists.bulkOffsets .async rows) (Lists.bulkOffsets .sync rows) :=
  Simulates.ite (fun _ => Simulates.panic _ _ _) fun _ =>
    (Simulates.takeExact _ _ _).bind fun _ _ h => Simulates.pure (by rw [h])

theorem Lists.listDeser_simulates {decode decode' : Decode} {item : TypedBuilder}
    (h : Agree decode decode' item) (large : Bool) (cast : UInt64 → Int) (inner : ChType)
    (d : DataType) (rows : Nat) (nulls : Bytes) :
    Simulates (fun x y => x = y)
      (Lists.listDeserAsync large cast inner decode item d rows nulls)
      (Lists.listDeser large cast inner decode' item d rows nulls) := by
  refine (Lists.bulkOffsets_simulates rows).bind ?_
  rintro offsets _ rfl
  refine (Simulates.ofOutcome_refl _).bind ?_
  rintro offsetBuffer _ rfl
  refine (h _ _ _).bind ?_
  rintro array _ rfl
  refine (Simulates.ofOutcome_refl _).bind ?_
  rintro listArray _ rfl
  exact Simulates.ite (fun _ => Simulates.fail _ _ _) fun _ => Simulates.pure rfl

theorem Lists.fixedDeser_simulates {decode decode' : Decode} {item : TypedBuilder}
    (h : Agree decode decode' item) (size : Int32) (inner : ChType) (d : DataType) (rows : Nat)
    (nulls : Bytes) :
    Simulates (fun x y => x = y) (Lists.fixedDeserAsync size inner decode item d rows nulls)
      (Lists.fixedDeser size inner decode' item d rows nulls) := by
  refine (h _ _ _).bind ?_
  rintro array _ rfl
  refine (Simulates.ofOutcome_refl _).bind ?_
  rintro listArray _ rfl
  exact Simulates.ite (fun _ => Simulates.fail _ _ _) fun _ => Simulates.pure rfl

theorem Lists.deserialize_simulates {decode decode' : Decode} {item : TypedBuilder}
    (h : Agree decode decode' item) (inner : ChType) (kind : ListBuilder) (d : DataType)
    (rows : Nat) (nulls : Bytes) :
    Simulates (fun x y => x = y)
      (Lists.deserializeAsync inner decode (.list kind item) d rows nulls)
      (Lists.deserialize inner decode' kind item d rows nulls) := by
  rw [Lists.deserializeAsync, Lists.deserialize]
  cases Lists.itemOf d with
  | none => exact Simulates.fail _ _ _
  | some f =>
      cases kind with
      | list => exact Lists.listDeser_simulates h _ _ _ _ rows nulls
      | largeList => exact Lists.listDeser_simulates h _ _ _ _ rows nulls
      | fixedList size => exact Lists.fixedDeser_simulates h _ _ _ rows nulls

theorem LowCardinality.deserKey_simulates
    (indexes : ClickhouseArrow.LowCardinality.IndexType) (key : KeyType) (rows : Nat)
    (nulls : Bytes) :
    Simulates (fun x y => x = y) (LowCardinality.deserKey .async indexes key rows nulls)
      (LowCardinality.deserKey .sync indexes key rows nulls) := by
  cases indexes <;>
    exact (deserBulk_simulates _ rows nulls).bind fun _ _ h => Simulates.pure (by rw [h])

theorem LowCardinality.deserialize_simulates {decode decode' : Decode} {value : TypedBuilder}
    (h : Agree decode decode' value) (inner : ChType) (key : KeyType) (d : DataType) (rows : Nat)
    (nulls : Bytes) :
    Simulates (fun x y => x = y)
      (LowCardinality.deserializeAsync inner decode (.lowCardinality key value) d rows nulls)
      (LowCardinality.deserialize inner decode' key value d rows nulls) := by
  cases d with
  | dictionary keyType valueType =>
      refine getUsize_simulates.bind ?_
      rintro flags _ rfl
      cases LowCardinality.indexType flags with
      | none => exact Simulates.fail _ _ _
      | some indexes =>
          refine getUsize_simulates.bind ?_
          rintro dictSize _ rfl
          refine Simulates.ite (fun _ => ?_) fun _ => Simulates.fail _ _ _
          refine (Simulates.ofOutcome_refl _).bind ?_
          rintro mask _ rfl
          refine (h _ _ _).bind ?_
          rintro dictionary _ rfl
          refine getUsize_simulates.bind ?_
          rintro numRows _ rfl
          refine Simulates.ite (fun _ => Simulates.fail _ _ _) fun _ => ?_
          refine (LowCardinality.deserKey_simulates indexes key rows nulls).bind ?_
          rintro keys _ rfl
          exact Simulates.ofOutcome_refl _
  | _ => exact Simulates.fail _ _ _

theorem Maps.deserialize_simulates {decodeKey decodeKey' decodeValue decodeValue' : Decode}
    {k v : TypedBuilder} (hkey : Agree decodeKey decodeKey' k)
    (hvalue : Agree decodeValue decodeValue' v) (d : DataType) (rows : Nat) (nulls : Bytes) :
    Simulates (fun x y => x = y)
      (Maps.deserializeAsync decodeKey decodeValue (.map k v) d rows nulls)
      (Maps.deserialize decodeKey' decodeValue' k v d rows nulls) := by
  refine (Simulates.ofOutcome_refl _).bind ?_
  rintro fields _ rfl
  refine (Lists.bulkOffsets_simulates rows).bind ?_
  rintro offsets _ rfl
  refine (Simulates.ofOutcome_refl _).bind ?_
  rintro offsetBuffer _ rfl
  refine (hkey _ _ _).bind ?_
  rintro keys _ rfl
  refine (hvalue _ _ _).bind ?_
  rintro values _ rfl
  refine (Simulates.ofOutcome_refl _).bind ?_
  rintro entries _ rfl
  exact Simulates.ofOutcome_refl _

theorem Tuples.deserialize_simulates
    {decode decode' : List TypedBuilder → List Field → Nat → Reader ArrowError (List ArrowArray)}
    {builders : List TypedBuilder}
    (h : ∀ fields rows, Simulates (fun x y => x = y) (decode builders fields rows)
      (decode' builders fields rows))
    (d : DataType) (rows : Nat) (nulls : Bytes) :
    Simulates (fun x y => x = y) (Tuples.deserializeAsync decode (.tuple builders) d rows nulls)
      (Tuples.deserialize decode' builders d rows nulls) := by
  cases d with
  | struct fields =>
      refine Simulates.ite (fun _ => Simulates.ofOutcome_refl _) fun _ => ?_
      refine (h fields rows).bind ?_
      rintro arrays _ rfl
      exact Simulates.ofOutcome_refl _
  | _ => exact Simulates.fail _ _ _

/-! ## Columns of any type -/

theorem deserializeArrowAsync_lowCardinality (json : Bytes → Bytes) (inner : ChType) :
    deserializeArrowAsync json (.lowCardinality inner) =
      LowCardinality.deserializeAsync inner (deserializeArrowAsync json inner.stripNull) := by
  cases inner <;> rfl

theorem deserializeArrow_lowCardinality (json : Bytes → Bytes) (inner : ChType) (key : KeyType)
    (value : TypedBuilder) :
    deserializeArrow json (.lowCardinality inner) (.lowCardinality key value) =
      LowCardinality.deserialize inner (deserializeArrow json inner.stripNull) key value := by
  cases inner <;> rfl

theorem deserializeColumns_simulates (json : Bytes → Bytes) {ts : List ChType}
    (ih : ∀ t ∈ ts, ∀ b, Fits t b →
      Agree (deserializeArrowAsync json t) (deserializeArrow json t) b)
    {builders : List TypedBuilder} (hfits : FitEach ts builders) (fields : List Field)
    (rows : Nat) :
    Simulates (fun x y => x = y) (deserializeColumnsAsync json ts builders fields rows)
      (deserializeColumns json ts builders fields rows) := by
  induction ts generalizing builders fields with
  | nil => exact Simulates.pure rfl
  | cons t ts ihts =>
      obtain ⟨b, bs, rfl, hfit, hfits⟩ := hfits
      cases fields with
      | nil => exact Simulates.pure rfl
      | cons f fs =>
          refine (ih t (by simp) b hfit _ _ _).bind ?_
          rintro array _ rfl
          have hrest := ihts (fun u hu => ih u (List.mem_cons_of_mem t hu)) hfits fs
          exact hrest.bind fun _ _ h => Simulates.pure (by rw [h])

/-- The two decoders agree at every builder that fits the type. -/
theorem deserializeArrow_agree (json : Bytes → Bytes) {t : ChType} {b : TypedBuilder}
    (hfits : Fits t b) : Agree (deserializeArrowAsync json t) (deserializeArrow json t) b := by
  induction t using ChType.inductionOn generalizing b with
  | hleaf t hflat =>
      intro d' rows nulls
      cases t with
      | nullable | lowCardinality | array | tuple | map => cases hflat
      | _ =>
          obtain ⟨d, hb⟩ := hfits
          exact decodeFlat_simulates json hb d' rows nulls
  | hnullable inner ih =>
      intro d rows nulls
      -- Both readers take the mask first, and go on with the same one.
      refine (Null.readMask_simulates rows).bind ?_
      rintro mask _ rfl
      exact ih hfits d rows mask
  | hlowCardinality inner ih _ =>
      obtain ⟨key, value, rfl, hfit⟩ := hfits
      intro d rows nulls
      rw [deserializeArrowAsync_lowCardinality, deserializeArrow_lowCardinality]
      exact LowCardinality.deserialize_simulates (ih ((fits_stripNull inner value).mpr hfit)) inner
        key d rows nulls
  | harray inner ih =>
      obtain ⟨kind, item, rfl, hfit⟩ := hfits
      intro d rows nulls
      exact Lists.deserialize_simulates (ih hfit) inner kind d rows nulls
  | htuple items ih =>
      obtain ⟨builders, rfl, hfit⟩ := hfits
      intro d rows nulls
      exact Tuples.deserialize_simulates
        (deserializeColumns_simulates json (fun t ht b => ih t ht) hfit) d rows nulls
  | hmap key value ihkey ihvalue =>
      obtain ⟨k, v, rfl, hkey, hvalue⟩ := hfits
      intro d rows nulls
      exact Maps.deserialize_simulates (ihkey hkey) (ihvalue hvalue) d rows nulls

/-- **The asynchronous and the synchronous Arrow codecs agree**: the serializers write the same
bytes or fail alike for every type, array and data type; and with the builder that
`TypedBuilder::try_new` gives for a type and a data type, the decoders read the same array and
leave the same bytes, or fail alike, for every byte string and every number of rows. -/
theorem arrowCodecs_agree (json : Bytes → Bytes) :
    (∀ (t : ChType) (column : ArrowArray) (d : DataType),
      serializeAsync t column d = serialize t column d) ∧
    ∀ (t : ChType) (d : DataType) (builder : TypedBuilder),
      TypedBuilder.tryNew t d = .ok builder → ∀ (rows : Nat) (nulls : Bytes),
        Simulates (fun array array' => array = array')
          (deserializeArrowAsync json t builder d rows nulls)
          (deserializeArrow json t builder d rows nulls) := by
  constructor
  · intro t column d
    exact (serialize_eq t column d).symm
  · intro t d builder hb rows nulls
    exact deserializeArrow_agree json (fits_of_tryNewOf hb) d rows nulls

/-- Two rows of an array of nullable dictionary values. -/
theorem arrowCodecs_agree_sample :
    Simulates (fun array array' => array = array')
      (deserializeArrowAsync id (.array (.lowCardinality (.nullable .string)))
        (.list .list (.lowCardinality .int32 .string))
        (listOf (.dictionary (.primitive .int32) (.bytes .utf8), true)) 2 [])
      (deserializeArrow id (.array (.lowCardinality (.nullable .string)))
        (.list .list (.lowCardinality .int32 .string))
        (listOf (.dictionary (.primitive .int32) (.bytes .utf8), true)) 2 []) :=
  (arrowCodecs_agree id).2 _ _ _ rfl 2 []

end Arrow

end ClickhouseArrow
