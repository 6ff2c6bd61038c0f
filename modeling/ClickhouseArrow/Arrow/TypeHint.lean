import ClickhouseArrow.Arrow.DecodedType

/-!
# The type that is decoded

`ch_to_arrow_type` announces a data type, `normalize_type` fits the type to it, and
`TypedBuilder::try_new` builds for the two.  The module takes the announcement apart, follows the
normalization through it, and shows for which types the three agree (`fitsBuilder`): there the
builder serves what is announced.  Whether the items of an array agree is the hard part, since
the two sides look for the nullability of a dictionary at different places.
-/

namespace ClickhouseArrow

open Wire

namespace Arrow

/-! ## What an announcement is made of -/

section Announcement

variable {options : Option ArrowOptions} {isNull n : Bool} {d : DataType}

theorem arrowTypeOf_array {inner : ChType}
    (h : arrowTypeOf options isNull (.array inner) = .ok (d, n)) :
    ∃ item, arrowTypeOf options false inner = .ok item ∧ d = listOf item ∧ n = isNull := by
  rw [arrowTypeOf] at h
  split_ifs at h
  · cases h
  · obtain ⟨item, hitem, h⟩ := Outcome.bind_eq_ok.mp h
    cases h
    exact ⟨item, hitem, rfl, rfl⟩

theorem arrowTypeOf_lowCardinality {inner : ChType}
    (h : arrowTypeOf options isNull (.lowCardinality inner) = .ok (d, n)) :
    ∃ value, arrowTypeOf options false inner = .ok value ∧
      d = .dictionary (.primitive .int32) value.1 ∧ n = inner.isNullable := by
  rw [arrowTypeOf] at h
  split_ifs at h
  · cases h
  · obtain ⟨value, hvalue, h⟩ := Outcome.bind_eq_ok.mp h
    cases h
    exact ⟨value, hvalue, rfl, rfl⟩

theorem arrowTypeOf_tuple {types : List ChType}
    (h : arrowTypeOf options isNull (.tuple types) = .ok (d, n)) :
    ∃ items, arrowTypesOf options types = .ok items ∧ d = .struct (tupleFields 0 items) ∧
      n = isNull := by
  obtain ⟨items, hitems, h⟩ := Outcome.bind_eq_ok.mp h
  cases h
  exact ⟨items, hitems, rfl, rfl⟩

theorem arrowTypeOf_map {key value : ChType}
    (h : arrowTypeOf options isNull (.map key value) = .ok (d, n)) :
    ∃ k v, arrowTypeOf options false key = .ok k ∧ arrowTypeOf options false value = .ok v ∧
      d = mapOf k.1 v ∧ n = isNull := by
  obtain ⟨k, hk, h⟩ := Outcome.bind_eq_ok.mp h
  obtain ⟨v, hv, h⟩ := Outcome.bind_eq_ok.mp h
  cases h
  exact ⟨k, v, hk, hv, rfl, rfl⟩

/-- There is no `Nullable` in a `Nullable` where something is announced. -/
theorem arrowTypeOf_nullable {inner : ChType}
    (h : arrowTypeOf options isNull (.nullable inner) = .ok (d, n)) :
    isNull = false ∧ arrowTypeOf options true inner = .ok (d, n) := by
  cases isNull with
  | false => exact ⟨rfl, h⟩
  | true => cases h

theorem isNullable_of_arrowTypeOf {t : ChType} (h : arrowTypeOf options true t = .ok (d, n)) :
    t.isNullable = false := by
  cases t with
  | nullable inner => cases h
  | _ => rfl

theorem arrowTypesOf_cons {t : ChType} {ts : List ChType} {items : List (DataType × Bool)}
    (h : arrowTypesOf options (t :: ts) = .ok items) :
    ∃ item rest, arrowTypeOf options false t = .ok item ∧ arrowTypesOf options ts = .ok rest ∧
      items = item :: rest := by
  obtain ⟨item, hitem, h⟩ := Outcome.bind_eq_ok.mp h
  obtain ⟨rest, hrest, h⟩ := Outcome.bind_eq_ok.mp h
  exact ⟨item, rest, hitem, hrest, (Except.ok.inj h).symm⟩

/-- Whether the announced field is nullable. -/
def announcedNullable (isNull : Bool) : ChType → Bool
  | .lowCardinality inner => inner.isNullable
  | .nullable inner => announcedNullable true inner
  | _ => isNull

theorem eq_announcedNullable {t : ChType} (h : arrowTypeOf options isNull t = .ok (d, n)) :
    n = announcedNullable isNull t := by
  induction t using ChType.inductionOn generalizing isNull with
  | hleaf t hflat =>
      cases t with
      | nullable | lowCardinality | array | tuple | map => cases hflat
      | dateTime64 p tz =>
          rw [arrowTypeOf] at h
          split_ifs at h
          all_goals cases h
          all_goals rfl
      | point | ring | polygon | multiPolygon =>
          cases isNull with
          | true => cases h
          | false => cases h; rfl
      | _ => cases h; rfl
  | hnullable inner ih =>
      obtain ⟨rfl, h⟩ := arrowTypeOf_nullable h
      exact ih h
  -- A dictionary takes the flag of its values, every composite that of what stands around it.
  | hlowCardinality inner _ _ =>
      obtain ⟨value, -, -, rfl⟩ := arrowTypeOf_lowCardinality h
      rfl
  | harray inner _ =>
      obtain ⟨item, -, -, rfl⟩ := arrowTypeOf_array h
      rfl
  | htuple items _ =>
      obtain ⟨fields, -, -, rfl⟩ := arrowTypeOf_tuple h
      rfl
  | hmap key value _ _ =>
      obtain ⟨k, v, -, -, -, rfl⟩ := arrowTypeOf_map h
      rfl

end Announcement

/-! ## What the normalization does -/

/-- The type that is decoded: the normalized one, where there is one. -/
def typeHint (t : ChType) (d : DataType) : ChType := (normalizeType t d).getD t

mutual

/-- Normalization changes the type: outside of maps, it holds a string that is read as bytes or
a fixed string. -/
def coerces (options : Option ArrowOptions) : ChType → Bool
  | .string => !wantsStrings options
  | .fixedSizedString _ => true
  | .nullable inner | .array inner | .lowCardinality inner => coerces options inner
  | .tuple items => coercesAny options items
  | _ => false

def coercesAny (options : Option ArrowOptions) : List ChType → Bool
  | [] => false
  | t :: ts => coerces options t || coercesAny options ts

end

theorem normalizeType_nullable {inner : ChType} (h : inner.isNullable = false) (d : DataType) :
    normalizeType (.nullable inner) d = (normalizeType inner d).map ChType.intoNullable := by
  cases inner <;> first | rfl | simp [ChType.isNullable] at h

theorem normalizeType_array (inner : ChType) (item : DataType × Bool) :
    normalizeType (.array inner) (listOf item) = (normalizeType inner item.1).map .array := rfl

theorem normalizeType_lowCardinality (inner : ChType) (k v : DataType) :
    normalizeType (.lowCardinality inner) (.dictionary k v) =
      (normalizeType inner v).map .lowCardinality := rfl

theorem normalizeType_map (key value : ChType) (d : DataType) :
    normalizeType (.map key value) d = none := by
  cases d <;> rfl

theorem normalizeTypes_any {options : Option ArrowOptions} {ts : List ChType}
    (ih : ∀ t ∈ ts, ∀ d n, arrowTypeOf options false t = .ok (d, n) →
      (normalizeType t d).isSome = coerces options t)
    {items : List (DataType × Bool)} (h : arrowTypesOf options ts = .ok items) (i : Nat) :
    ((normalizeTypes ts (tupleFields i items)).any fun p => p.2.isSome) =
      coercesAny options ts := by
  induction ts generalizing items i with
  | nil => rfl
  | cons t ts ihts =>
      obtain ⟨item, rest, hitem, hrest, rfl⟩ := arrowTypesOf_cons h
      have htail := ihts (fun u hu => ih u (List.mem_cons_of_mem t hu)) hrest (i + 1)
      rw [tupleFields, normalizeTypes, List.any_cons, coercesAny, htail,
        ih t List.mem_cons_self item.1 item.2 hitem]

/-- The types that are normalized to another one for the data type announced. -/
theorem isSome_normalizeType {options : Option ArrowOptions} {isNull n : Bool} {d : DataType}
    {t : ChType} (h : arrowTypeOf options isNull t = .ok (d, n)) :
    (normalizeType t d).isSome = coerces options t := by
  induction t using ChType.inductionOn generalizing isNull d n with
  | hleaf t hflat =>
      cases t with
      | nullable | lowCardinality | array | tuple | map => cases hflat
      -- Strings and fixed sizes are the leaves that are normalized.
      | string =>
          cases h
          rw [coerces]
          cases wantsStrings options <;> rfl
      | fixedSizedString len | fixedSizedBinary len => cases h; rfl
      | binary => cases h; rfl
      | _ => cases d <;> rfl
  | hnullable inner ih =>
      obtain ⟨rfl, h⟩ := arrowTypeOf_nullable h
      rw [normalizeType_nullable (isNullable_of_arrowTypeOf h), Option.isSome_map]
      exact ih h
  | hlowCardinality inner _ ih =>
      obtain ⟨value, hvalue, rfl, -⟩ := arrowTypeOf_lowCardinality h
      rw [normalizeType_lowCardinality, Option.isSome_map]
      exact ih hvalue
  | harray inner ih =>
      obtain ⟨item, hitem, rfl, -⟩ := arrowTypeOf_array h
      rw [normalizeType_array, Option.isSome_map]
      exact ih hitem
  | htuple items ih =>
      obtain ⟨fields, hfields, rfl, -⟩ := arrowTypeOf_tuple h
      -- A tuple is normalized where one of its items is.
      have hany := normalizeTypes_any (fun t ht d n => ih t ht) hfields 0
      rw [coerces, ← hany]
      simp only [normalizeType]
      split_ifs with hsome
      · rw [hsome]
        rfl
      · rw [Bool.not_eq_true] at hsome
        rw [hsome]
        rfl
  | hmap key value _ _ =>
      rw [normalizeType_map]
      rfl

/-- The type that is decoded at a place: inside of a map nothing is normalized. -/
def hintOf (inMap : Bool) (t : ChType) (d : DataType) : ChType :=
  if inMap then t else typeHint t d

/-- The type is decoded as another one. -/
def coerced (options : Option ArrowOptions) (inMap : Bool) (t : ChType) : Bool :=
  !inMap && coerces options t

theorem hintOf_eq_self {options : Option ArrowOptions} {isNull n inMap : Bool} {d : DataType}
    {t : ChType} (h : arrowTypeOf options isNull t = .ok (d, n))
    (hsame : coerced options inMap t = false) : hintOf inMap t d = t := by
  cases inMap with
  | true => rfl
  | false =>
      have hnone : (normalizeType t d).isSome = false := (isSome_normalizeType h).trans hsame
      show (normalizeType t d).getD t = t
      rw [Option.not_isSome_iff_eq_none.mp (Bool.eq_false_iff.mp hnone)]
      rfl

theorem hintOf_nullable {options : Option ArrowOptions} {n : Bool} {d : DataType} {inner : ChType}
    (h : arrowTypeOf options true inner = .ok (d, n)) (inMap : Bool) :
    hintOf inMap (.nullable inner) d =
      if coerced options inMap inner then (hintOf inMap inner d).intoNullable
      else .nullable (hintOf inMap inner d) := by
  cases inMap with
  | true => rfl
  | false =>
      have hsome := isSome_normalizeType h
      show (normalizeType (.nullable inner) d).getD (.nullable inner) =
        if coerces options inner then ((normalizeType inner d).getD inner).intoNullable
        else .nullable ((normalizeType inner d).getD inner)
      rw [normalizeType_nullable (isNullable_of_arrowTypeOf h), ← hsome]
      cases normalizeType inner d <;> rfl

theorem hintOf_array (inMap : Bool) (inner : ChType) (item : DataType × Bool) :
    hintOf inMap (.array inner) (listOf item) = .array (hintOf inMap inner item.1) := by
  cases inMap with
  | true => rfl
  | false =>
      show (normalizeType (.array inner) (listOf item)).getD _ =
        .array ((normalizeType inner item.1).getD inner)
      rw [normalizeType_array]
      cases normalizeType inner item.1 <;> rfl

theorem hintOf_lowCardinality (inMap : Bool) (inner : ChType) (k v : DataType) :
    hintOf inMap (.lowCardinality inner) (.dictionary k v) =
      .lowCardinality (hintOf inMap inner v) := by
  cases inMap with
  | true => rfl
  | false =>
      show (normalizeType (.lowCardinality inner) (.dictionary k v)).getD _ =
        .lowCardinality ((normalizeType inner v).getD inner)
      rw [normalizeType_lowCardinality]
      cases normalizeType inner v <;> rfl

/-- Nothing is normalized from a map on. -/
theorem hintOf_map (inMap : Bool) (key value : ChType) (dk : DataType) (dv : DataType × Bool) :
    hintOf inMap (.map key value) (mapOf dk dv) =
      .map (hintOf true key dk) (hintOf true value dv.1) := by
  cases inMap with
  | true => rfl
  | false =>
      show (normalizeType (.map key value) (mapOf dk dv)).getD _ = .map key value
      rw [normalizeType_map]
      rfl

/-- The types that the components of a tuple are decoded as. -/
def hintsOf (inMap : Bool) : List ChType → List Field → List ChType
  | t :: ts, f :: fs => hintOf inMap t f.dataType :: hintsOf inMap ts fs
  | _, _ => []

theorem hintsOf_true {ts : List ChType} {fields : List Field} (h : ts.length = fields.length) :
    hintsOf true ts fields = ts := by
  induction ts generalizing fields with
  | nil => rfl
  | cons t ts ih =>
      cases fields with
      | nil => cases h
      | cons f fs =>
          show t :: hintsOf true ts fs = t :: ts
          rw [ih (by simpa using h)]

theorem map_normalizeTypes (ts : List ChType) (fields : List Field) :
    ((normalizeTypes ts fields).map fun p => p.2.getD p.1) = hintsOf false ts fields := by
  induction ts generalizing fields with
  | nil => rfl
  | cons t ts ih =>
      cases fields with
      | nil => rfl
      | cons f fs =>
          rw [normalizeTypes, List.map_cons, ih fs]
          rfl

/-- Where no component changes, the components stay. -/
theorem hintsOf_false {ts : List ChType} {fields : List Field} (h : ts.length = fields.length)
    (hnone : ((normalizeTypes ts fields).any fun p => p.2.isSome) = false) :
    hintsOf false ts fields = ts := by
  induction ts generalizing fields with
  | nil => rfl
  | cons t ts ih =>
      cases fields with
      | nil => cases h
      | cons f fs =>
          rw [normalizeTypes, List.any_cons, Bool.or_eq_false_iff] at hnone
          obtain ⟨hhead, htail⟩ := hnone
          replace hhead : (normalizeType t f.dataType).isSome = false := hhead
          have hhint : hintOf false t f.dataType = t := by
            show (normalizeType t f.dataType).getD t = t
            rw [Option.not_isSome_iff_eq_none.mp (Bool.eq_false_iff.mp hhead)]
            rfl
          rw [hintsOf, hhint, ih (by simpa using h) htail]

theorem hintOf_tuple (inMap : Bool) {types : List ChType} {fields : List Field}
    (h : types.length = fields.length) :
    hintOf inMap (.tuple types) (.struct fields) = .tuple (hintsOf inMap types fields) := by
  cases inMap with
  | true =>
      rw [hintsOf_true h]
      rfl
  | false =>
      show (normalizeType (.tuple types) (.struct fields)).getD _ = _
      simp only [normalizeType]
      split_ifs with hsome
      · rw [map_normalizeTypes]
        rfl
      · rw [hintsOf_false h (Bool.not_eq_true _ ▸ hsome)]
        rfl

theorem length_of_arrowTypesOf {options : Option ArrowOptions} {ts : List ChType}
    {items : List (DataType × Bool)} (h : arrowTypesOf options ts = .ok items) (i : Nat) :
    ts.length = (tupleFields i items).length := by
  induction ts generalizing items i with
  | nil =>
      cases h
      rfl
  | cons t ts ih =>
      obtain ⟨item, rest, -, hrest, rfl⟩ := arrowTypesOf_cons h
      rw [List.length_cons, ih hrest (i + 1)]
      rfl

/-- The type is a dictionary. -/
def isDictionary : ChType → Bool
  | .lowCardinality _ => true
  | _ => false

/-- The normalization keeps a `Nullable` away and a dictionary a dictionary. -/
theorem head_hintOf {options : Option ArrowOptions} {isNull n : Bool} {d : DataType} {t : ChType}
    (h : arrowTypeOf options isNull t = .ok (d, n)) (hnull : t.isNullable = false)
    (inMap : Bool) :
    (hintOf inMap t d).isNullable = false ∧ isDictionary (hintOf inMap t d) = isDictionary t := by
  have hself (hsame : coerces options t = false) :
      (hintOf inMap t d).isNullable = false ∧
        isDictionary (hintOf inMap t d) = isDictionary t := by
    rw [hintOf_eq_self h (by rw [coerced, hsame, Bool.and_false])]
    exact ⟨hnull, rfl⟩
  cases t with
  | nullable inner => simp [ChType.isNullable] at hnull
  | lowCardinality inner =>
      obtain ⟨value, -, rfl, -⟩ := arrowTypeOf_lowCardinality h
      rw [hintOf_lowCardinality]
      exact ⟨rfl, rfl⟩
  | array inner =>
      obtain ⟨item, -, rfl, -⟩ := arrowTypeOf_array h
      rw [hintOf_array]
      exact ⟨rfl, rfl⟩
  | tuple types =>
      obtain ⟨items, hitems, rfl, -⟩ := arrowTypeOf_tuple h
      rw [hintOf_tuple inMap (length_of_arrowTypesOf hitems 0)]
      exact ⟨rfl, rfl⟩
  | string =>
      cases h
      cases inMap <;> cases wantsStrings options <;> exact ⟨rfl, rfl⟩
  | fixedSizedString len =>
      cases h
      cases inMap <;> exact ⟨rfl, rfl⟩
  | _ => exact hself rfl

theorem isNullable_intoNullable (t : ChType) : t.intoNullable.isNullable = !isDictionary t := by
  cases t <;> rfl

theorem intoNullable_eq {t : ChType} (hnull : t.isNullable = false)
    (hdict : isDictionary t = false) : t.intoNullable = .nullable t := by
  cases t with
  | nullable inner => cases hnull
  | lowCardinality inner => simp [isDictionary] at hdict
  | _ => rfl

theorem intoNullable_idem (t : ChType) : t.intoNullable.intoNullable = t.intoNullable := by
  induction t using ChType.inductionOn with
  | hleaf t hflat =>
      cases t with
      | lowCardinality => cases hflat
      | _ => rfl
  | hlowCardinality inner _ ih =>
      show ChType.lowCardinality inner.intoNullable.intoNullable = .lowCardinality inner.intoNullable
      rw [ih]
  | hnullable inner _ => rfl
  | harray inner _ => rfl
  | htuple items _ => rfl
  | hmap key value _ _ => rfl

/-! ## The types that are announced as they are built -/

/-- The field of the items of an array is announced as nullable where the array that is built
says so.  The first looks through a `Nullable` at the values of a dictionary, the second
through a dictionary at a `Nullable`, and only after the normalization. -/
def itemAgrees (options : Option ArrowOptions) (inMap : Bool) : ChType → Bool
  | .nullable (.lowCardinality (.nullable (.lowCardinality y))) => !coerced options inMap y
  | .nullable (.lowCardinality (.lowCardinality y)) => coerced options inMap y
  | .nullable (.lowCardinality y) => y.isNullable
  | .lowCardinality (.nullable (.lowCardinality y)) => !coerced options inMap y
  | _ => true

mutual

/-- Every part of the type has a builder of what is announced: no geo type, no width that an
`i32` has no room for, no scale beyond the precision, no string in a map that is announced as
bytes, and only arrays whose items agree. -/
def fitsBuilder (options : Option ArrowOptions) (inMap : Bool) : ChType → Bool
  | .string => !inMap || wantsStrings options
  | .fixedSizedString n | .fixedSizedBinary n => decide (0 ≤ (i32OfUsize n).toInt)
  | .decimal32 s => decide ((i8OfUsize s).toInt ≤ 9)
  | .decimal64 s => decide ((i8OfUsize s).toInt ≤ 18)
  | .decimal128 s => decide ((i8OfUsize s).toInt ≤ 38)
  | .decimal256 s => decide ((i8OfUsize s).toInt ≤ 76)
  | .point | .ring | .polygon | .multiPolygon => false
  | .nullable inner | .lowCardinality inner => fitsBuilder options inMap inner
  | .array inner => fitsBuilder options inMap inner && itemAgrees options inMap inner
  | .tuple items => fitsBuilders options inMap items
  | .map key value => fitsBuilder options true key && fitsBuilder options true value
  | _ => true

def fitsBuilders (options : Option ArrowOptions) (inMap : Bool) : List ChType → Bool
  | [] => true
  | t :: ts => fitsBuilder options inMap t && fitsBuilders options inMap ts

end

/-! ## The builder of what is announced -/

/-- A number goes through a `usize` and back into a word that it fits. -/
theorem bmod_usizeOfInt {x : Int} {n : Nat} (hn : (n : Int) ∣ 2 ^ 64) (hlow : -n ≤ x * 2)
    (hhigh : x * 2 < n) : (usizeOfInt x : Int).bmod n = x := by
  have hword : ((usizeOfInt x : Int)) = x % 2 ^ 64 := by
    rw [usizeOfInt]
    omega
  rw [hword, ← Int.emod_bmod, Int.emod_emod_of_dvd x hn, Int.emod_bmod]
  exact Int.bmod_eq_of_le_mul_two hlow hhigh

theorem i32OfUsize_usizeOfInt (x : Int32) : i32OfUsize (usizeOfInt x.toInt) = x := by
  have hlo := Int32.le_toInt x
  have hhi := Int32.toInt_lt x
  rw [← Int32.toInt_inj, i32OfUsize, Int32.toInt_ofNat', Int32.size]
  exact bmod_usizeOfInt (by decide) (by omega) (by omega)

theorem checkScale_eq_ok {maxScale precision : Nat} {scale : Int8} (hmax : precision ≤ maxScale)
    (h : scale.toInt ≤ precision) : checkScale maxScale precision scale = .ok scale := by
  rw [checkScale, if_neg (by omega), if_neg (by omega)]

/-- Below a type that is not nullable no strip is needed. -/
theorem tryNewOf_strips {t : ChType} (h : t.isNullable = false) (strips strips' : Nat)
    (d : DataType) : TypedBuilder.tryNewOf strips t d = TypedBuilder.tryNewOf strips' t d := by
  cases t with
  | nullable inner => simp [ChType.isNullable] at h
  | array inner => cases d <;> rfl
  | lowCardinality inner => cases d <;> rfl
  | tuple items => cases d <;> rfl
  | _ => rfl

/-- A type that is passed a `Nullable` has the same builder. -/
theorem tryNewOf_intoNullable {t : ChType} {s : Nat} {d : DataType} {b : TypedBuilder}
    (h : TypedBuilder.tryNewOf (s + 1) t d = .ok b) :
    TypedBuilder.tryNewOf (s + 1) t.intoNullable d = .ok b := by
  -- One strip takes off the new `Nullable`, and what is below needs none.
  have hplain {u : ChType} (hu : u.isNullable = false)
      (h : TypedBuilder.tryNewOf (s + 1) u d = .ok b) :
      TypedBuilder.tryNewOf (s + 1) (.nullable u) d = .ok b :=
    (tryNewOf_strips hu s (s + 1) d).trans h
  induction t using ChType.inductionOn generalizing s d b with
  | hleaf t hflat =>
      cases t with
      | nullable | lowCardinality => cases hflat
      | _ => exact hplain rfl h
  | hnullable inner _ => exact h
  | hlowCardinality inner _ ih =>
      cases d with
      | dictionary keyType valueType =>
          obtain ⟨key, hkey, h⟩ := Outcome.bind_eq_ok.mp h
          obtain ⟨value, hvalue, h⟩ := Outcome.bind_eq_ok.mp h
          cases h
          have hinner := ih hvalue fun hu h => (tryNewOf_strips hu 1 2 valueType).trans h
          show (keyBuilder keyType >>= fun key =>
            TypedBuilder.tryNewOf 2 inner.intoNullable valueType >>= fun value =>
              .ok (TypedBuilder.lowCardinality key value)) = _
          rw [hkey, hinner]
          rfl
      | _ => cases h
  | harray inner _ => exact hplain rfl h
  | htuple items _ => exact hplain rfl h
  | hmap key value _ _ => exact hplain rfl h

/-! ## The nullability of items -/

section Items

variable {options : Option ArrowOptions} {inMap n : Bool} {d : DataType}

/-- The values of a dictionary are nullable once a `Nullable` around it was moved to them: it
stays on values that are no dictionaries themselves. -/
def takesNullable (options : Option ArrowOptions) (inMap : Bool) : ChType → Bool
  | .nullable w => !coerced options inMap w || !isDictionary w
  | y => !isDictionary y

theorem isNullable_hintOf_value {y : ChType} (h : arrowTypeOf options false y = .ok (d, n)) :
    (hintOf inMap y d).intoNullable.isNullable = takesNullable options inMap y := by
  have hplain (hy : y.isNullable = false) :
      (hintOf inMap y d).intoNullable.isNullable = !isDictionary y := by
    rw [isNullable_intoNullable, (head_hintOf h hy inMap).2]
  cases y with
  | nullable w =>
      obtain ⟨-, h⟩ := arrowTypeOf_nullable h
      rw [hintOf_nullable h, takesNullable]
      split_ifs with hcoerced
      · have hdict := (head_hintOf h (isNullable_of_arrowTypeOf h) inMap).2
        rw [intoNullable_idem, isNullable_intoNullable, hdict, hcoerced]
        rfl
      · rw [Bool.eq_false_iff.mpr hcoerced]
        rfl
  | _ => exact hplain rfl

/-- The items are dictionaries in a `Nullable`.  It is announced what the values are, and built
what is left of the `Nullable`. -/
theorem itemAgrees_nullable_dictionary {y : ChType} {v : DataType × Bool}
    (h : arrowTypeOf options false y = .ok v) :
    itemAgrees options inMap (.nullable (.lowCardinality y)) = true ↔
      (if coerced options inMap y then (hintOf inMap y v.1).intoNullable.isNullable else true) =
        y.isNullable := by
  rw [isNullable_hintOf_value h]
  cases y with
  | nullable w =>
      cases w with
      | lowCardinality u =>
          show (!coerced options inMap u) = true ↔
            (if coerced options inMap u then (!coerced options inMap u || !true) else true) = true
          cases coerced options inMap u <;> decide
      | _ =>
          show true = true ↔ (if _ then (_ || !false) else true) = true
          simp
  | lowCardinality u =>
      show coerced options inMap u = true ↔
        (if coerced options inMap u then !true else true) = false
      cases coerced options inMap u <;> decide
  | _ =>
      show false = true ↔ (if _ then !false else true) = false
      simp

/-- The field of the items of an array is announced as it is built. -/
theorem itemAgrees_iff {t : ChType} (h : arrowTypeOf options false t = .ok (d, n)) :
    itemAgrees options inMap t = true ↔
      (hintOf inMap t d).stripLowCardinality.isNullable = n := by
  have hplain (hnull : t.isNullable = false) (hdict : isDictionary t = false)
      (hagrees : itemAgrees options inMap t = true) (hn : n = false) :
      itemAgrees options inMap t = true ↔
        (hintOf inMap t d).stripLowCardinality.isNullable = n := by
    obtain ⟨hnull', hdict'⟩ := head_hintOf h hnull inMap
    rw [hdict] at hdict'
    have hstrip (u : ChType) (hu : isDictionary u = false) : u.stripLowCardinality = u := by
      cases u <;> first | rfl | cases hu
    rw [hstrip _ hdict', hnull', hagrees, hn]
    simp
  cases t with
  | nullable z =>
      obtain ⟨-, h⟩ := arrowTypeOf_nullable h
      rw [hintOf_nullable h]
      -- A `Nullable` of anything but a dictionary stays where it is.
      have hstays (hnull : z.isNullable = false) (hdict : isDictionary z = false) :
          (if coerced options inMap z then (hintOf inMap z d).intoNullable
            else .nullable (hintOf inMap z d)) = .nullable (hintOf inMap z d) := by
        obtain ⟨hnull', hdict'⟩ := head_hintOf h hnull inMap
        rw [hdict] at hdict'
        split_ifs
        · exact intoNullable_eq hnull' hdict'
        · rfl
      have hn := eq_announcedNullable h
      cases z with
      | nullable w => cases h
      | lowCardinality y =>
          obtain ⟨value, hvalue, rfl, rfl⟩ := arrowTypeOf_lowCardinality h
          rw [itemAgrees_nullable_dictionary hvalue, hintOf_lowCardinality]
          have hsame : coerced options inMap (.lowCardinality y) = coerced options inMap y := rfl
          rw [hsame]
          cases coerced options inMap y <;> exact Iff.rfl
      | _ =>
          rw [hstays rfl rfl, hn]
          exact Iff.rfl
  | lowCardinality z =>
      obtain ⟨value, hvalue, rfl, rfl⟩ := arrowTypeOf_lowCardinality h
      rw [hintOf_lowCardinality]
      show _ ↔ (hintOf inMap z value.1).isNullable = z.isNullable
      cases z with
      | nullable w =>
          obtain ⟨-, hw⟩ := arrowTypeOf_nullable hvalue
          rw [hintOf_nullable hw]
          split_ifs with hcoerced
          · rw [isNullable_intoNullable, (head_hintOf hw (isNullable_of_arrowTypeOf hw) inMap).2]
            cases w with
            | lowCardinality u =>
                replace hcoerced : coerced options inMap u = true := hcoerced
                show (!coerced options inMap u) = true ↔ (!true) = true
                rw [hcoerced]
            | _ => exact Iff.rfl
          · cases w with
            | lowCardinality u =>
                replace hcoerced : coerced options inMap u = false := Bool.eq_false_iff.mpr hcoerced
                show (!coerced options inMap u) = true ↔ true = true
                rw [hcoerced]
                exact Iff.rfl
            | _ => exact Iff.rfl
      | _ =>
          rw [(head_hintOf hvalue rfl inMap).1]
          exact ⟨fun _ => rfl, fun _ => rfl⟩
  | _ => exact hplain rfl rfl rfl (eq_announcedNullable h)

end Items

/-! ## The builder serves what is announced -/

section Builders

variable {options : Option ArrowOptions} {isNull inMap n : Bool} {d : DataType}

/-- The builder that a type is given for a data type, however many strips are left, which serves
the two. -/
def HasBuilder (t : ChType) (d : DataType) : Prop :=
  ∃ b, (∀ s, TypedBuilder.tryNewOf (s + 1) t d = .ok b) ∧ Serves t b d

/-- The types that are not nested. -/
theorem hasBuilder_of_flat {t : ChType} {b : TypedBuilder} (hb : typedBuild t d = .ok b)
    (hd : b.flatType = some d) : HasBuilder t d := by
  refine ⟨b, fun s => ?_, serves_of_flat hb hd⟩
  cases t with
  | nullable i => cases hb
  | lowCardinality i => cases hb
  | array i => cases hb
  | tuple ts => cases hb
  | map k v => cases hb
  | _ => exact hb

theorem HasBuilder.intoNullable {t : ChType} (h : HasBuilder t d) :
    HasBuilder t.intoNullable d := by
  obtain ⟨b, hb, hserves⟩ := h
  exact ⟨b, fun s => tryNewOf_intoNullable (hb s), hserves.intoNullable⟩

theorem HasBuilder.nullable {t : ChType} (hnull : t.isNullable = false) (h : HasBuilder t d) :
    HasBuilder (.nullable t) d := by
  obtain ⟨b, hb, hserves⟩ := h
  exact ⟨b, fun s => (tryNewOf_strips hnull s (s + 1) d).trans (hb s), hserves⟩

theorem HasBuilder.array {t : ChType} {item : DataType × Bool} (h : HasBuilder t item.1)
    (hitem : t.stripLowCardinality.isNullable = item.2) :
    HasBuilder (.array t) (listOf item) := by
  obtain ⟨b, hb, hserves⟩ := h
  refine ⟨.list .list b, fun s => ?_, b, item.1, rfl, by rw [hitem], hserves⟩
  show TypedBuilder.list .list <$> TypedBuilder.tryNewOf 2 t item.1 = _
  rw [hb 1]
  rfl

theorem HasBuilder.lowCardinality {t : ChType} {v : DataType} (h : HasBuilder t v) :
    HasBuilder (.lowCardinality t) (.dictionary (.primitive .int32) v) := by
  obtain ⟨b, hb, hserves⟩ := h
  refine ⟨.lowCardinality .int32 b, fun s => ?_, .int32, b, v, rfl, rfl, hserves⟩
  show (TypedBuilder.tryNewOf 2 t v >>= fun value =>
    .ok (TypedBuilder.lowCardinality .int32 value)) = _
  rw [hb 1]
  rfl

theorem HasBuilder.map {key value : ChType} {dk : DataType} {dv : DataType × Bool}
    (hkey : HasBuilder key dk) (hvalue : HasBuilder value dv.1) :
    HasBuilder (.map key value) (mapOf dk dv) := by
  obtain ⟨k, hk, hkey⟩ := hkey
  obtain ⟨v, hv, hvalue⟩ := hvalue
  refine ⟨.map k v, fun s => ?_, k, v, dk, dv, rfl, rfl, hkey, hvalue⟩
  show (TypedBuilder.tryNewOf 1 key dk >>= fun k =>
    TypedBuilder.tryNewOf 1 value dv.1 >>= fun v => .ok (TypedBuilder.map k v)) = _
  rw [hk 0, hv 0]
  rfl

/-- The builders of the components of a tuple. -/
theorem hasBuilders {ts : List ChType}
    (ih : ∀ t ∈ ts, ∀ d n, arrowTypeOf options false t = .ok (d, n) →
      fitsBuilder options inMap t = true → HasBuilder (hintOf inMap t d) d)
    {items : List (DataType × Bool)} (h : arrowTypesOf options ts = .ok items)
    (hfits : fitsBuilders options inMap ts = true) (i : Nat) :
    ∃ bs, TypedBuilder.tryNews (hintsOf inMap ts (tupleFields i items)) (tupleFields i items) =
        .ok bs ∧
      ServesEach (hintsOf inMap ts (tupleFields i items)) bs (tupleFields i items) := by
  induction ts generalizing items i with
  | nil =>
      cases h
      exact ⟨[], rfl, rfl, rfl⟩
  | cons t ts ihts =>
      obtain ⟨item, rest, hitem, hrest, rfl⟩ := arrowTypesOf_cons h
      rw [fitsBuilders, Bool.and_eq_true] at hfits
      obtain ⟨b, hb, hserves⟩ := ih t List.mem_cons_self item.1 item.2 hitem hfits.1
      obtain ⟨bs, hbs, hservesEach⟩ :=
        ihts (fun u hu => ih u (List.mem_cons_of_mem t hu)) hrest hfits.2 (i + 1)
      refine ⟨b :: bs, ?_, b, bs, _, _, rfl, rfl, hserves, hservesEach⟩
      show (TypedBuilder.tryNewOf 1 (hintOf inMap t item.1) item.1 >>= fun b =>
        TypedBuilder.tryNews (hintsOf inMap ts (tupleFields (i + 1) rest))
          (tupleFields (i + 1) rest) >>= fun bs => .ok (b :: bs)) = _
      rw [hb 0, hbs]
      rfl

theorem length_hintsOf (inMap : Bool) {ts : List ChType} {fields : List Field}
    (h : ts.length = fields.length) : (hintsOf inMap ts fields).length = fields.length := by
  induction ts generalizing fields with
  | nil => exact h
  | cons t ts ih =>
      cases fields with
      | nil => cases h
      | cons f fs => rw [hintsOf, List.length_cons, ih (by simpa using h), List.length_cons]

theorem HasBuilder.tuple {hints : List ChType} {fields : List Field} {bs : List TypedBuilder}
    (hlength : hints.length = fields.length) (hbs : TypedBuilder.tryNews hints fields = .ok bs)
    (h : ServesEach hints bs fields) : HasBuilder (.tuple hints) (.struct fields) := by
  refine ⟨.tuple bs, fun s => ?_, bs, fields, rfl, rfl, h⟩
  rw [TypedBuilder.tryNewOf, if_neg (not_not.mpr hlength), hbs]
  rfl

/-- The leaves: the table of builders and the announcement have the same entries. -/
theorem hasBuilder_leaf {t : ChType} (hflat : t.isComposite = false)
    (h : arrowTypeOf options isNull t = .ok (d, n))
    (hfits : fitsBuilder options inMap t = true) : HasBuilder (hintOf inMap t d) d := by
  have hself (hsame : coerces options t = false) : hintOf inMap t d = t :=
    hintOf_eq_self h (by rw [coerced, hsame, Bool.and_false])
  cases t with
  | nullable | lowCardinality | array | tuple | map => cases hflat
  | point | ring | polygon | multiPolygon => cases hfits
  | string =>
      cases h
      rw [fitsBuilder] at hfits
      -- Announced as bytes, a string has a builder outside of a map only.
      cases hstrings : wantsStrings options with
      | true => cases inMap <;> exact hasBuilder_of_flat (b := .string) rfl rfl
      | false =>
          cases inMap with
          | true => simp [hstrings] at hfits
          | false => exact hasBuilder_of_flat (b := .binary) rfl rfl
  | fixedSizedString len =>
      cases h
      have hwidth : 0 ≤ (i32OfUsize len).toInt := of_decide_eq_true hfits
      cases inMap with
      | true =>
          exact hasBuilder_of_flat (fixedSizeBinaryBuilder_eq_ok.mpr ⟨hwidth, rfl⟩) rfl
      | false =>
          refine hasBuilder_of_flat (b := .fixedSizeBinary (i32OfUsize len)) ?_ rfl
          show fixedSizeBinaryBuilder (i32OfUsize (usizeOfInt (i32OfUsize len).toInt)) = _
          rw [i32OfUsize_usizeOfInt]
          exact fixedSizeBinaryBuilder_eq_ok.mpr ⟨hwidth, rfl⟩
  | fixedSizedBinary len =>
      cases h
      rw [hself rfl]
      exact hasBuilder_of_flat
        (fixedSizeBinaryBuilder_eq_ok.mpr ⟨of_decide_eq_true hfits, rfl⟩) rfl
  | decimal32 s | decimal64 s | decimal128 s | decimal256 s =>
      cases h
      rw [hself rfl]
      have hscale : (i8OfUsize s).toInt ≤ _ := of_decide_eq_true hfits
      exact hasBuilder_of_flat
        (Outcome.map_eq_ok.mpr ⟨_, checkScale_eq_ok (by decide) hscale, rfl⟩) rfl
  | dateTime64 p tz =>
      rw [hself rfl]
      rw [arrowTypeOf] at h
      -- The mapping and the table of builders cut the precisions at the same places.
      split_ifs at h with h0 h3 h6 h9
      · cases h
        exact hasBuilder_of_flat (by rw [typedBuild, if_pos h0]) rfl
      · cases h
        exact hasBuilder_of_flat (by rw [typedBuild, if_neg h0, if_pos h3]) rfl
      · cases h
        exact hasBuilder_of_flat (by rw [typedBuild, if_neg h0, if_neg h3, if_pos h6]) rfl
      · cases h
        exact hasBuilder_of_flat
          (by rw [typedBuild, if_neg h0, if_neg h3, if_neg h6, if_pos h9]) rfl
      · cases h
  | ipv4 | ipv6 | uuid | int128 | uint128 | int256 | uint256 =>
      cases h
      rw [hself rfl]
      exact hasBuilder_of_flat (fixedSizeBinaryBuilder_eq_ok.mpr ⟨by decide, rfl⟩) rfl
  | _ =>
      cases h
      rw [hself rfl]
      exact hasBuilder_of_flat rfl rfl

/-- A type that is announced and fits has a builder for what is announced. -/
theorem hasBuilder_hintOf {t : ChType} (h : arrowTypeOf options isNull t = .ok (d, n))
    (hfits : fitsBuilder options inMap t = true) : HasBuilder (hintOf inMap t d) d := by
  induction t using ChType.inductionOn generalizing isNull inMap d n with
  | hleaf t hflat =>
      exact hasBuilder_leaf hflat h hfits
  | hnullable inner ih =>
      obtain ⟨rfl, hinner⟩ := arrowTypeOf_nullable h
      have hbuilder : HasBuilder (hintOf inMap inner d) d := ih hinner hfits
      rw [hintOf_nullable hinner]
      split_ifs
      · exact hbuilder.intoNullable
      · exact hbuilder.nullable (head_hintOf hinner (isNullable_of_arrowTypeOf hinner) inMap).1
  | hlowCardinality inner _ ih =>
      obtain ⟨value, hvalue, rfl, -⟩ := arrowTypeOf_lowCardinality h
      rw [hintOf_lowCardinality]
      exact (ih hvalue hfits).lowCardinality
  | harray inner ih =>
      obtain ⟨item, hitem, rfl, -⟩ := arrowTypeOf_array h
      rw [fitsBuilder, Bool.and_eq_true] at hfits
      rw [hintOf_array]
      exact (ih hitem hfits.1).array ((itemAgrees_iff hitem).mp hfits.2)
  | htuple items ih =>
      obtain ⟨fields, hfields, rfl, -⟩ := arrowTypeOf_tuple h
      have hlength := length_of_arrowTypesOf hfields 0
      obtain ⟨bs, hbs, hserves⟩ := hasBuilders (fun t ht d n => ih t ht) hfields hfits 0
      rw [hintOf_tuple inMap hlength]
      exact HasBuilder.tuple (length_hintsOf inMap hlength) hbs hserves
  | hmap key value ihkey ihvalue =>
      obtain ⟨k, v, hk, hv, rfl, -⟩ := arrowTypeOf_map h
      rw [fitsBuilder, Bool.and_eq_true] at hfits
      rw [hintOf_map]
      exact (ihkey hk hfits.1).map (ihvalue hv hfits.2)

end Builders

end Arrow

end ClickhouseArrow
