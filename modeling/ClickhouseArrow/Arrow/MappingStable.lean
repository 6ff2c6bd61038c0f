import ClickhouseArrow.Arrow.TypeHint
import ClickhouseArrow.Native.Entries

/-!
# The mapping of schemas is stable

`ch_to_arrow_type` and `arrow_to_ch_type` are not inverse: integers of 128 bits come back as
binary strings, dates in the form the options ask for, and times with the precision of their
unit.  But what comes back is announced as the same data type again, at any depth, so that a
schema does not change when it goes through the mapping a second time.
-/

namespace ClickhouseArrow

open Wire

namespace ChType

/-- The condition holds of the type and of every type in it. -/
def EveryPart (P : ChType → Prop) : ChType → Prop
  | .nullable inner => P (.nullable inner) ∧ inner.EveryPart P
  | .lowCardinality inner => P (.lowCardinality inner) ∧ inner.EveryPart P
  | .array inner => P (.array inner) ∧ inner.EveryPart P
  | .tuple items => P (.tuple items) ∧ everyParts P items
  | .map key value => P (.map key value) ∧ key.EveryPart P ∧ value.EveryPart P
  | t => P t
where
  everyParts (P : ChType → Prop) : List ChType → Prop
    | [] => True
    | t :: ts => t.EveryPart P ∧ everyParts P ts

theorem everyParts_iff {P : ChType → Prop} {items : List ChType} :
    EveryPart.everyParts P items ↔ ∀ t ∈ items, t.EveryPart P := by
  induction items with
  | nil => simp [EveryPart.everyParts]
  | cons t ts ih => rw [EveryPart.everyParts, ih, List.forall_mem_cons]

theorem EveryPart.self {P : ChType → Prop} {t : ChType} (h : t.EveryPart P) : P t := by
  cases t with
  | nullable | lowCardinality | array | tuple | map => exact h.1
  | _ => exact h

/-- Neither an enum nor a JSON object. -/
def IsPlain : ChType → Prop
  | .enum8 _ | .enum16 _ | .object => False
  | _ => True

/-- The zone of a time is found again by its name. -/
def ZoneKnown (lex : Lexicon) : ChType → Prop
  | .dateTime tz | .dateTime64 _ tz => lex.timezone tz.name.toList = some tz
  | _ => True

end ChType

namespace Arrow

open ChType

variable {lex : Lexicon} {options : Option ArrowOptions} {d : DataType} {n : Bool}

/-- What comes back from the data type is announced as it again. -/
def Stable (lex : Lexicon) (options : Option ArrowOptions) (d : DataType) (n : Bool) : Prop :=
  ∀ t, arrowToChType lex options d n = .ok t → ∀ r, chToArrowType t options = .ok r → r = (d, n)

/-! ## Types without parts -/

-- The equations of the two mappings are made here, once, and not in each proof below.
attribute [local simp] arrowToChType arrowTypeOf

theorem withNullability_eq {t : ChType} (h : t.isComposite = false) (b : Bool) :
    withNullability b t = if b then .nullable t else t := by
  cases t <;> first | rfl | cases h

theorem chToArrowType_withNullability {t : ChType} (h : t.isComposite = false) (b : Bool) :
    chToArrowType (withNullability b t) options = arrowTypeOf options b t := by
  rw [withNullability_eq h]
  cases b <;> rfl

/-- The data type comes back as a type without parts, nullable or not, and that type is
announced as it. -/
structure NamedBy (lex : Lexicon) (options : Option ArrowOptions) (d : DataType) (t : ChType) :
    Prop where
  back : ∀ b, arrowToChType lex options d b = .ok (withNullability b t)
  flat : t.isComposite = false
  forth : ∀ b, arrowTypeOf options b t = .ok (d, b)

theorem NamedBy.stable {t : ChType} (h : NamedBy lex options d t) (b : Bool) :
    Stable lex options d b := by
  intro u hback r hforth
  rw [h.back] at hback
  obtain rfl := Except.ok.inj hback
  rw [chToArrowType_withNullability h.flat, h.forth] at hforth
  exact (Except.ok.inj hforth).symm

theorem i8OfUsize_usizeOfInt (x : Int8) : i8OfUsize (usizeOfInt x.toInt) = x := by
  have hlo := Int8.le_toInt x
  have hhi := Int8.toInt_lt x
  rw [← Int8.toInt_inj, i8OfUsize, Int8.toInt_ofNat', Int8.size]
  exact bmod_usizeOfInt (by decide) (by omega) (by omega)

theorem timestampZone_name {tz : Tz} (h : lex.timezone tz.name.toList = some tz) :
    timestampZone lex (some tz.name) = tz := by
  rw [timestampZone, Option.getD_some, h, Option.getD_some]

theorem namedBy_fixed (x : Int32) :
    NamedBy lex options (.fixedSizeBinary x) (.fixedSizedBinary (usizeOfInt x.toInt)) where
  back := fun _ => rfl
  flat := rfl
  forth := fun b => by rw [arrowTypeOf, i32OfUsize_usizeOfInt]

theorem namedBy_dateTime {tz : Tz} (h : lex.timezone tz.name.toList = some tz) :
    NamedBy lex options (.primitive (.timestamp .second (some tz.name))) (.dateTime tz) where
  back := fun b => by
    rw [arrowToChType, primitiveChType, timestampZone_name h]
    rfl
  flat := rfl
  forth := fun _ => rfl

/-- A type without parts, other than an enum or an object, has a data type that comes back. -/
theorem exists_namedBy {t : ChType} (hflat : t.isComposite = false) (hgeo : t.isGeo = false)
    (hplain : t.IsPlain) (hzone : t.ZoneKnown lex) {isNull : Bool}
    (h : arrowTypeOf options isNull t = .ok (d, n)) : (∃ u, NamedBy lex options d u) ∧ n = isNull := by
  cases t with
  | nullable | lowCardinality | array | tuple | map => cases hflat
  | point | ring | polygon | multiPolygon => cases hgeo
  | enum8 | enum16 | object => exact hplain.elim
  | int8 =>
      obtain ⟨rfl, rfl⟩ := Prod.mk.inj (Except.ok.inj h)
      exact ⟨⟨.int8, fun _ => rfl, rfl, fun _ => rfl⟩, rfl⟩
  | int16 =>
      obtain ⟨rfl, rfl⟩ := Prod.mk.inj (Except.ok.inj h)
      exact ⟨⟨.int16, fun _ => rfl, rfl, fun _ => rfl⟩, rfl⟩
  | int32 =>
      obtain ⟨rfl, rfl⟩ := Prod.mk.inj (Except.ok.inj h)
      exact ⟨⟨.int32, fun _ => rfl, rfl, fun _ => rfl⟩, rfl⟩
  | int64 =>
      obtain ⟨rfl, rfl⟩ := Prod.mk.inj (Except.ok.inj h)
      exact ⟨⟨.int64, fun _ => rfl, rfl, fun _ => rfl⟩, rfl⟩
  | uint8 =>
      obtain ⟨rfl, rfl⟩ := Prod.mk.inj (Except.ok.inj h)
      exact ⟨⟨.uint8, fun _ => rfl, rfl, fun _ => rfl⟩, rfl⟩
  | uint16 =>
      obtain ⟨rfl, rfl⟩ := Prod.mk.inj (Except.ok.inj h)
      exact ⟨⟨.uint16, fun _ => rfl, rfl, fun _ => rfl⟩, rfl⟩
  | uint32 =>
      obtain ⟨rfl, rfl⟩ := Prod.mk.inj (Except.ok.inj h)
      exact ⟨⟨.uint32, fun _ => rfl, rfl, fun _ => rfl⟩, rfl⟩
  | uint64 =>
      obtain ⟨rfl, rfl⟩ := Prod.mk.inj (Except.ok.inj h)
      exact ⟨⟨.uint64, fun _ => rfl, rfl, fun _ => rfl⟩, rfl⟩
  | float32 =>
      obtain ⟨rfl, rfl⟩ := Prod.mk.inj (Except.ok.inj h)
      exact ⟨⟨.float32, fun _ => rfl, rfl, fun _ => rfl⟩, rfl⟩
  | float64 =>
      obtain ⟨rfl, rfl⟩ := Prod.mk.inj (Except.ok.inj h)
      exact ⟨⟨.float64, fun _ => rfl, rfl, fun _ => rfl⟩, rfl⟩
  | int128 | uint128 | ipv6 | uuid | int256 | uint256 | ipv4 | fixedSizedString | fixedSizedBinary =>
      obtain ⟨rfl, rfl⟩ := Prod.mk.inj (Except.ok.inj h)
      exact ⟨⟨_, namedBy_fixed _⟩, rfl⟩
  | decimal32 s =>
      obtain ⟨rfl, rfl⟩ := Prod.mk.inj (Except.ok.inj h)
      refine ⟨⟨.decimal32 (usizeOfInt (i8OfUsize s).toInt), fun _ => rfl, rfl, fun b => ?_⟩, rfl⟩
      rw [arrowTypeOf, i8OfUsize_usizeOfInt]
  | decimal64 s =>
      obtain ⟨rfl, rfl⟩ := Prod.mk.inj (Except.ok.inj h)
      refine ⟨⟨.decimal64 (usizeOfInt (i8OfUsize s).toInt), fun _ => rfl, rfl, fun b => ?_⟩, rfl⟩
      rw [arrowTypeOf, i8OfUsize_usizeOfInt]
  | decimal128 s =>
      obtain ⟨rfl, rfl⟩ := Prod.mk.inj (Except.ok.inj h)
      refine ⟨⟨.decimal128 (usizeOfInt (i8OfUsize s).toInt), fun _ => rfl, rfl, fun b => ?_⟩, rfl⟩
      rw [arrowTypeOf, i8OfUsize_usizeOfInt]
  | decimal256 s =>
      obtain ⟨rfl, rfl⟩ := Prod.mk.inj (Except.ok.inj h)
      refine ⟨⟨.decimal256 (usizeOfInt (i8OfUsize s).toInt), fun _ => rfl, rfl, fun b => ?_⟩, rfl⟩
      rw [arrowTypeOf, i8OfUsize_usizeOfInt]
  | string =>
      obtain ⟨rfl, rfl⟩ := Prod.mk.inj (Except.ok.inj h)
      cases hwants : wantsStrings options with
      | true =>
          refine ⟨⟨.string, fun _ => rfl, rfl, fun b => ?_⟩, rfl⟩
          rw [arrowTypeOf, hwants]
      | false => exact ⟨⟨.binary, fun _ => rfl, rfl, fun b => rfl⟩, rfl⟩
  | binary =>
      obtain ⟨rfl, rfl⟩ := Prod.mk.inj (Except.ok.inj h)
      exact ⟨⟨.binary, fun _ => rfl, rfl, fun _ => rfl⟩, rfl⟩
  | date | date32 =>
      obtain ⟨rfl, rfl⟩ := Prod.mk.inj (Except.ok.inj h)
      refine ⟨⟨if options.any fun o => o.useDate32ForDate then .date32 else .date,
        fun _ => rfl, ?_, fun b => ?_⟩, rfl⟩
      · split_ifs <;> rfl
      · split_ifs <;> rfl
  | dateTime tz =>
      obtain ⟨rfl, rfl⟩ := Prod.mk.inj (Except.ok.inj h)
      exact ⟨⟨.dateTime tz, namedBy_dateTime hzone⟩, rfl⟩
  | dateTime64 p tz =>
      have hback := timestampZone_name hzone
      rw [arrowTypeOf] at h
      split_ifs at h
      -- Each unit comes back with its own precision.
      · obtain ⟨rfl, rfl⟩ := Prod.mk.inj (Except.ok.inj h)
        exact ⟨⟨.dateTime tz, namedBy_dateTime hzone⟩, rfl⟩
      · obtain ⟨rfl, rfl⟩ := Prod.mk.inj (Except.ok.inj h)
        refine ⟨⟨.dateTime64 3 tz, fun b => ?_, rfl, fun _ => rfl⟩, rfl⟩
        rw [arrowToChType, primitiveChType, hback]
        rfl
      · obtain ⟨rfl, rfl⟩ := Prod.mk.inj (Except.ok.inj h)
        refine ⟨⟨.dateTime64 6 tz, fun b => ?_, rfl, fun _ => rfl⟩, rfl⟩
        rw [arrowToChType, primitiveChType, hback]
        rfl
      · obtain ⟨rfl, rfl⟩ := Prod.mk.inj (Except.ok.inj h)
        refine ⟨⟨.dateTime64 9 tz, fun b => ?_, rfl, fun _ => rfl⟩, rfl⟩
        rw [arrowToChType, primitiveChType, hback]
        rfl
      · cases h

/-! ## Types with parts -/

theorem Stable.list {item : DataType × Bool} (h : Stable lex options item.1 item.2) :
    Stable lex options (listOf item) false := by
  intro t hback r hforth
  rw [listOf, arrowToChType, Bool.false_and, if_neg Bool.false_ne_true] at hback
  obtain ⟨inner, hinner, hback⟩ := Outcome.bind_eq_ok.mp hback
  obtain rfl := Except.ok.inj hback
  obtain ⟨item', hitem, hd, hn⟩ := arrowTypeOf_array hforth
  obtain rfl := h inner hinner item' hitem
  exact Prod.ext hd hn

theorem stable_fields {items : List (DataType × Bool)}
    (h : ∀ item ∈ items, Stable lex options item.1 item.2) (i : Nat) {types : List ChType}
    (hback : arrowFieldsToChTypes lex options (tupleFields i items) = .ok types)
    {items' : List (DataType × Bool)} (hforth : arrowTypesOf options types = .ok items') :
    items' = items := by
  induction items generalizing i types items' with
  | nil =>
      obtain rfl := Except.ok.inj hback
      exact (Except.ok.inj hforth).symm
  | cons item items ih =>
      rw [tupleFields, arrowFieldsToChTypes] at hback
      obtain ⟨t, ht, hback⟩ := Outcome.bind_eq_ok.mp hback
      obtain ⟨ts, hts, hback⟩ := Outcome.bind_eq_ok.mp hback
      obtain rfl := Except.ok.inj hback
      obtain ⟨item', rest', hitem, hrest, rfl⟩ := arrowTypesOf_cons hforth
      rw [h item List.mem_cons_self t ht item' hitem,
        ih (fun other hother => h other (List.mem_cons_of_mem item hother)) (i + 1) hts hrest]

theorem Stable.struct {items : List (DataType × Bool)}
    (h : ∀ item ∈ items, Stable lex options item.1 item.2) :
    Stable lex options (.struct (tupleFields 0 items)) false := by
  intro t hback r hforth
  rw [arrowToChType] at hback
  obtain ⟨types, htypes, hback⟩ := Outcome.bind_eq_ok.mp hback
  obtain rfl := Except.ok.inj hback
  obtain ⟨items', hitems, hd, hn⟩ := arrowTypeOf_tuple hforth
  rw [stable_fields h 0 htypes hitems] at hd
  exact Prod.ext hd hn

theorem Stable.map {key value : DataType × Bool} (hkey : Stable lex options key.1 false)
    (hvalue : Stable lex options value.1 value.2) :
    Stable lex options (mapOf key.1 value) false := by
  intro t hback r hforth
  rw [mapOf, arrowToChType] at hback
  obtain ⟨keyType, hkeyType, hback⟩ := Outcome.bind_eq_ok.mp hback
  obtain ⟨valueType, hvalueType, hback⟩ := Outcome.bind_eq_ok.mp hback
  obtain rfl := Except.ok.inj hback
  obtain ⟨k, v, hk, hv, hd, hn⟩ := arrowTypeOf_map hforth
  rw [hkey keyType hkeyType k hk, hvalue valueType hvalueType v hv] at hd
  exact Prod.ext hd hn

/-- The values of a dictionary take its nullability along, and give it back. -/
theorem Stable.dictionary {u : ChType} (h : NamedBy lex options d u) (b : Bool) :
    Stable lex options (.dictionary (.primitive .int32) d) b := by
  intro t hback r hforth
  rw [arrowToChType] at hback
  split_ifs at hback
  · cases hback
  · rw [h.back, Outcome.ok_bind] at hback
    obtain rfl := Except.ok.inj hback
    obtain ⟨value, hvalue, hd, hn⟩ := arrowTypeOf_lowCardinality hforth
    have hvalue' := (chToArrowType_withNullability h.flat b).symm.trans hvalue
    rw [h.forth] at hvalue'
    obtain rfl := Except.ok.inj hvalue'
    refine Prod.ext hd (hn.trans ?_)
    rw [withNullability_eq h.flat]
    cases b with
    | true => rfl
    | false =>
        cases u <;> first | rfl | exact absurd h.flat (by simp [isComposite])

theorem stable_point : Stable lex options pointOf false := by
  refine Stable.struct fun item hitem => ?_
  have hfloat : NamedBy lex options (.primitive .float64) .float64 := ⟨fun _ => rfl, rfl, fun _ => rfl⟩
  simp only [List.mem_cons, List.not_mem_nil, or_false, or_self] at hitem
  rw [hitem]
  exact hfloat.stable false

/-- A geo type is the alias that it is announced as. -/
theorem stable_geo {t : ChType} (hgeo : t.isGeo = true) {isNull : Bool}
    (h : arrowTypeOf options isNull t = .ok (d, n)) : Stable lex options d n := by
  cases isNull with
  | true => cases t <;> first | exact absurd hgeo Bool.false_ne_true | cases h
  | false =>
      cases t with
      | point =>
          obtain ⟨rfl, rfl⟩ := Prod.mk.inj (Except.ok.inj h)
          exact stable_point
      | ring =>
          obtain ⟨rfl, rfl⟩ := Prod.mk.inj (Except.ok.inj h)
          exact stable_point.list
      | polygon =>
          obtain ⟨rfl, rfl⟩ := Prod.mk.inj (Except.ok.inj h)
          exact stable_point.list.list
      | multiPolygon =>
          obtain ⟨rfl, rfl⟩ := Prod.mk.inj (Except.ok.inj h)
          exact stable_point.list.list.list
      | _ => cases hgeo

/-! ## Every accepted type -/

/-- A dictionary, nullable or not: its values have no parts. -/
theorem stable_lowCardinality {inner : ChType} (hvalid : (lowCardinality inner).validate = .ok ())
    (hplain : (lowCardinality inner).EveryPart IsPlain)
    (hzones : (lowCardinality inner).EveryPart (ZoneKnown lex)) {isNull : Bool}
    (h : arrowTypeOf options isNull (.lowCardinality inner) = .ok (d, n)) (b : Bool) :
    Stable lex options d b := by
  obtain ⟨value, hvalue, rfl, -⟩ := arrowTypeOf_lowCardinality h
  have hinner := (validate_lowCardinality hvalid).1
  obtain ⟨isNull', hvalue'⟩ : ∃ isNull', arrowTypeOf options isNull' inner.stripNull = .ok value := by
    cases inner with
    | nullable x => exact ⟨true, (arrowTypeOf_nullable hvalue).2⟩
    | _ => exact ⟨false, hvalue⟩
  have hpart : ∀ P : ChType → Prop, (lowCardinality inner).EveryPart P → P inner.stripNull := by
    intro P hP
    cases inner with
    | nullable x => exact hP.2.2.self
    | _ => exact hP.2.self
  have hflat : inner.stripNull.isComposite = false ∧ inner.stripNull.isGeo = false := by
    revert hinner
    cases inner.stripNull <;> simp [isLowCardinalityInner, isComposite, isGeo]
  obtain ⟨⟨u, hu⟩, -⟩ :=
    exists_namedBy hflat.1 hflat.2 (hpart _ hplain) (hpart _ hzones) hvalue'
  exact Stable.dictionary hu b

/-- A key of a map is announced without its nullability. -/
theorem stable_key {key : ChType} (hkey : key.isMapKey = true) (hvalid : key.validate = .ok ())
    (hplain : key.EveryPart IsPlain) (hzones : key.EveryPart (ZoneKnown lex)) {isNull : Bool}
    (h : arrowTypeOf options isNull key = .ok (d, n)) : Stable lex options d false := by
  by_cases hdictionary : ∃ inner, key = .lowCardinality inner
  · obtain ⟨inner, rfl⟩ := hdictionary
    exact stable_lowCardinality hvalid hplain hzones h false
  · have hflat : key.isComposite = false ∧ key.isGeo = false := by
      cases key <;> first | exact ⟨rfl, rfl⟩ | exact absurd ⟨_, rfl⟩ hdictionary | cases hkey
    obtain ⟨⟨u, hu⟩, -⟩ := exists_namedBy hflat.1 hflat.2 hplain.self hzones.self h
    exact hu.stable false

theorem stable_of_validate {t : ChType} (hvalid : t.validate = .ok ())
    (hplain : t.EveryPart IsPlain) (hzones : t.EveryPart (ZoneKnown lex)) {isNull : Bool}
    (hnull : isNull = true → t.isComposite = false)
    (h : arrowTypeOf options isNull t = .ok (d, n)) : Stable lex options d n := by
  induction t using inductionOn generalizing isNull d n with
  | hleaf t hflat =>
      -- A geo type has a data type of its own, every other leaf one that its name leads back to.
      cases hgeo : t.isGeo with
      | true => exact stable_geo hgeo h
      | false =>
          obtain ⟨⟨u, hu⟩, -⟩ := exists_namedBy hflat hgeo hplain.self hzones.self h
          exact hu.stable n
  | hnullable inner ih =>
      obtain ⟨hflat, hinner⟩ := validate_nullable hvalid
      exact ih hinner hplain.2 hzones.2 (fun _ => hflat) (arrowTypeOf_nullable h).2
  | hlowCardinality inner _ _ => exact stable_lowCardinality hvalid hplain hzones h n
  | harray inner ih =>
      obtain ⟨item, hitem, rfl, rfl⟩ := arrowTypeOf_array h
      have hinner := ih (validate_array hvalid) hplain.2 hzones.2 (fun h => by cases h) hitem
      cases n with
      | true => exact absurd (hnull rfl).symm Bool.false_ne_true
      | false => exact hinner.list
  | htuple items ih =>
      obtain ⟨parts, hparts, rfl, rfl⟩ := arrowTypeOf_tuple h
      replace hvalid := validate_tuple hvalid
      replace hplain := everyParts_iff.mp hplain.2
      replace hzones := everyParts_iff.mp hzones.2
      -- Each field is announced by its own type, whatever stands around it.
      have hstable : ∀ part ∈ parts, Stable lex options part.1 part.2 := by
        clear h hnull
        induction items generalizing parts with
        | nil =>
            obtain rfl := Except.ok.inj hparts
            intro part hpart
            cases hpart
        | cons t ts ihs =>
            obtain ⟨part, rest, hpart, hrest, rfl⟩ := arrowTypesOf_cons hparts
            rw [List.forall_mem_cons] at hvalid hplain hzones
            rw [List.forall_mem_cons]
            exact ⟨ih t List.mem_cons_self hvalid.1 hplain.1 hzones.1 (fun h => by cases h) hpart,
              ihs (fun u hu => ih u (List.mem_cons_of_mem t hu)) rest hrest hvalid.2 hplain.2
                hzones.2⟩
      cases n with
      | true => exact absurd (hnull rfl).symm Bool.false_ne_true
      | false => exact Stable.struct hstable
  | hmap key value _ ih =>
      obtain ⟨k, v, hk, hv, rfl, rfl⟩ := arrowTypeOf_map h
      obtain ⟨hkeyType, hvalueType⟩ := validate_map hvalid
      have hkey : key.isMapKey = true := by
        rw [validate] at hvalid
        split_ifs at hvalid with hkey
        · exact hkey
        · cases hvalid
      have hstableKey := stable_key hkey hkeyType hplain.2.1 hzones.2.1 hk
      have hstableValue := ih hvalueType hplain.2.2 hzones.2.2 (fun h => by cases h) hv
      cases n with
      | true => exact absurd (hnull rfl).symm Bool.false_ne_true
      | false => exact Stable.map hstableKey hstableValue

/-- **One pass through the mapping is a fixed point.** -/
theorem chToArrowType_stable (lex : Lexicon) (options : Option ArrowOptions) {t back : ChType}
    {first second : DataType × Bool} (hvalid : t.validate = .ok ())
    (hplain : t.EveryPart IsPlain) (hzones : t.EveryPart (ZoneKnown lex))
    (hfirst : chToArrowType t options = .ok first)
    (hback : arrowToChType lex options first.1 first.2 = .ok back)
    (hsecond : chToArrowType back options = .ok second) : second = first :=
  stable_of_validate hvalid hplain hzones (fun h => by cases h) hfirst back hback second hsecond

/-- Times of a hundredth come back as times of a thousandth, and numbers of 128 bits and texts
as bytes. -/
theorem chToArrowType_stable_sample :
    chToArrowType (.map (.lowCardinality .binary)
        (.tuple [.array (.nullable (.dateTime64 3 ⟨"UTC"⟩)), .fixedSizedBinary 16])) none =
      chToArrowType (.map (.lowCardinality (.nullable .string))
        (.tuple [.array (.nullable (.dateTime64 2 ⟨"UTC"⟩)), .uint128])) none := by
  let t : ChType := .map (.lowCardinality (.nullable .string))
    (.tuple [.array (.nullable (.dateTime64 2 ⟨"UTC"⟩)), .uint128])
  let back : ChType := .map (.lowCardinality .binary)
    (.tuple [.array (.nullable (.dateTime64 3 ⟨"UTC"⟩)), .fixedSizedBinary 16])
  have hplain : t.EveryPart IsPlain :=
    ⟨trivial, ⟨trivial, trivial, trivial⟩, trivial, ⟨trivial, trivial, trivial⟩, trivial, trivial⟩
  have hzones : t.EveryPart (ZoneKnown .ascii) :=
    ⟨trivial, ⟨trivial, trivial, trivial⟩, trivial, ⟨trivial, trivial, rfl⟩, trivial, trivial⟩
  have hfirst : chToArrowType t none = .ok _ := rfl
  exact congrArg Except.ok
    (@chToArrowType_stable .ascii none t back _ _ rfl hplain hzones hfirst rfl rfl)

end Arrow

end ClickhouseArrow
