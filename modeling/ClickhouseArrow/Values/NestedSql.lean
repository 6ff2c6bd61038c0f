import ClickhouseArrow.Arrow.TypeMap
import ClickhouseArrow.Native.BlockRoundTrip
import ClickhouseArrow.Native.Validate
import ClickhouseArrow.Wire.Maps

/-!
# Conversions of nested values

`ToSql` and `FromSql` for the standard types: integers, strings, UUIDs, dates, and vectors,
options, fixed-size arrays, maps and tuples of convertible types.  The implementations of a Rust
type are a value of `SqlType`, those of a container a function of those of its elements.

`Corresponds` relates a Rust type to a column type without dictionaries.  For related types every
value is converted to a value that the column type accepts, and back to itself.
-/

namespace ClickhouseArrow

open Wire

/-! ## The hints -/

namespace ChType

/-- `unarray`. -/
def unarray : ChType → Option ChType
  | .array x => some x
  | _ => none

/-- `unmap`. -/
def unmap : ChType → Option (ChType × ChType)
  | .map key value => some (key, value)
  | _ => none

/-- `untuple`. -/
def untuple : ChType → Option (List ChType)
  | .tuple x => some x
  | _ => none

/-- `unnull`. -/
def unnull : ChType → Option ChType
  | .nullable x => some x
  | _ => none

/-- The types of a text: `String` and `FixedString`. -/
def isText : ChType → Bool
  | .string | .fixedSizedString _ => true
  | _ => false

end ChType

/-- `unexpected_type`. -/
def unexpectedType {α : Type} (t : ChType) : Result α :=
  .fail (.deserializeError [.text "unexpected type: ", .type t])

/-! ## The implementations -/

/-- The casts between a vector of a type of one byte and a vector of bytes. -/
structure OneByte (α : Type) where
  toByte : α → UInt8
  ofByte : UInt8 → α

/-- The implementations of `ToSql` and `FromSql` of a type; `oneByte` is there when the type is
`u8` or `i8`. -/
structure SqlType (α : Type) where
  toSql : α → Option ChType → Result Value
  fromSql : ChType → Value → Result α
  oneByte : Option (OneByte α)

namespace SqlType

variable {α κ ν : Type}

/-! ### Scalars -/

/-- A type that has variants of `Type` and of `Value` of its own.  `mismatch` is what happens
when the type fits and the value does not. -/
def scalar (isType : ChType → Bool) (wrap : α → Value) (unwrap : Value → Option α)
    (mismatch : ChType → Result α) : SqlType α where
  toSql x _ := .ok (wrap x)
  fromSql t value :=
    if isType t then
      match unwrap value with
      | some x => .ok x
      | none => mismatch t
    else unexpectedType t
  oneByte := none

def u8 : SqlType UInt8 :=
  { scalar (fun | .uint8 => true | _ => false) .uint8 (fun | .uint8 x => some x | _ => none)
      unexpectedType with
    oneByte := some ⟨id, id⟩ }

def bool : SqlType Bool :=
  scalar (fun | .uint8 => true | _ => false) (fun x => .uint8 (if x then 1 else 0))
    (fun | .uint8 x => some (x != 0) | _ => none) unexpectedType

def u16 : SqlType UInt16 :=
  scalar (fun | .uint16 => true | _ => false) .uint16 (fun | .uint16 x => some x | _ => none)
    unexpectedType

def u32 : SqlType UInt32 :=
  scalar (fun | .uint32 => true | _ => false) .uint32 (fun | .uint32 x => some x | _ => none)
    unexpectedType

def u64 : SqlType UInt64 :=
  scalar (fun | .uint64 => true | _ => false) .uint64 (fun | .uint64 x => some x | _ => none)
    unexpectedType

def u128 : SqlType (BitVec 128) :=
  scalar (fun | .uint128 => true | _ => false) .uint128 (fun | .uint128 x => some x | _ => none)
    unexpectedType

def i8 : SqlType Int8 :=
  { scalar (fun | .int8 => true | _ => false) .int8 (fun | .int8 x => some x | _ => none)
      unexpectedType with
    oneByte := some ⟨Int8.toUInt8, UInt8.toInt8⟩ }

def i16 : SqlType Int16 :=
  scalar (fun | .int16 => true | _ => false) .int16 (fun | .int16 x => some x | _ => none)
    unexpectedType

def i32 : SqlType Int32 :=
  scalar (fun | .int32 => true | _ => false) .int32 (fun | .int32 x => some x | _ => none)
    unexpectedType

def i64 : SqlType Int64 :=
  scalar (fun | .int64 => true | _ => false) .int64 (fun | .int64 x => some x | _ => none)
    unexpectedType

def i128 : SqlType (BitVec 128) :=
  scalar (fun | .int128 => true | _ => false) .int128 (fun | .int128 x => some x | _ => none)
    unexpectedType

/-- A value that is no `Int256` meets `unimplemented!()`. -/
def i256 : SqlType (Octets 32) :=
  scalar (fun | .int256 => true | _ => false) .int256 (fun | .int256 x => some x | _ => none)
    fun _ => .panic .unreachable

/-- A value that is no `UInt256` meets `unimplemented!()`. -/
def u256 : SqlType (Octets 32) :=
  scalar (fun | .uint256 => true | _ => false) .uint256 (fun | .uint256 x => some x | _ => none)
    fun _ => .panic .unreachable

def uuid : SqlType (BitVec 128) :=
  scalar (fun | .uuid => true | _ => false) .uuid (fun | .uuid x => some x | _ => none)
    unexpectedType

def date : SqlType UInt16 :=
  scalar (fun | .date => true | _ => false) .date (fun | .date x => some x | _ => none)
    unexpectedType

def date32 : SqlType Int32 :=
  scalar (fun | .date32 => true | _ => false) .date32 (fun | .date32 x => some x | _ => none)
    fun _ => unexpectedType .date32

def string : SqlType String where
  toSql s _ := .ok (.string (utf8Bytes s))
  fromSql t value :=
    match t with
    | .string | .fixedSizedString _ | .binary | .fixedSizedBinary _ | .object =>
        match value with
        | .string x | .object x => fromUtf8 x
        | _ => unexpectedType t
    | _ => unexpectedType t
  oneByte := none

/-! ### Containers -/

/-- `Vec<T>`.  A hint for an array of texts turns a vector of bytes into one text. -/
def vec (s : SqlType α) : SqlType (List α) where
  toSql xs hint :=
    let hint := hint.bind ChType.unarray
    match s.oneByte, hint.any ChType.isText with
    | some cast, true => .ok (.string (xs.map cast.toByte))
    | _, _ => do
        let items ← Outcome.traverse (s.toSql · hint) xs
        .ok (.array items)
  fromSql t value :=
    match t with
    | .array x =>
        let subtype := x.stripLowCardinality
        match value with
        | .array items => Outcome.traverse (s.fromSql subtype) items
        | .string bytes =>
            match subtype with
            | .uint8 | .int8 =>
                match s.oneByte with
                | some cast => .ok (bytes.map cast.ofByte)
                | none => unexpectedType subtype
            | _ => unexpectedType t
        | _ => unexpectedType t
    | _ => unexpectedType t
  oneByte := none

/-- `Option<T>`. -/
def option (s : SqlType α) : SqlType (Option α) where
  toSql x hint :=
    match x with
    | some x => s.toSql x (hint.bind ChType.unnull)
    | none => .ok .null
  fromSql t value :=
    match t with
    | .nullable x =>
        match value with
        | .null => .ok none
        | value => do
            let x ← s.fromSql x.stripLowCardinality value
            .ok (some x)
    | _ => unexpectedType t
  oneByte := none

/-- `[T; N]`, whose places hold the default of `T` until they are written. -/
def array (n : Nat) (default : α) (s : SqlType α) : SqlType (Fin n → α) where
  toSql xs hint := do
    let items ← Outcome.traverse (s.toSql · (hint.bind ChType.unarray)) (List.ofFn xs)
    .ok (.array items)
  fromSql t value :=
    match t with
    | .array x =>
        match value with
        | .array items =>
            if items.length ≠ n then
              .fail (.deserializeError [.text "invalid length for array: ", .number items.length,
                .text " expected ", .number n])
            else do
              let out ← Outcome.traverse (s.fromSql x.stripLowCardinality) items
              .ok fun i => out.getD i default
        | _ => unexpectedType t
    | _ => unexpectedType t
  oneByte := none

/-- `HashMap<K, V>`, `BTreeMap<K, V>` and `IndexMap<K, V>`. -/
def map (m : MapLike κ ν) (k : SqlType κ) (v : SqlType ν) : SqlType m.Carrier where
  toSql x hint := do
    let hint := hint.bind ChType.unmap
    let pairs ← Outcome.traverse (fun e => do
      let key ← k.toSql e.1 (hint.map Prod.fst)
      let value ← v.toSql e.2 (hint.map Prod.snd)
      .ok (key, value)) (m.iter x)
    .ok (.map pairs.unzip.1 pairs.unzip.2)
  fromSql t value :=
    match t with
    | .map xType yType =>
        match value with
        | .map xs ys =>
            (xs.zip ys).foldlM (fun out e => do
              let key ← k.fromSql xType.stripLowCardinality e.1
              let value ← v.fromSql yType.stripLowCardinality e.2
              .ok (m.insert out key value)) m.empty
        | _ => unexpectedType t
    | _ => unexpectedType t
  oneByte := none

def indexMap [DecidableEq κ] (k : SqlType κ) (v : SqlType ν) : SqlType (IndexMap κ ν) :=
  map indexMaps k v

def bTreeMap [LinearOrder κ] (k : SqlType κ) (v : SqlType ν) : SqlType (BTreeMap κ ν) :=
  map bTreeMaps k v

def hashMap [DecidableEq κ] (order : HashOrder κ ν) (k : SqlType κ) (v : SqlType ν) :
    SqlType (Finmap fun _ : κ => ν) :=
  map (hashMaps order) k v

end SqlType

/-- The components of a tuple, from the first one on. -/
structure TupleSql (α : Type) where
  arity : Nat
  toSql : α → List ChType → Result (List Value)
  fromSql : List ChType → List Value → Result α

namespace TupleSql

variable {α β : Type}

def nil : TupleSql Unit where
  arity := 0
  toSql _ _ := .ok []
  fromSql _ _ := .ok ()

/-- A component takes the hint at its own index, if there is one. -/
def cons (s : SqlType α) (ss : TupleSql β) : TupleSql (α × β) where
  arity := ss.arity + 1
  toSql x hints := do
    let v ← s.toSql x.1 hints.head?
    let vs ← ss.toSql x.2 hints.tail
    .ok (v :: vs)
  fromSql ts vs :=
    match ts, vs with
    | t :: ts, v :: vs => do
        let x ← s.fromSql t.stripLowCardinality v
        let xs ← ss.fromSql ts vs
        .ok (x, xs)
    -- `subtype[$n]` comes before `pop_front().unwrap()`.
    | [], _ => .panic .indexOutOfBounds
    | _ :: _, [] => .panic .unwrapNone

end TupleSql

/-- The error of a tuple that has not as many components as are expected. -/
def tupleLengthError {α : Type} (expected got : Nat) : Result α :=
  .fail (.deserializeError [.text "unexpected type: mismatch tuple length expected ",
    .number expected, .text ", got ", .number got])

/-- `(T0, …, Tn)`. -/
def SqlType.tuple {α : Type} (ss : TupleSql α) : SqlType α where
  toSql x hint := do
    let values ← ss.toSql x ((hint.bind ChType.untuple).getD [])
    .ok (.tuple values)
  fromSql t value :=
    match t with
    | .tuple subtype =>
        match value with
        | .tuple values =>
            if values.length ≠ subtype.length then tupleLengthError subtype.length values.length
            else if values.length ≠ ss.arity then tupleLengthError ss.arity values.length
            else ss.fromSql subtype values
        | _ => unexpectedType t
    | _ => unexpectedType t
  oneByte := none

/-! ## The corresponding column type -/

/-- The column type of a scalar. -/
inductive ScalarOf : {α : Type} → SqlType α → ChType → Prop
  | bool : ScalarOf SqlType.bool .uint8
  | u8 : ScalarOf SqlType.u8 .uint8
  | u16 : ScalarOf SqlType.u16 .uint16
  | u32 : ScalarOf SqlType.u32 .uint32
  | u64 : ScalarOf SqlType.u64 .uint64
  | u128 : ScalarOf SqlType.u128 .uint128
  | u256 : ScalarOf SqlType.u256 .uint256
  | i8 : ScalarOf SqlType.i8 .int8
  | i16 : ScalarOf SqlType.i16 .int16
  | i32 : ScalarOf SqlType.i32 .int32
  | i64 : ScalarOf SqlType.i64 .int64
  | i128 : ScalarOf SqlType.i128 .int128
  | i256 : ScalarOf SqlType.i256 .int256
  | uuid : ScalarOf SqlType.uuid .uuid
  | date : ScalarOf SqlType.date .date
  | date32 : ScalarOf SqlType.date32 .date32
  | string : ScalarOf SqlType.string .string
  | fixedString (n : Nat) : ScalarOf SqlType.string (.fixedSizedString n)

mutual

/-- The column type of a nested Rust type. -/
inductive Corresponds : {α : Type} → SqlType α → ChType → Prop
  | scalar {α : Type} {s : SqlType α} {t : ChType} : ScalarOf s t → Corresponds s t
  | vec {α : Type} {s : SqlType α} {t : ChType} :
      Corresponds s t → Corresponds s.vec (.array t)
  | option {α : Type} {s : SqlType α} {t : ChType} :
      Corresponds s t → Corresponds s.option (.nullable t)
  | array {α : Type} {s : SqlType α} {t : ChType} (n : Nat) (default : α) :
      Corresponds s t → Corresponds (s.array n default) (.array t)
  | map {κ ν : Type} {k : SqlType κ} {v : SqlType ν} {key value : ChType} (m : MapLike κ ν) :
      Corresponds k key → Corresponds v value → Corresponds (k.map m v) (.map key value)
  | tuple {α : Type} {ss : TupleSql α} {ts : List ChType} :
      CorrespondsAll ss ts → Corresponds (.tuple ss) (.tuple ts)

/-- The column types of the components of a tuple. -/
inductive CorrespondsAll : {α : Type} → TupleSql α → List ChType → Prop
  | nil : CorrespondsAll .nil []
  | cons {α β : Type} {s : SqlType α} {ss : TupleSql β} {t : ChType} {ts : List ChType} :
      Corresponds s t → CorrespondsAll ss ts → CorrespondsAll (.cons s ss) (t :: ts)

end

/-! ## The conversions are inverse -/

/-- What the conversions of a type and those of its elements keep: a value becomes a value of
the column type, which is no null unless the type is composite, and is read back. -/
structure Inverts {α : Type} (s : SqlType α) (t : ChType) : Prop where
  strip : t.stripLowCardinality = t
  /-- A vector of texts is no vector of bytes. -/
  oneByte : t.isText = true → s.oneByte = none
  inverse : t.validate = .ok () → ∀ x, ∃ v, s.toSql x (some t) = .ok v ∧
    t.innerValidateValue v = true ∧ (t.isComposite = false → v ≠ .null) ∧ s.fromSql t v = .ok x

/-- The same for the components of a tuple. -/
structure InvertsAll {α : Type} (ss : TupleSql α) (ts : List ChType) : Prop where
  arity : ss.arity = ts.length
  inverse : (∀ t ∈ ts, t.validate = .ok ()) → ∀ x, ∃ vs, ss.toSql x ts = .ok vs ∧
    vs.length = ts.length ∧ ChType.innerValidateValue.validateZip ts vs = true ∧
    ss.fromSql ts vs = .ok x

/-- Elements that are converted and read back one by one are so as a list. -/
theorem exists_traverse {ε α β : Type} {f : α → Outcome ε β} {g : β → Outcome ε α}
    {P : β → Prop} (h : ∀ a, ∃ b, f a = .ok b ∧ P b ∧ g b = .ok a) (as : List α) :
    ∃ bs, Outcome.traverse f as = .ok bs ∧ (∀ b ∈ bs, P b) ∧ bs.length = as.length ∧
      Outcome.traverse g bs = .ok as := by
  choose enc henc hP hdec using h
  refine ⟨as.map enc, Outcome.traverse_eq_ok_map fun a _ => henc a, ?_, List.length_map enc, ?_⟩
  · intro b hb
    obtain ⟨a, -, rfl⟩ := List.mem_map.mp hb
    exact hP a
  · have hback := Outcome.traverse_eq_ok_map (g := id) fun a (_ : a ∈ as) => hdec a
    rw [Outcome.traverse_map, hback, List.map_id]

/-- A fold over elements that can be read one by one is the fold over what is read. -/
theorem foldlM_of_traverse {ε α β γ : Type} {f : β → Outcome ε α} {bs : List β} {as : List α}
    (h : Outcome.traverse f bs = .ok as) (step : γ → α → γ) (c : γ) :
    bs.foldlM (fun c b => do
      let a ← f b
      .ok (step c a)) c = .ok (as.foldl step c) := by
  induction bs generalizing as c with
  | nil =>
    cases h
    rfl
  | cons b bs ih =>
    rw [Outcome.traverse] at h
    obtain ⟨a, ha, hrest⟩ := Outcome.bind_eq_ok.mp h
    obtain ⟨as', has, hcons⟩ := Outcome.bind_eq_ok.mp hrest
    cases hcons
    rw [List.foldlM_cons, ha, Outcome.ok_bind, Outcome.ok_bind, List.foldl_cons]
    exact ih has (step c a)

namespace Inverts

variable {α κ ν : Type}

theorem scalar {s : SqlType α} {t : ChType} (h : ScalarOf s t) : Inverts s t := by
  cases h
  case string | fixedString =>
    exact ⟨rfl, fun _ => rfl, fun _ x => ⟨_, rfl, rfl, fun _ => nofun, fromUtf8_utf8Bytes x⟩⟩
  case bool =>
    refine ⟨rfl, fun _ => rfl, fun _ x => ⟨_, rfl, rfl, fun _ => nofun, ?_⟩⟩
    cases x <;> rfl
  all_goals exact ⟨rfl, nofun, fun _ x => ⟨_, rfl, rfl, fun _ => nofun, rfl⟩⟩

/-- The elements of an array are converted and read back. -/
theorem traverse {s : SqlType α} {t : ChType} (h : Inverts s t)
    (hvalid : (ChType.array t).validate = .ok ()) (xs : List α) :
    ∃ items, Outcome.traverse (s.toSql · (some t)) xs = .ok items ∧
      (ChType.array t).innerValidateValue (.array items) = true ∧ items.length = xs.length ∧
      Outcome.traverse (s.fromSql t.stripLowCardinality) items = .ok xs := by
  have hone : ∀ x, ∃ v, s.toSql x (some t) = .ok v ∧ t.innerValidateValue v = true ∧
      s.fromSql t v = .ok x := by
    intro x
    obtain ⟨v, hto, hin, -, hfrom⟩ := h.inverse (ChType.validate_array hvalid) x
    exact ⟨v, hto, hin, hfrom⟩
  obtain ⟨items, hto, hin, hlength, hfrom⟩ := exists_traverse hone xs
  refine ⟨items, hto, ?_, hlength, h.strip.symm ▸ hfrom⟩
  rw [ChType.innerValidateValue]
  exact List.all_eq_true.mpr hin

theorem vec {s : SqlType α} {t : ChType} (h : Inverts s t) : Inverts s.vec (.array t) := by
  refine ⟨rfl, fun _ => rfl, fun hvalid xs => ?_⟩
  obtain ⟨items, hto, hin, -, hfrom⟩ := h.traverse hvalid xs
  refine ⟨.array items, ?_, hin, fun _ => nofun, hfrom⟩
  -- Under a hint for texts the elements are texts, so no vector of bytes becomes one.
  have helements : s.vec.toSql xs (some (.array t)) = (do
      let items ← Outcome.traverse (s.toSql · (some t)) xs
      .ok (.array items)) := by
    cases htext : t.isText with
    | true => simp [SqlType.vec, ChType.unarray, h.oneByte htext]
    | false => simp [SqlType.vec, ChType.unarray, htext]
  rw [helements, hto, Outcome.ok_bind]

theorem option {s : SqlType α} {t : ChType} (h : Inverts s t) :
    Inverts s.option (.nullable t) := by
  refine ⟨rfl, fun _ => rfl, fun hvalid x => ?_⟩
  obtain ⟨hflat, hinner⟩ := ChType.validate_nullable hvalid
  cases x with
  | none => exact ⟨.null, rfl, rfl, nofun, rfl⟩
  | some x =>
    obtain ⟨v, hto, hin, hnull, hfrom⟩ := h.inverse hinner x
    refine ⟨v, hto, ?_, nofun, ?_⟩
    · rw [ChType.innerValidateValue, hin, Bool.or_true]
    · -- An element that became a null would be read as `none`.
      have hread : s.option.fromSql (.nullable t) v = (do
          let x ← s.fromSql t.stripLowCardinality v
          .ok (some x)) := by
        cases v
        case null => exact absurd rfl (hnull hflat)
        all_goals rfl
      rw [hread, h.strip, hfrom, Outcome.ok_bind]

theorem array {s : SqlType α} {t : ChType} (n : Nat) (default : α) (h : Inverts s t) :
    Inverts (s.array n default) (.array t) := by
  refine ⟨rfl, fun _ => rfl, fun hvalid xs => ?_⟩
  obtain ⟨items, hto, hin, hlength, hfrom⟩ := h.traverse hvalid (List.ofFn xs)
  rw [List.length_ofFn] at hlength
  refine ⟨.array items, ?_, hin, fun _ => nofun, ?_⟩
  · change (do
      let items ← Outcome.traverse (s.toSql · (some t)) (List.ofFn xs)
      .ok (Value.array items)) = _
    rw [hto, Outcome.ok_bind]
  · have hplaces : (fun i : Fin n => (List.ofFn xs).getD i default) = xs := by
      funext i
      simp [List.getD_eq_getElem?_getD]
    change (if items.length ≠ n then _ else (do
      let out ← Outcome.traverse (s.fromSql t.stripLowCardinality) items
      .ok fun i : Fin n => out.getD i default)) = _
    -- Every place is written, so none keeps the default.
    rw [if_neg (not_not.mpr hlength), hfrom, Outcome.ok_bind, hplaces]

theorem map {k : SqlType κ} {v : SqlType ν} {key value : ChType} (m : MapLike κ ν)
    (hk : Inverts k key) (hv : Inverts v value) : Inverts (k.map m v) (.map key value) := by
  refine ⟨rfl, fun _ => rfl, fun hvalid x => ?_⟩
  obtain ⟨hkey, hvalue⟩ := ChType.validate_map hvalid
  -- An entry is converted by its key and its value.
  have hone : ∀ e : κ × ν, ∃ p : Value × Value,
      (do
        let a ← k.toSql e.1 (some key)
        let b ← v.toSql e.2 (some value)
        .ok (a, b)) = .ok p ∧
      (key.innerValidateValue p.1 = true ∧ value.innerValidateValue p.2 = true) ∧
      (do
        let a ← k.fromSql key p.1
        let b ← v.fromSql value p.2
        .ok (a, b)) = .ok e := by
    intro e
    obtain ⟨a, hato, hain, -, hafrom⟩ := hk.inverse hkey e.1
    obtain ⟨b, hbto, hbin, -, hbfrom⟩ := hv.inverse hvalue e.2
    exact ⟨(a, b), by rw [hato, Outcome.ok_bind, hbto, Outcome.ok_bind], ⟨hain, hbin⟩,
      by rw [hafrom, Outcome.ok_bind, hbfrom, Outcome.ok_bind]⟩
  obtain ⟨pairs, hto, hin, -, hfrom⟩ := exists_traverse hone (m.iter x)
  refine ⟨.map pairs.unzip.1 pairs.unzip.2, ?_, ?_, fun _ => nofun, ?_⟩
  · change (do
      let pairs ← Outcome.traverse (fun e : κ × ν => do
        let a ← k.toSql e.1 (some key)
        let b ← v.toSql e.2 (some value)
        .ok (a, b)) (m.iter x)
      .ok (Value.map pairs.unzip.1 pairs.unzip.2)) = _
    rw [hto, Outcome.ok_bind]
  · rw [ChType.innerValidateValue]
    simp only [List.unzip_fst, List.unzip_snd, List.length_map, beq_self_eq_true, Bool.true_and,
      Bool.and_eq_true, List.all_eq_true, List.mem_map]
    constructor
    · rintro _ ⟨p, hp, rfl⟩
      exact (hin p hp).1
    · rintro _ ⟨p, hp, rfl⟩
      exact (hin p hp).2
  · change (pairs.unzip.1.zip pairs.unzip.2).foldlM (fun out e => do
      let a ← k.fromSql key.stripLowCardinality e.1
      let b ← v.fromSql value.stripLowCardinality e.2
      .ok (m.insert out a b)) m.empty = _
    have hfold := foldlM_of_traverse hfrom (fun out e => m.insert out e.1 e.2) m.empty
    simp only [bind_assoc, Outcome.ok_bind] at hfold
    rw [List.zip_unzip, hk.strip, hv.strip, hfold, m.rebuild]

theorem tuple {ss : TupleSql α} {ts : List ChType} (h : InvertsAll ss ts) :
    Inverts (.tuple ss) (.tuple ts) := by
  refine ⟨rfl, fun _ => rfl, fun hvalid x => ?_⟩
  obtain ⟨vs, hto, hlength, hin, hfrom⟩ := h.inverse (ChType.validate_tuple hvalid) x
  refine ⟨.tuple vs, ?_, ?_, fun _ => nofun, ?_⟩
  · change (do
      let vs ← ss.toSql x ts
      .ok (Value.tuple vs)) = _
    rw [hto, Outcome.ok_bind]
  · rw [ChType.innerValidateValue, hlength, hin, beq_self_eq_true]
    rfl
  · change (if vs.length ≠ ts.length then _ else if vs.length ≠ ss.arity then _
      else ss.fromSql ts vs) = _
    rw [if_neg (not_not.mpr hlength), if_neg (not_not.mpr (hlength.trans h.arity.symm)), hfrom]

end Inverts

theorem InvertsAll.nil : InvertsAll .nil [] :=
  ⟨rfl, fun _ _ => ⟨[], rfl, rfl, rfl, rfl⟩⟩

theorem InvertsAll.cons {α β : Type} {s : SqlType α} {ss : TupleSql β} {t : ChType}
    {ts : List ChType} (h : Inverts s t) (hs : InvertsAll ss ts) :
    InvertsAll (.cons s ss) (t :: ts) := by
  refine ⟨congrArg (· + 1) hs.arity, fun hvalid x => ?_⟩
  obtain ⟨hhead, htail⟩ := List.forall_mem_cons.mp hvalid
  obtain ⟨v, hto, hin, -, hfrom⟩ := h.inverse hhead x.1
  obtain ⟨vs, hsto, hlength, hsin, hsfrom⟩ := hs.inverse htail x.2
  refine ⟨v :: vs, ?_, congrArg (· + 1) hlength, ?_, ?_⟩
  · change (do
      let v ← s.toSql x.1 (some t)
      let vs ← ss.toSql x.2 ts
      .ok (v :: vs)) = _
    rw [hto, Outcome.ok_bind, hsto, Outcome.ok_bind]
  · rw [ChType.innerValidateValue.validateZip, hin, hsin]
    rfl
  · change (do
      let a ← s.fromSql t.stripLowCardinality v
      let b ← ss.fromSql ts vs
      .ok (a, b)) = _
    rw [h.strip, hfrom, Outcome.ok_bind, hsfrom, Outcome.ok_bind]

mutual

theorem Corresponds.inverts {α : Type} {s : SqlType α} {t : ChType} (h : Corresponds s t) :
    Inverts s t :=
  match h with
  | .scalar h => .scalar h
  | .vec h => h.inverts.vec
  | .option h => h.inverts.option
  | .array n default h => h.inverts.array n default
  | .map m hk hv => .map m hk.inverts hv.inverts
  | .tuple h => .tuple h.inverts

theorem CorrespondsAll.inverts {α : Type} {ss : TupleSql α} {ts : List ChType}
    (h : CorrespondsAll ss ts) : InvertsAll ss ts :=
  match h with
  | .nil => .nil
  | .cons h hs => .cons h.inverts hs.inverts

end

/-- A value of a nested type is converted to a value that the corresponding column type accepts,
and from it back to itself. -/
theorem fromSql_toSql {α : Type} {s : SqlType α} {t : ChType} (h : Corresponds s t)
    (hvalid : t.validate = .ok ()) (x : α) :
    ∃ v, s.toSql x (some t) = .ok v ∧ t.validateValue v = .ok () ∧ s.fromSql t v = .ok x := by
  obtain ⟨v, hto, hin, -, hfrom⟩ := h.inverts.inverse hvalid x
  exact ⟨v, hto, ChType.validateValue_eq_ok.mpr ⟨hvalid, hin⟩, hfrom⟩

/-- A map from strings to vectors of options, next to two bytes. -/
theorem fromSql_toSql_sample :
    ∃ v, (SqlType.tuple (.cons (SqlType.indexMap .string SqlType.u64.option.vec)
          (.cons (SqlType.u8.array 2 0) .nil))).toSql
        (⟨[("a", [some 1, none]), ("b", [])], by decide⟩, (fun i => if i = 0 then 7 else 8), ())
        (some (.tuple [.map .string (.array (.nullable .uint64)), .array .uint8])) = .ok v ∧
      (ChType.tuple [.map .string (.array (.nullable .uint64)), .array .uint8]).validateValue v =
        .ok () ∧
      (SqlType.tuple (.cons (SqlType.indexMap .string SqlType.u64.option.vec)
          (.cons (SqlType.u8.array 2 0) .nil))).fromSql
        (.tuple [.map .string (.array (.nullable .uint64)), .array .uint8]) v =
        .ok (⟨[("a", [some 1, none]), ("b", [])], by decide⟩, (fun i => if i = 0 then 7 else 8), ()) :=
  fromSql_toSql (.tuple (.cons (.map indexMaps (.scalar .string) (.vec (.option (.scalar .u64))))
    (.cons (.array 2 0 (.scalar .u8)) .nil))) rfl _

end ClickhouseArrow
