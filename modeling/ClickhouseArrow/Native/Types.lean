import ClickhouseArrow.Wire.Words

/-!
# Column types and values

`ChType` is the `Type` of `native/types.rs` and `Value` the `Value` of
`native/values.rs`, with the accessors the column codec uses, the default value of a
type and the equality under which values are compared.

Floats are their bit patterns, 128-bit integers their two's complement, 256-bit
integers their 32 big-endian bytes; a `usize` is a natural number.
-/

namespace ClickhouseArrow

open Wire

/-- A time zone, known by its name. -/
structure Tz where
  name : String
  deriving DecidableEq, Repr

/-- A raw `ClickHouse` type. -/
inductive ChType
  | int8 | int16 | int32 | int64 | int128 | int256
  | uint8 | uint16 | uint32 | uint64 | uint128 | uint256
  | float32 | float64
  /-- The payload of a decimal is its scale. -/
  | decimal32 (scale : Nat)
  | decimal64 (scale : Nat)
  | decimal128 (scale : Nat)
  | decimal256 (scale : Nat)
  | string
  | fixedSizedString (n : Nat)
  | binary
  | fixedSizedBinary (n : Nat)
  | uuid
  | date
  | date32
  | dateTime (tz : Tz)
  | dateTime64 (precision : Nat) (tz : Tz)
  | ipv4
  | ipv6
  | point | ring | polygon | multiPolygon
  | nullable (inner : ChType)
  | enum8 (items : List (String × Int8))
  | enum16 (items : List (String × Int16))
  | lowCardinality (inner : ChType)
  | array (inner : ChType)
  | tuple (items : List ChType)
  | map (key value : ChType)
  | object

namespace ChType

/-- The type without its outermost `Nullable`. -/
def stripNull : ChType → ChType
  | .nullable x => x
  | t => t

def isNullable : ChType → Bool
  | .nullable _ => true
  | _ => false

/-- The types that `Nullable` refuses. -/
def isComposite : ChType → Bool
  | .array _ | .map _ _ | .lowCardinality _ | .tuple _ | .nullable _ => true
  | _ => false

/-- Induction over a type, with the components of a tuple at hand together, and for a
dictionary the type of its keys as well as the inner type. -/
@[elab_as_elim]
theorem inductionOn {P : ChType → Prop} (t : ChType)
    (hleaf : ∀ t, t.isComposite = false → P t)
    (hnullable : ∀ inner, P inner → P (.nullable inner))
    (hlowCardinality : ∀ inner, P inner.stripNull → P inner → P (.lowCardinality inner))
    (harray : ∀ inner, P inner → P (.array inner))
    (htuple : ∀ items, (∀ t ∈ items, P t) → P (.tuple items))
    (hmap : ∀ key value, P key → P value → P (.map key value)) : P t := by
  suffices h : P t ∧ P t.stripNull from h.1
  apply @ChType.rec (fun t => P t ∧ P t.stripNull) fun ts => ∀ t ∈ ts, P t
  case nullable => exact fun inner ih => ⟨hnullable inner ih.1, ih.1⟩
  case lowCardinality =>
    exact fun inner ih => ⟨hlowCardinality inner ih.2 ih.1, hlowCardinality inner ih.2 ih.1⟩
  case array => exact fun inner ih => ⟨harray inner ih.1, harray inner ih.1⟩
  case tuple => exact fun items ih => ⟨htuple items ih, htuple items ih⟩
  case map =>
    exact fun key value ihkey ihvalue =>
      ⟨hmap key value ihkey.1 ihvalue.1, hmap key value ihkey.1 ihvalue.1⟩
  case nil => simp
  case cons =>
    intro head tail hhead htail t ht
    rcases List.mem_cons.mp ht with rfl | hmem
    · exact hhead.1
    · exact htail t hmem
  all_goals
    intros
    exact ⟨hleaf _ rfl, hleaf _ rfl⟩

end ChType

/-- A geo point: the bit patterns of its two coordinates. -/
structure Point where
  x : UInt64
  y : UInt64
  deriving DecidableEq, Repr, Inhabited

/-- A raw `ClickHouse` value. -/
inductive Value
  | int8 (x : Int8)
  | int16 (x : Int16)
  | int32 (x : Int32)
  | int64 (x : Int64)
  | int128 (x : BitVec 128)
  | int256 (x : Octets 32)
  | uint8 (x : UInt8)
  | uint16 (x : UInt16)
  | uint32 (x : UInt32)
  | uint64 (x : UInt64)
  | uint128 (x : BitVec 128)
  | uint256 (x : Octets 32)
  | float32 (bits : UInt32)
  | float64 (bits : UInt64)
  | decimal32 (scale : Nat) (x : Int32)
  | decimal64 (scale : Nat) (x : Int64)
  | decimal128 (scale : Nat) (x : BitVec 128)
  | decimal256 (scale : Nat) (x : Octets 32)
  | string (bytes : Bytes)
  | uuid (x : BitVec 128)
  | date (days : UInt16)
  | date32 (days : Int32)
  | dateTime (tz : Tz) (seconds : UInt32)
  | dateTime64 (tz : Tz) (ticks : UInt64) (precision : Nat)
  | enum8 (label : String) (index : Int8)
  | enum16 (label : String) (index : Int16)
  | array (items : List Value)
  | tuple (items : List Value)
  | null
  | map (keys values : List Value)
  | ipv4 (x : UInt32)
  | ipv6 (octets : Octets 16)
  | point (p : Point)
  | ring (r : List Point)
  | polygon (p : List (List Point))
  | multiPolygon (p : List (List (List Point)))
  | object (bytes : Bytes)

/-! ## Equality -/

/-- Two doubles compare equal: neither is a NaN, and they have the same bits or both
are zeros. -/
def Float64.eqBits (a b : UInt64) : Bool :=
  let isNan (x : UInt64) : Bool := (x &&& 0x7FFFFFFFFFFFFFFF) > 0x7FF0000000000000
  let isZero (x : UInt64) : Bool := (x &&& 0x7FFFFFFFFFFFFFFF) == 0
  !isNan a && !isNan b && (a == b || (isZero a && isZero b))

def Point.eqCoordinates (a b : Point) : Bool :=
  Float64.eqBits a.x b.x && Float64.eqBits a.y b.y

/-- Lists of one length whose entries compare equal. -/
def eqPointwise {α : Type} (eq : α → α → Bool) : List α → List α → Bool
  | [], [] => true
  | a :: as, b :: bs => eq a b && eqPointwise eq as bs
  | _, _ => false

namespace Value

mutual

/-- `PartialEq for Value`.  Floats are compared by their bits, geo points by their
coordinates; two objects are equal whatever they hold. -/
def eq : Value → Value → Bool
  | .int8 l, .int8 r => l == r
  | .int16 l, .int16 r => l == r
  | .int32 l, .int32 r => l == r
  | .int64 l, .int64 r => l == r
  | .int128 l, .int128 r => l == r
  | .int256 l, .int256 r => l == r
  | .uint8 l, .uint8 r => l == r
  | .uint16 l, .uint16 r => l == r
  | .uint32 l, .uint32 r => l == r
  | .uint64 l, .uint64 r => l == r
  | .uint128 l, .uint128 r => l == r
  | .uint256 l, .uint256 r => l == r
  | .float32 l, .float32 r => l == r
  | .float64 l, .float64 r => l == r
  | .decimal32 s l, .decimal32 s' r => s == s' && l == r
  | .decimal64 s l, .decimal64 s' r => s == s' && l == r
  | .decimal128 s l, .decimal128 s' r => s == s' && l == r
  | .decimal256 s l, .decimal256 s' r => s == s' && l == r
  | .string l, .string r => l == r
  | .uuid l, .uuid r => l == r
  | .date l, .date r => l == r
  | .date32 l, .date32 r => l == r
  | .dateTime z l, .dateTime z' r => z == z' && l == r
  | .dateTime64 z l p, .dateTime64 z' r p' => z == z' && l == r && p == p'
  | .enum8 l i, .enum8 r j => i == j && l == r
  | .enum16 l i, .enum16 r j => i == j && l == r
  | .array l, .array r => eqList l r
  | .tuple l, .tuple r => eqList l r
  | .map l l', .map r r' => eqList l r && eqList l' r'
  | .ipv4 l, .ipv4 r => l == r
  | .ipv6 l, .ipv6 r => l == r
  | .point l, .point r => l.eqCoordinates r
  | .ring l, .ring r => eqPointwise Point.eqCoordinates l r
  | .polygon l, .polygon r => eqPointwise (eqPointwise Point.eqCoordinates) l r
  | .multiPolygon l, .multiPolygon r =>
      eqPointwise (eqPointwise (eqPointwise Point.eqCoordinates)) l r
  -- Equal discriminants decide the rest.
  | .null, .null => true
  | .object _, .object _ => true
  | _, _ => false

def eqList : List Value → List Value → Bool
  | [], [] => true
  | l :: ls, r :: rs => eq l r && eqList ls rs
  | _, _ => false

end

/-- `value == &Value::Null`. -/
def isNull (v : Value) : Bool := v.eq .null

theorem isNull_iff {v : Value} : v.isNull = true ↔ v = .null := by
  cases v
  all_goals first
    | exact iff_of_true rfl rfl
    | exact iff_of_false Bool.false_ne_true fun h => by cases h

theorem isNull_eq_false {v : Value} (h : v ≠ .null) : v.isNull = false := by
  rw [Bool.eq_false_iff]
  exact fun hnull => h (isNull_iff.mp hnull)

end Value

/-! ## Hashing -/

/-- What a byte string feeds to a hasher: its length, then its bytes. -/
def hashBytes (bytes : Bytes) : List Nat := bytes.length :: bytes.map UInt8.toNat

/-- What a vector feeds to a hasher: its length, then what its entries feed. -/
def hashVec {α : Type} (hash : α → List Nat) (xs : List α) : List Nat :=
  xs.length :: xs.flatMap hash

/-- `Hash for Point`: the bits of the two coordinates. -/
def Point.hash (p : Point) : List Nat := [p.x.toNat, p.y.toNat]

namespace Value

mutual

/-- `Hash for Value`: the numbers fed to the hasher, the discriminant first. -/
def hash : Value → List Nat
  | .int8 x => [0, Word.toNat x]
  | .int16 x => [1, Word.toNat x]
  | .int32 x => [2, Word.toNat x]
  | .int64 x => [3, Word.toNat x]
  | .int128 x => [4, Word.toNat x]
  | .int256 x => 5 :: hashBytes x.bytes
  | .uint8 x => [6, Word.toNat x]
  | .uint16 x => [7, Word.toNat x]
  | .uint32 x => [8, Word.toNat x]
  | .uint64 x => [9, Word.toNat x]
  | .uint128 x => [10, Word.toNat x]
  | .uint256 x => 11 :: hashBytes x.bytes
  | .float32 bits => [12, Word.toNat bits]
  | .float64 bits => [13, Word.toNat bits]
  | .decimal32 s x => [14, s, Word.toNat x]
  | .decimal64 s x => [15, s, Word.toNat x]
  | .decimal128 s x => [16, s, Word.toNat x]
  | .decimal256 s x => 17 :: s :: hashBytes x.bytes
  | .string bytes => 18 :: hashBytes bytes
  | .uuid x => [19, Word.toNat x]
  | .date days => [20, Word.toNat days]
  | .date32 days => [21, Word.toNat days]
  | .dateTime tz seconds => 22 :: tz.name.toList.map Char.toNat ++ [Word.toNat seconds]
  | .dateTime64 tz ticks precision =>
      23 :: tz.name.toList.map Char.toNat ++ [Word.toNat ticks, precision]
  -- The label of an enum entry is not hashed.
  | .enum8 _ index => [24, Word.toNat index]
  | .enum16 _ index => [25, Word.toNat index]
  | .array items => 26 :: items.length :: hashList items
  | .tuple items => 27 :: items.length :: hashList items
  | .null => [28]
  | .map keys values =>
      29 :: keys.length :: hashList keys ++ values.length :: hashList values
  | .ipv4 x => [30, Word.toNat x]
  | .ipv6 octets => 31 :: hashBytes octets.bytes
  | .point p => 32 :: p.hash
  | .ring r => 33 :: hashVec Point.hash r
  | .polygon p => 34 :: hashVec (hashVec Point.hash) p
  | .multiPolygon p => 35 :: hashVec (hashVec (hashVec Point.hash)) p
  | .object bytes => 36 :: hashBytes bytes

def hashList : List Value → List Nat
  | [] => []
  | v :: vs => hash v ++ hashList vs

end

/-- Two values are one key of a hash set: they feed the hasher the same numbers and
compare equal. -/
def sameKey (l r : Value) : Bool := l.hash == r.hash && l.eq r

/-- No geo point and no object anywhere inside: equality is then the identity. -/
def isPlain : Value → Bool
  | .array items => plainList items
  | .tuple items => plainList items
  | .map keys values => plainList keys && plainList values
  | .point _ => false
  | .ring _ => false
  | .polygon _ => false
  | .multiPolygon _ => false
  | .object _ => false
  | _ => true
where
  plainList : List Value → Bool
    | [] => true
    | v :: vs => v.isPlain && plainList vs

mutual

theorem eq_of_isPlain : ∀ {l r : Value}, r.isPlain = true → l.eq r = true → l = r := by
  intro l r hplain heq
  unfold eq at heq
  split at heq
  -- Equality recurses in arrays, tuples and maps only.
  case h_27 => rw [eqList_of_isPlain (by simpa [isPlain] using hplain) heq]
  case h_28 => rw [eqList_of_isPlain (by simpa [isPlain] using hplain) heq]
  case h_29 =>
    simp only [isPlain, Bool.and_eq_true] at hplain heq
    rw [eqList_of_isPlain hplain.1 heq.1, eqList_of_isPlain hplain.2 heq.2]
  all_goals first
    | exact absurd heq Bool.false_ne_true
    | exact absurd hplain Bool.false_ne_true
    | rfl
    | rw [eq_of_beq heq]
    | (obtain ⟨hleft, hright⟩ := Bool.and_eq_true_iff.mp heq
       rw [eq_of_beq hleft, eq_of_beq hright])
    | simp_all

theorem eqList_of_isPlain : ∀ {ls rs : List Value},
    isPlain.plainList rs = true → eqList ls rs = true → ls = rs
  | [], [], _, _ => rfl
  | l :: ls, r :: rs, hplain, heq => by
      simp only [isPlain.plainList, Bool.and_eq_true] at hplain
      simp only [eqList, Bool.and_eq_true] at heq
      rw [eq_of_isPlain hplain.1 heq.1, eqList_of_isPlain hplain.2 heq.2]
  | [], _ :: _, _, heq => by simp [eqList] at heq
  | _ :: _, [], _, heq => by simp [eqList] at heq

end

mutual

theorem eq_self_of_isPlain : ∀ {v : Value}, v.isPlain = true → v.eq v = true
  | .array items, hplain => by
      rw [eq, eqList_self_of_isPlain (by simpa [isPlain] using hplain)]
  | .tuple items, hplain => by
      rw [eq, eqList_self_of_isPlain (by simpa [isPlain] using hplain)]
  | .map keys values, hplain => by
      simp only [isPlain, Bool.and_eq_true] at hplain
      rw [eq, eqList_self_of_isPlain hplain.1, eqList_self_of_isPlain hplain.2]
      rfl
  | .point _, hplain | .ring _, hplain | .polygon _, hplain | .multiPolygon _, hplain
  | .object _, hplain => by simp [isPlain] at hplain
  | .int8 _, _ | .int16 _, _ | .int32 _, _ | .int64 _, _ | .int128 _, _ | .int256 _, _
  | .uint8 _, _ | .uint16 _, _ | .uint32 _, _ | .uint64 _, _ | .uint128 _, _ | .uint256 _, _
  | .float32 _, _ | .float64 _, _ | .decimal32 _ _, _ | .decimal64 _ _, _ | .decimal128 _ _, _
  | .decimal256 _ _, _ | .string _, _ | .uuid _, _ | .date _, _ | .date32 _, _
  | .dateTime _ _, _ | .dateTime64 _ _ _, _ | .enum8 _ _, _ | .enum16 _ _, _ | .null, _
  | .ipv4 _, _ | .ipv6 _, _ => by
      first
        | exact beq_self_eq_true _
        | simp [eq]

theorem eqList_self_of_isPlain : ∀ {vs : List Value},
    isPlain.plainList vs = true → eqList vs vs = true
  | [], _ => rfl
  | v :: vs, hplain => by
      simp only [isPlain.plainList, Bool.and_eq_true] at hplain
      rw [eqList, eq_self_of_isPlain hplain.1, eqList_self_of_isPlain hplain.2]
      rfl

end

/-- Among plain values a hash set tells exactly the different values apart. -/
theorem sameKey_iff {l r : Value} (hplain : r.isPlain = true) :
    l.sameKey r = true ↔ l = r := by
  constructor
  · intro hsame
    simp only [sameKey, Bool.and_eq_true] at hsame
    exact eq_of_isPlain hplain hsame.2
  · rintro rfl
    simp [sameKey, eq_self_of_isPlain hplain]

end Value

/-- `Type::default_value`. -/
def ChType.defaultValue : ChType → Value
  | .int8 => .int8 0
  | .int16 => .int16 0
  | .int32 => .int32 0
  | .int64 => .int64 0
  | .int128 => .int128 0
  | .int256 => .int256 (Octets.zero 32)
  | .uint8 => .uint8 0
  | .uint16 => .uint16 0
  | .uint32 => .uint32 0
  | .uint64 => .uint64 0
  | .uint128 => .uint128 0
  | .uint256 => .uint256 (Octets.zero 32)
  | .float32 => .float32 0
  | .float64 => .float64 0
  | .decimal32 s => .decimal32 s 0
  | .decimal64 s => .decimal64 s 0
  | .decimal128 s => .decimal128 s 0
  | .decimal256 s => .decimal256 s (Octets.zero 32)
  | .string => .string []
  | .fixedSizedString _ => .string []
  | .binary => .string []
  | .fixedSizedBinary _ => .string []
  | .date => .date 0
  | .date32 => .date32 0
  | .dateTime tz => .dateTime tz 0
  | .dateTime64 precision tz => .dateTime64 tz 0 precision
  | .ipv4 => .ipv4 0
  | .ipv6 => .ipv6 (Octets.zero 16)
  | .enum8 _ => .enum8 "" 0
  | .enum16 _ => .enum16 "" 0
  | .lowCardinality x => x.defaultValue
  | .array _ => .array []
  | .tuple types => .tuple (defaultValues types)
  | .nullable _ => .null
  | .map _ _ => .map [] []
  | .point => .point ⟨0, 0⟩
  | .ring => .ring []
  | .polygon => .polygon []
  | .multiPolygon => .multiPolygon []
  | .uuid => .uuid 0
  -- The two bytes of an empty JSON object.
  | .object => .object [0x7B, 0x7D]
where
  defaultValues : List ChType → List Value
    | [] => []
    | t :: ts => t.defaultValue :: defaultValues ts

/-- `Value::justify_null_ref`: the value itself, or the default of the type for a null. -/
def Value.justifyNullRef (v : Value) (t : ChType) : Value :=
  if v.isNull then t.defaultValue else v

theorem Value.justifyNullRef_of_ne {v : Value} (t : ChType) (h : v ≠ .null) :
    v.justifyNullRef t = v := by
  simp [justifyNullRef, isNull_eq_false h]

/-! ## Errors -/

/-- A piece of an error text; the `Debug` and `Display` renderings of a type, a value or a
list of strings are kept as the type, the value or the strings themselves. -/
inductive Fragment
  | text (s : String)
  | strings (ss : List String)
  | type (t : ChType)
  | value (v : Value)
  | number (n : Int)
  /-- A number in hexadecimal, padded with zeros to so many digits. -/
  | hex (digits n : Nat)

/-- The variants of `Error` that the modelled code returns. -/
inductive Error
  /-- `Io` with kind `UnexpectedEof`. -/
  | unexpectedEof
  | protocol (msg : List Fragment)
  | typeParseError (msg : List Fragment)
  | deserializeError (msg : List Fragment)
  | serializeError (msg : List Fragment)
  | unexpectedType (t : ChType)
  /-- `FromUtf8`. -/
  | fromUtf8
  /-- `BytesRead`, with the bytes that were asked for and those that were there. -/
  | bytesRead (requested available : Nat)

/-- A fallible computation of the client. -/
abbrev Result (α : Type) := Outcome Error α

end ClickhouseArrow
