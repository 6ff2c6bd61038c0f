import ClickhouseArrow.Arrow.Leaves

/-!
# The cells that are read of a flat column

The bytes of the rows are read back by the decoder of the type, with the builder that it is given.
The module says which cell is read for a cell that has been written, and for the bytes of a null.
-/

namespace ClickhouseArrow

open Wire

namespace Arrow

/-- The cell is of the kind of the type and in its range. -/
def Within : ChType → Leaf → Prop
  | .int8, .number i => -2 ^ 7 ≤ i ∧ i < 2 ^ 7
  | .int16, .number i => -2 ^ 15 ≤ i ∧ i < 2 ^ 15
  | .int32, .number i | .date32, .number i => -2 ^ 31 ≤ i ∧ i < 2 ^ 31
  | .int64, .number i | .dateTime _, .number i | .dateTime64 _ _, .number i =>
      -2 ^ 63 ≤ i ∧ i < 2 ^ 63
  | .uint8, .number i => 0 ≤ i ∧ i < 2 ^ 8
  | .uint16, .number i => 0 ≤ i ∧ i < 2 ^ 16
  | .uint32, .number i | .float32, .number i => 0 ≤ i ∧ i < 2 ^ 32
  | .uint64, .number i | .float64, .number i => 0 ≤ i ∧ i < 2 ^ 64
  | .decimal32 _, .number _ | .decimal64 _, .number _ | .date, .number _ => True
  | .decimal128 _, .number i => -2 ^ 127 ≤ i ∧ i < 2 ^ 127
  | .string, .bytes _ | .binary, .bytes _ => True
  | .fixedSizedString n, .bytes b | .fixedSizedBinary n, .bytes b => b.length = n
  | .ipv4, .bytes b => b.length = 4
  | .ipv6, .bytes b | .uuid, .bytes b | .int128, .bytes b | .uint128, .bytes b => b.length = 16
  | .int256, .bytes b | .uint256, .bytes b | .decimal256 _, .bytes b => b.length = 32
  | _, _ => False

/-- The cells of an array of the type. -/
theorem within_of_leafColumn {t : ChType} {a : ArrowArray} (h : LeafColumn t a) {v : Leaf}
    (hv : some v ∈ leafRows a) : Within t v := by
  have hmem {α : Type} {rows : List (Option α)} {leaf : α → Leaf}
      (hrow : some v ∈ rows.map (Option.map leaf)) : ∃ x, some x ∈ rows ∧ v = leaf x := by
    obtain ⟨row, hmem, hleaf⟩ := List.mem_map.mp hrow
    obtain ⟨x, rfl, rfl⟩ := Option.map_eq_some_iff.mp hleaf
    exact ⟨x, hmem, rfl⟩
  cases h with
  | boolean =>
    obtain ⟨b, -, rfl⟩ := hmem hv
    cases b <;> exact ⟨by decide, by decide⟩
  | int8 =>
    obtain ⟨x, -, rfl⟩ := hmem hv
    exact ⟨Int8.le_toInt x, Int8.toInt_lt x⟩
  | int16 =>
    obtain ⟨x, -, rfl⟩ := hmem hv
    exact ⟨Int16.le_toInt x, Int16.toInt_lt x⟩
  | int32 =>
    obtain ⟨x, -, rfl⟩ := hmem hv
    exact ⟨Int32.le_toInt x, Int32.toInt_lt x⟩
  | int64 =>
    obtain ⟨x, -, rfl⟩ := hmem hv
    exact ⟨Int64.le_toInt x, Int64.toInt_lt x⟩
  | uint8 =>
    obtain ⟨x, -, rfl⟩ := hmem hv
    exact ⟨Int.natCast_nonneg _, Int.ofNat_lt.mpr (UInt8.toNat_lt x)⟩
  | uint16 =>
    obtain ⟨x, -, rfl⟩ := hmem hv
    exact ⟨Int.natCast_nonneg _, Int.ofNat_lt.mpr (UInt16.toNat_lt x)⟩
  | uint32 =>
    obtain ⟨x, -, rfl⟩ := hmem hv
    exact ⟨Int.natCast_nonneg _, Int.ofNat_lt.mpr (UInt32.toNat_lt x)⟩
  | uint64 =>
    obtain ⟨x, -, rfl⟩ := hmem hv
    exact ⟨Int.natCast_nonneg _, Int.ofNat_lt.mpr (UInt64.toNat_lt x)⟩
  | float32 =>
    obtain ⟨x, -, rfl⟩ := hmem hv
    exact ⟨Int.natCast_nonneg _, Int.ofNat_lt.mpr (UInt32.toNat_lt x)⟩
  | float64 =>
    obtain ⟨x, -, rfl⟩ := hmem hv
    exact ⟨Int.natCast_nonneg _, Int.ofNat_lt.mpr (UInt64.toNat_lt x)⟩
  | decimal32 | decimal64 | date =>
    obtain ⟨x, -, rfl⟩ := hmem hv
    trivial
  | decimal128 =>
    obtain ⟨x, -, rfl⟩ := hmem hv
    exact ⟨BitVec.le_toInt x, BitVec.toInt_lt⟩
  | decimal256 =>
    obtain ⟨x, -, rfl⟩ := hmem hv
    exact x.length_eq
  | date32 =>
    obtain ⟨x, -, rfl⟩ := hmem hv
    exact ⟨Int32.le_toInt x, Int32.toInt_lt x⟩
  | dateTime | dateTime64 =>
    obtain ⟨x, -, rfl⟩ := hmem hv
    exact ⟨Int64.le_toInt x, Int64.toInt_lt x⟩
  | string | binary =>
    obtain ⟨b, -, rfl⟩ := hmem hv
    trivial
  | fixedSizedString h | fixedSizedBinary h | ipv4 h | ipv6 h | uuid h | int128 h | uint128 h
  | int256 h | uint256 h =>
    obtain ⟨b, hb, rfl⟩ := hmem hv
    exact h.2 b (mem_of_slots hb)

/-- The cell that is read for a cell that has been written, and for the bytes of a null. -/
def readBack (options : Option ArrowOptions) : ChType → Option Leaf → Leaf
  -- seconds before 1970 are those of the next century and a half
  | .dateTime _, some (.number i) => .number (i % 2 ^ 32)
  | .uuid, some (.bytes b) => .bytes (b.drop 8 ++ b.take 8)
  | .ipv4, some (.bytes b) => .bytes b.reverse
  | .string, some (.bytes b) => .bytes (readAs options b)
  | _, some v => v
  -- the day 0 is in 1900
  | .date32, none => .number (-25567)
  | .string, none | .binary, none => .bytes []
  | .fixedSizedString n, none | .fixedSizedBinary n, none => .bytes (List.replicate n 0)
  | .ipv4, none => .bytes (List.replicate 4 0)
  | .ipv6, none | .uuid, none | .int128, none | .uint128, none => .bytes (List.replicate 16 0)
  | .int256, none | .uint256, none | .decimal256 _, none => .bytes (List.replicate 32 0)
  | _, none => .number 0

/-- The type that the cells are decoded as. -/
def leafHint (options : Option ArrowOptions) : ChType → ChType
  | .string => textHint options
  | .fixedSizedString n => .fixedSizedBinary n
  | t => t

/-- The zone of a time is announced. -/
def leafBuilder (options : Option ArrowOptions) : ChType → TypedBuilder
  | .int8 => .int8
  | .int16 => .int16
  | .int32 => .int32
  | .int64 => .int64
  | .uint8 => .uint8
  | .uint16 => .uint16
  | .uint32 => .uint32
  | .uint64 => .uint64
  | .float32 => .float32
  | .float64 => .float64
  | .decimal32 s => .decimal32 (i8OfUsize s)
  | .decimal64 s => .decimal64 (i8OfUsize s)
  | .decimal128 s => .decimal128 (i8OfUsize s)
  | .decimal256 s => .decimal256 (i8OfUsize s)
  | .date => .date
  | .date32 => .date32
  | .dateTime tz => .dateTime (some tz.name)
  | .dateTime64 p tz => instantBuilder (some tz.name) (unitOf p)
  | .string => textBuilder options
  | .ipv4 => .fixedSizeBinary 4
  | .ipv6 | .uuid | .int128 | .uint128 => .fixedSizeBinary 16
  | .int256 | .uint256 => .fixedSizeBinary 32
  | .fixedSizedString n | .fixedSizedBinary n => .fixedSizeBinary (i32OfUsize n)
  | _ => .binary

section Readers

variable {options : Option ArrowOptions} {t : ChType} {rows : List (Option Leaf)} {nulls : Bytes}

/-- The bytes of the rows. -/
def cellBytes (t : ChType) (rows : List (Option Leaf)) : Bytes :=
  (rows.map (payload t)).flatMap (framed t)

/-- What is read of the rows under a mask, by a reader that goes on behind their bytes. -/
def ReadsRows (options : Option ArrowOptions) (t : ChType) (rows : List (Option Leaf))
    (nulls : Bytes) (read : Reader ArrowError ArrowArray) : Prop :=
  ∃ a, Reads read (cellBytes t rows) a ∧ leafRows a = masked nulls (rows.map (readBack options t))

theorem leafRows_finishPrimitive (p : PrimitiveType) (values : List (Option p.Native)) :
    leafRows (finishPrimitive p values) = values.map (Option.map (leafOf p)) :=
  congrArg (List.map (Option.map (leafOf p))) (slots_finished _ _)

theorem leafRows_finishBytes (t : BytesType) (values : List (Option Bytes)) :
    leafRows (finishBytes t values) = values.map (Option.map Leaf.bytes) :=
  congrArg (List.map (Option.map Leaf.bytes)) (slots_finished _ _)

theorem leafRows_finishFixed (size : Int32) (values : List (Option Bytes)) :
    leafRows (finishFixed size values) = values.map (Option.map Leaf.bytes) :=
  congrArg (List.map (Option.map Leaf.bytes)) (slots_finished _ _)

/-- The macros that read all values at once.  Each row has its word in the stream. -/
theorem bulk_reads {α : Type} [Word α] (leaf : α → Leaf) {finish : List (Option α) → ArrowArray}
    (hfinish : ∀ values, leafRows (finish values) = values.map (Option.map leaf))
    (hcells : ∀ row ∈ rows, ∃ w, framed t (payload t row) = putLe w ∧
      leaf w = readBack options t row)
    (hcovers : Covers nulls rows.length) (hsize : rows.length * Word.width α ≤ isizeMax) :
    ReadsRows options t rows nulls (finish <$> deserBulk .async α rows.length nulls) := by
  have : Nonempty α := ⟨Word.ofNat 0⟩
  choose! word hcell hback using hcells
  have hlength : (rows.map word).length = rows.length := List.length_map _
  have hwords : Covers nulls (rows.map word).length := hlength.symm ▸ hcovers
  have hread := deserBulk_reads .async (rows.map word) hwords (by rwa [hlength])
  have hbytes : cellBytes t rows = (rows.map word).flatMap putLe := by
    rw [cellBytes, List.flatMap_map, List.flatMap_map]
    exact List.flatMap_congr hcell
  rw [hlength, ← hbytes] at hread
  refine ⟨_, hread.map _, ?_⟩
  rw [hfinish, ← masked_map, List.map_map]
  exact congrArg (masked nulls) (List.map_congr_left hback)

/-- The macros that read one value after another. -/
theorem opt_reads {β : Type} [Nonempty β] {read : Reader ArrowError β}
    {append : β → ArrowResult β} {leaf : β → Leaf} {finish : List (Option β) → ArrowArray}
    (hfinish : ∀ values, leafRows (finish values) = values.map (Option.map leaf))
    (hcells : ∀ row ∈ rows, ∃ x, Reads read (framed t (payload t row)) x ∧ append x = .ok x ∧
      leaf x = readBack options t row)
    (hcovers : Covers nulls rows.length) :
    ReadsRows options t rows nulls (finish <$> optValues nulls read append 0 rows.length) := by
  choose! value hread happend hback using hcells
  have hvalues := optValues_reads hread happend hcovers
  rw [ReadsRows, cellBytes, List.flatMap_map]
  refine ⟨_, hvalues.map _, ?_⟩
  rw [hfinish, ← masked_map, List.map_map]
  exact congrArg (masked nulls) (List.map_congr_left hback)

/-- Numbers that are read all at once, into an array of their own type or of a wider one. -/
theorem number_reads {α : Type} [Word α] {p : PrimitiveType} (ofNumber : Int → α)
    (conv : α → p.Native) {finish : List (Option α) → ArrowArray}
    (hkind : ∀ b, ¬ Within t (.bytes b)) (hwithin : ∀ v, some v ∈ rows → Within t v)
    (hfinish : ∀ values, finish values = finishPrimitive p (values.map (Option.map conv)))
    (hnull : framed t (payload t none) = putLe (ofNumber 0) ∧
      leafOf p (conv (ofNumber 0)) = readBack options t none)
    (hcells : ∀ i, some (.number i) ∈ rows →
      framed t (wireOf t (.number i)) = putLe (ofNumber i) ∧
        leafOf p (conv (ofNumber i)) = readBack options t (some (.number i)))
    (hcovers : Covers nulls rows.length) (hsize : rows.length * Word.width α ≤ isizeMax) :
    ReadsRows options t rows nulls (finish <$> deserBulk .async α rows.length nulls) := by
  refine bulk_reads (fun w => leafOf p (conv w)) (fun values => ?_) (fun row hrow => ?_)
    hcovers hsize
  · rw [hfinish, leafRows_finishPrimitive, List.map_map, Option.map_comp_map]
    rfl
  · rcases row with _ | i | b
    · exact ⟨ofNumber 0, hnull⟩
    · exact ⟨ofNumber i, hcells i hrow⟩
    · exact absurd (hwithin _ hrow) (hkind b)

/-- Numbers that are read one after another. -/
theorem primitive_reads {p : PrimitiveType} {read : Reader ArrowError p.Native}
    (hcells : ∀ row ∈ rows, ∃ x, Reads read (framed t (payload t row)) x ∧
      leafOf p x = readBack options t row) (hcovers : Covers nulls rows.length) :
    ReadsRows options t rows nulls
      (finishPrimitive p <$> optValues nulls read .ok 0 rows.length) := by
  have : Nonempty p.Native := ⟨p.zero⟩
  refine opt_reads (leafRows_finishPrimitive p) (fun row hrow => ?_) hcovers
  obtain ⟨x, hread, hback⟩ := hcells row hrow
  exact ⟨x, hread, rfl, hback⟩

/-- Bytes that are read one value after another. -/
theorem bytes_reads {read : Reader ArrowError Bytes} {append : Bytes → ArrowResult Bytes}
    {finish : List (Option Bytes) → ArrowArray} (null : Bytes)
    (hkind : ∀ i, ¬ Within t (.number i)) (hwithin : ∀ v, some v ∈ rows → Within t v)
    (hfinish : ∀ values, leafRows (finish values) = values.map (Option.map Leaf.bytes))
    (hnull : Reads read (framed t (payload t none)) null ∧ append null = .ok null ∧
      .bytes null = readBack options t none)
    (hcells : ∀ b, some (.bytes b) ∈ rows → ∃ x, Reads read (framed t (wireOf t (.bytes b))) x ∧
      append x = .ok x ∧ .bytes x = readBack options t (some (.bytes b)))
    (hcovers : Covers nulls rows.length) :
    ReadsRows options t rows nulls (finish <$> optValues nulls read append 0 rows.length) := by
  refine opt_reads hfinish (fun row hrow => ?_) hcovers
  rcases row with _ | i | b
  · exact ⟨null, hnull⟩
  · exact absurd (hwithin _ hrow) (hkind i)
  · exact hcells b hrow

/-- A string that the readers take. -/
def Short : ChType → Leaf → Prop
  | .string, .bytes b | .binary, .bytes b => b.length ≤ maxStringSize
  | _, _ => True

theorem finishPrimitive_plain (p : PrimitiveType) (values : List (Option p.Native)) :
    finishPrimitive p values = finishPrimitive p (values.map (Option.map fun v => v)) := by
  have hsame : (Option.map fun v : p.Native => v) = id := by
    funext row
    cases row <;> rfl
  rw [hsame, List.map_id]

/-- A number that a word without sign can hold. -/
theorem unsigned_number {i : Int} {w n : Nat} (hword : n = i.toNat % 2 ^ w) (hlow : 0 ≤ i)
    (hhigh : i < 2 ^ w) : (n : Int) = i := by
  have hlt : i.toNat < 2 ^ w := (Int.toNat_lt hlow).mpr (by exact_mod_cast hhigh)
  rw [hword, Nat.mod_eq_of_lt hlt, Int.toNat_of_nonneg hlow]

/-- Decimals of few digits, which are stored in a narrow word and read into 128 bits. -/
theorem narrow_reads {α : Type} [Word α] (precision digits : Nat) {s : Int8}
    (ofNumber : Int → α) (number : α → Int) (hdigits : digits ≤ 18)
    (hword : ∀ i, -(10 ^ digits) < i → i < 10 ^ digits → number (ofNumber i) = i)
    {finish : List (Option α) → ArrowArray} (hfinish : ∀ values, finish values =
      finishPrimitive (.decimal128 precision s)
        (values.map (Option.map fun v => BitVec.ofInt 128 (number v))))
    (hkind : ∀ b, ¬ Within t (.bytes b)) (hwithin : ∀ v, some v ∈ rows → Within t v)
    (hpasses : ∀ i, some (.number i) ∈ rows → -(10 ^ digits) < i ∧ i < 10 ^ digits)
    (hnull : framed t (payload t none) = putLe (ofNumber 0) ∧ readBack options t none = .number 0)
    (hcells : ∀ i, framed t (wireOf t (.number i)) = putLe (ofNumber i) ∧
      readBack options t (some (.number i)) = .number i)
    (hcovers : Covers nulls rows.length) (hsize : rows.length * Word.width α ≤ isizeMax) :
    ReadsRows options t rows nulls (finish <$> deserBulk .async α rows.length nulls) := by
  have hpow : (10 : Int) ^ digits ≤ 10 ^ 18 := pow_le_pow_right₀ (by decide) hdigits
  have hpos : (0 : Int) < 10 ^ digits := by positivity
  have hwide (i : Int) (hlow : -(10 ^ digits) < i) (hhigh : i < 10 ^ digits) :
      (BitVec.ofInt 128 (number (ofNumber i))).toInt = i := by
    rw [hword i hlow hhigh]
    exact BitVec.toInt_ofInt_eq_self (by decide) (by norm_num at *; omega) (by norm_num at *; omega)
  refine number_reads (p := .decimal128 precision s) ofNumber
    (fun v => BitVec.ofInt 128 (number v)) hkind hwithin hfinish ⟨hnull.1, ?_⟩
    (fun i hi => ⟨(hcells i).1, ?_⟩) hcovers hsize
  · rw [hnull.2]
    exact congrArg Leaf.number (hwide 0 (by omega) hpos)
  · rw [(hcells i).2]
    exact congrArg Leaf.number (hwide i (hpasses i hi).1 (hpasses i hi).2)

theorem decimal128_reads {b : Nat} {s : Int8}
    (hwithin : ∀ v, some v ∈ rows → Within (.decimal128 b) v)
    (hcovers : Covers nulls rows.length) :
    ReadsRows options (.decimal128 b) rows nulls
      (Primitive.deserializeAsync (.decimal128 s) rows.length nulls) := by
  have hread (v : BitVec 128) : Reads (readDecimal128 .async) (putLe v) v :=
    Reads.getLe (eof .async) v
  have hzero : putLe (0 : BitVec 128) = List.replicate 16 0 := by decide
  refine primitive_reads (p := .decimal128 38 s) (fun row hrow => ?_) hcovers
  rcases row with _ | i | v
  · exact ⟨_, (hzero ▸ hread 0 : Reads _ (List.replicate 16 0) _), rfl⟩
  · refine ⟨_, hread (BitVec.ofInt 128 i), congrArg Leaf.number ?_⟩
    exact BitVec.toInt_ofInt_eq_self (by decide) (hwithin _ hrow).1 (hwithin _ hrow).2
  · exact absurd (hwithin _ hrow) id

theorem decimal256_reads {b : Nat} {s : Int8}
    (hwithin : ∀ v, some v ∈ rows → Within (.decimal256 b) v)
    (hcovers : Covers nulls rows.length) :
    ReadsRows options (.decimal256 b) rows nulls
      (Primitive.deserializeAsync (.decimal256 s) rows.length nulls) := by
  have hread (o : Octets 32) : Reads (readDecimal256 .async) o.bytes o.reverse :=
    (Reads.getOctets (eof .async) o).bind_nil (Reads.pure _)
  refine primitive_reads (p := .decimal256 76 s) (fun row hrow => ?_) hcovers
  rcases row with _ | i | v
  · exact ⟨_, hread (Octets.zero 32), rfl⟩
  · exact absurd (hwithin _ hrow) id
  · have hlength : v.reverse.length = 32 := v.length_reverse.trans (hwithin _ hrow)
    exact ⟨_, hread ⟨v.reverse, hlength⟩, congrArg Leaf.bytes v.reverse_reverse⟩

theorem date_reads (hpasses : ∀ v, some v ∈ rows → Passes .date v)
    (hwithin : ∀ v, some v ∈ rows → Within .date v)
    (hcovers : Covers nulls rows.length) (hsize : rows.length * 2 ≤ isizeMax) :
    ReadsRows options .date rows nulls (Primitive.deserializeAsync .date rows.length nulls) := by
  refine number_reads (t := .date) (p := .date32) (fun i => UInt16.ofNat i.toNat)
    (fun v => Int32.ofNat v.toNat) (fun _ h => h) hwithin (fun _ => rfl) ⟨rfl, rfl⟩
    (fun i hi => ⟨rfl, congrArg Leaf.number ?_⟩) hcovers hsize
  obtain ⟨hlow, hhigh⟩ := hpasses _ hi
  have hword : (UInt16.ofNat i.toNat).toNat = i.toNat := by
    rw [UInt16.toNat_ofNat']
    omega
  show (Int32.ofNat (UInt16.ofNat i.toNat).toNat).toInt = i
  rw [hword, Int32.toInt_ofNat_of_lt (by omega)]
  omega

/-- Days before the one that the writer adds are read again. -/
theorem date32_reads (hpasses : ∀ v, some v ∈ rows → Passes .date32 v)
    (hwithin : ∀ v, some v ∈ rows → Within .date32 v) (hcovers : Covers nulls rows.length) :
    ReadsRows options .date32 rows nulls
      (Primitive.deserializeAsync .date32 rows.length nulls) := by
  have hread (i : Int) (hlow : -2 ^ 31 ≤ i) (hhigh : i + 25567 < 2 ^ 31) :
      Reads (readDate32 .async) (putLe (Int32.ofInt (i + 25567))) (Int32.ofInt i) := by
    have hdays : (Int32.ofInt (i + 25567)).toInt = i + 25567 :=
      Int32.toInt_ofInt_of_le (by omega) hhigh
    have hzero : (25567 : Int32).toInt = 25567 := by decide
    refine (Reads.getLe (eof .async) _).bind_nil (Reads.ofOutcome ?_)
    simp only [subI32, hdays, hzero, Int.add_sub_cancel]
    rw [if_pos ⟨hlow, by omega⟩]
  refine primitive_reads (p := .date32) (fun row hrow => ?_) hcovers
  rcases row with _ | i | b
  · -- zeros stand for the first day of 1900
    have hnull : framed .date32 (payload .date32 none) = putLe (Int32.ofInt (-25567 + 25567)) := by
      decide
    rw [hnull]
    exact ⟨_, hread (-25567) (by decide) (by decide), rfl⟩
  · have hlow := (hwithin _ hrow).1
    have hhigh : i + 25567 < 2 ^ 31 := hpasses _ hrow
    exact ⟨_, hread i hlow hhigh, congrArg Leaf.number
      (Int32.toInt_ofInt_of_le hlow (hwithin _ hrow).2)⟩
  · exact absurd (hwithin _ hrow) id

theorem dateTime_reads {tz : Tz} {zone : Option String}
    (hwithin : ∀ v, some v ∈ rows → Within (.dateTime tz) v)
    (hcovers : Covers nulls rows.length) (hsize : rows.length * 4 ≤ isizeMax) :
    ReadsRows options (.dateTime tz) rows nulls
      (Primitive.deserializeAsync (.dateTime zone) rows.length nulls) := by
  refine number_reads (t := .dateTime tz) (p := .timestamp .second zone)
    (fun i => (Int64.ofInt i).toUInt64.toUInt32) (fun v => Int64.ofNat v.toNat) (fun _ h => h)
    hwithin (fun _ => rfl) ⟨rfl, rfl⟩ (fun i hi => ⟨rfl, congrArg Leaf.number ?_⟩) hcovers hsize
  have hword : (Int64.ofInt i).toUInt64.toUInt32.toNat = (i % 2 ^ 32).toNat := by
    rw [UInt64.toNat_toUInt32]
    show (BitVec.ofInt 64 i).toNat % 2 ^ 32 = _
    rw [BitVec.toNat_ofInt]
    omega
  show (Int64.ofNat (Int64.ofInt i).toUInt64.toUInt32.toNat).toInt = i % 2 ^ 32
  rw [hword, Int64.toInt_ofNat_of_lt (by omega)]
  omega

theorem dateTime64_reads {p : Nat} {tz : Tz} {zone : Option String} {unit : TimeUnit}
    (hwithin : ∀ v, some v ∈ rows → Within (.dateTime64 p tz) v)
    (hcovers : Covers nulls rows.length) (hsize : rows.length * 8 ≤ isizeMax) :
    ReadsRows options (.dateTime64 p tz) rows nulls
      (Primitive.deserializeAsync (instantBuilder zone unit) rows.length nulls) := by
  rw [Primitive.deserializeAsync_instant]
  exact number_reads (t := .dateTime64 p tz) (p := .timestamp unit zone) Int64.ofInt
    (fun v => v) (fun _ h => h) hwithin (finishPrimitive_plain (.timestamp unit zone)) ⟨rfl, rfl⟩
    (fun i hi => ⟨rfl, congrArg Leaf.number
      (Int64.toInt_ofInt_of_le (hwithin _ hi).1 (hwithin _ hi).2)⟩) hcovers hsize

/-- Strings, with their length before them. -/
theorem text_reads {finish : List (Option Bytes) → ArrowArray} {read : Reader ArrowError Bytes}
    (back : Bytes → Bytes) (hlength : lengthOf t = none) (hkind : ∀ i, ¬ Within t (.number i))
    (hwithin : ∀ v, some v ∈ rows → Within t v)
    (hfinish : ∀ values, leafRows (finish values) = values.map (Option.map Leaf.bytes))
    (hread : ∀ b : Bytes, b.length ≤ maxStringSize → Reads read (writeString b) (back b))
    (hwire : ∀ b, wireOf t (.bytes b) = b) (hnull : .bytes (back []) = readBack options t none)
    (hback : ∀ b, .bytes (back b) = readBack options t (some (.bytes b)))
    (hshort : ∀ b, some (.bytes b) ∈ rows → b.length ≤ maxStringSize)
    (hcovers : Covers nulls rows.length) :
    ReadsRows options t rows nulls (finish <$> optValues nulls read .ok 0 rows.length) := by
  have hframed : ∀ cell, framed t cell = writeString cell := fun cell => by
    rw [framed, hlength]
    rfl
  refine bytes_reads (back []) hkind hwithin hfinish ?_ (fun b hb => ?_) hcovers
  · have hpayload : payload t none = [] := by
      rw [payload, Option.elim_none, hlength]
      rfl
    rw [hframed, hpayload]
    exact ⟨hread [] (Nat.zero_le _), rfl, hnull⟩
  · rw [hframed, hwire]
    exact ⟨back b, hread b (hshort b hb), rfl, hback b⟩

/-- Bytes of a fixed length, that are read as they stand or in another order. -/
theorem fixed_reads {read : Reader ArrowError Bytes} {n : Nat} {size : Int32}
    (back : Bytes → Bytes) (hlength : lengthOf t = some n) (hn : size.toInt = n)
    (hkind : ∀ i, ¬ Within t (.number i)) (hwithin : ∀ v, some v ∈ rows → Within t v)
    (hbytes : ∀ b, Within t (.bytes b) → (wireOf t (.bytes b)).length = n)
    (hread : ∀ b : Bytes, b.length = n → Reads read b (back b))
    (hsame : ∀ b, (back b).length = b.length)
    (hnull : .bytes (back (List.replicate n 0)) = readBack options t none)
    (hback : ∀ b, .bytes (back (wireOf t (.bytes b))) = readBack options t (some (.bytes b)))
    (hcovers : Covers nulls rows.length) :
    ReadsRows options t rows nulls
      (finishFixed size <$> optValues nulls read (appendFixed size) 0 rows.length) := by
  have hframed : ∀ cell, framed t cell = cell := fun cell => by
    rw [framed, hlength]
    rfl
  have happend (b : Bytes) (hb : b.length = n) : appendFixed size (back b) = .ok (back b) := by
    rw [appendFixed, if_pos (by rw [hsame, hb, hn])]
  refine bytes_reads (back (List.replicate n 0)) hkind hwithin (leafRows_finishFixed size) ?_
    (fun b hb => ?_) hcovers
  · have hpayload : payload t none = List.replicate n 0 := by
      rw [payload, Option.elim_none, hlength]
      rfl
    have hzeros : (List.replicate n (0 : UInt8)).length = n := List.length_replicate
    rw [hframed, hpayload]
    exact ⟨hread _ hzeros, happend _ hzeros, hnull⟩
  · have hb := hbytes b (hwithin _ hb)
    rw [hframed]
    exact ⟨back (wireOf t (.bytes b)), hread _ hb, happend _ hb, hback b⟩

theorem takeExact_reads {n : Nat} {b : Bytes} (hb : b.length = n) :
    Reads (Reader.takeExact (eof .async) n) b b :=
  hb ▸ Reads.takeExact (eof .async) b

theorem ipv4_reads {b : Bytes} (hb : b.length = 4) :
    Reads (ipv4Octets <$> getLe UInt32 (eof .async)) b b.reverse := by
  have hword : putLe (UInt32.ofNat (ofLeBytes b)) = b := putLe_ofNat full_uint32 hb
  have hread := (Reads.getLe (eof .async) (UInt32.ofNat (ofLeBytes b))).map ipv4Octets
  rwa [ipv4Octets, hword] at hread

theorem stripNull_stringType (nullable : Bool) :
    (stringType nullable (textHint options)).stripNull = textHint options := by
  unfold textHint
  cases nullable <;> cases wantsStrings options <;> rfl

theorem readAs_nil (options : Option ArrowOptions) : readAs options [] = [] := by
  unfold readAs
  cases wantsStrings options <;> rfl

/-- The rows of every type are read from their bytes. -/
theorem leaf_reads (options : Option ArrowOptions) (json : Bytes → Bytes) {a : ArrowArray}
    (h : LeafColumn t a) (d : DataType)
    (hwithin : ∀ v, some v ∈ rows → Within t v) (hpasses : ∀ v, some v ∈ rows → Passes t v)
    (hshort : ∀ v, some v ∈ rows → Short t v) (hcovers : Covers nulls rows.length)
    (hsize : rows.length * (lengthOf t).getD 0 ≤ isizeMax) :
    ReadsRows options t rows nulls (deserializeArrowAsync json (leafHint options t)
      (leafBuilder options t) d rows.length nulls) := by
  cases h with
  | int8 =>
    exact number_reads (p := .int8) Int8.ofInt (fun v => v) (fun _ h => h) hwithin
      (finishPrimitive_plain .int8) ⟨rfl, rfl⟩ (fun i hi => ⟨rfl, congrArg Leaf.number
        (Int8.toInt_ofInt_of_le (hwithin _ hi).1 (hwithin _ hi).2)⟩) hcovers hsize
  | int16 =>
    exact number_reads (p := .int16) Int16.ofInt (fun v => v) (fun _ h => h) hwithin
      (finishPrimitive_plain .int16) ⟨rfl, rfl⟩ (fun i hi => ⟨rfl, congrArg Leaf.number
        (Int16.toInt_ofInt_of_le (hwithin _ hi).1 (hwithin _ hi).2)⟩) hcovers hsize
  | int32 =>
    exact number_reads (p := .int32) Int32.ofInt (fun v => v) (fun _ h => h) hwithin
      (finishPrimitive_plain .int32) ⟨rfl, rfl⟩ (fun i hi => ⟨rfl, congrArg Leaf.number
        (Int32.toInt_ofInt_of_le (hwithin _ hi).1 (hwithin _ hi).2)⟩) hcovers hsize
  | int64 =>
    exact number_reads (p := .int64) Int64.ofInt (fun v => v) (fun _ h => h) hwithin
      (finishPrimitive_plain .int64) ⟨rfl, rfl⟩ (fun i hi => ⟨rfl, congrArg Leaf.number
        (Int64.toInt_ofInt_of_le (hwithin _ hi).1 (hwithin _ hi).2)⟩) hcovers hsize
  | uint8 | boolean =>
    exact number_reads (p := .uint8) (fun i => UInt8.ofNat i.toNat) (fun v => v) (fun _ h => h)
      hwithin (finishPrimitive_plain .uint8) ⟨rfl, rfl⟩ (fun i hi => ⟨rfl, congrArg Leaf.number
        (unsigned_number UInt8.toNat_ofNat' (hwithin _ hi).1 (hwithin _ hi).2)⟩) hcovers hsize
  | uint16 =>
    exact number_reads (p := .uint16) (fun i => UInt16.ofNat i.toNat) (fun v => v) (fun _ h => h)
      hwithin (finishPrimitive_plain .uint16) ⟨rfl, rfl⟩ (fun i hi => ⟨rfl, congrArg Leaf.number
        (unsigned_number UInt16.toNat_ofNat' (hwithin _ hi).1 (hwithin _ hi).2)⟩) hcovers hsize
  | uint32 =>
    exact number_reads (p := .uint32) (fun i => UInt32.ofNat i.toNat) (fun v => v) (fun _ h => h)
      hwithin (finishPrimitive_plain .uint32) ⟨rfl, rfl⟩ (fun i hi => ⟨rfl, congrArg Leaf.number
        (unsigned_number UInt32.toNat_ofNat' (hwithin _ hi).1 (hwithin _ hi).2)⟩) hcovers hsize
  | float32 =>
    exact number_reads (p := .float32) (fun i => UInt32.ofNat i.toNat) (fun v => v) (fun _ h => h)
      hwithin (finishPrimitive_plain .float32) ⟨rfl, rfl⟩ (fun i hi => ⟨rfl, congrArg Leaf.number
        (unsigned_number UInt32.toNat_ofNat' (hwithin _ hi).1 (hwithin _ hi).2)⟩) hcovers hsize
  | uint64 =>
    exact number_reads (p := .uint64) (fun i => UInt64.ofNat i.toNat) (fun v => v) (fun _ h => h)
      hwithin (finishPrimitive_plain .uint64) ⟨rfl, rfl⟩ (fun i hi => ⟨rfl, congrArg Leaf.number
        (unsigned_number UInt64.toNat_ofNat' (hwithin _ hi).1 (hwithin _ hi).2)⟩) hcovers hsize
  | float64 =>
    exact number_reads (p := .float64) (fun i => UInt64.ofNat i.toNat) (fun v => v) (fun _ h => h)
      hwithin (finishPrimitive_plain .float64) ⟨rfl, rfl⟩ (fun i hi => ⟨rfl, congrArg Leaf.number
        (unsigned_number UInt64.toNat_ofNat' (hwithin _ hi).1 (hwithin _ hi).2)⟩) hcovers hsize
  -- The narrow decimals are read into 128 bits, which have room for them.
  | decimal32 =>
    exact narrow_reads (t := .decimal32 _) 9 9 Int32.ofInt Int32.toInt (by decide)
      (fun i hlow hhigh => Int32.toInt_ofInt_of_le (by omega) (by omega)) (fun _ => rfl)
      (fun _ h => h) hwithin (fun i hi => hpasses _ hi) ⟨rfl, rfl⟩ (fun i => ⟨rfl, rfl⟩) hcovers hsize
  | decimal64 =>
    exact narrow_reads (t := .decimal64 _) 18 18 Int64.ofInt Int64.toInt (by decide)
      (fun i hlow hhigh => Int64.toInt_ofInt_of_le (by omega) (by omega)) (fun _ => rfl)
      (fun _ h => h) hwithin (fun i hi => hpasses _ hi) ⟨rfl, rfl⟩ (fun i => ⟨rfl, rfl⟩) hcovers hsize
  | decimal128 => exact decimal128_reads hwithin hcovers
  | decimal256 => exact decimal256_reads hwithin hcovers
  | date => exact date_reads hpasses hwithin hcovers hsize
  | date32 => exact date32_reads hpasses hwithin hcovers
  | dateTime => exact dateTime_reads hwithin hcovers hsize
  | dateTime64 => exact dateTime64_reads hwithin hcovers hsize
  | string =>
    -- The options say whether a string is read as text or as bytes.
    have hdecode := @decode_strings options json false d rows.length nulls
    rw [stripNull_stringType] at hdecode
    show ReadsRows options .string rows nulls (deserializeArrowAsync json (textHint options)
      (textBuilder options) d rows.length nulls)
    rw [hdecode]
    exact text_reads (t := .string) (readAs options) rfl (fun _ h => h) hwithin
      (leafRows_finishBytes _) (fun _ hb => readStringAs_reads hb) (fun _ => rfl)
      (congrArg Leaf.bytes (readAs_nil options)) (fun _ => rfl) (fun b hb => hshort _ hb) hcovers
  | binary =>
    exact text_reads (t := .binary) id rfl (fun _ h => h) hwithin (leafRows_finishBytes _)
      (fun b hb => (readString_reads .async b hb).mapError _) (fun _ => rfl) rfl (fun _ => rfl)
      (fun b hb => hshort _ hb) hcovers
  | @fixedSizedString n size _ _ hfixed =>
    have hn := size.toInt_lt
    rw [hfixed.1] at hn
    exact fixed_reads (t := .fixedSizedString n) id rfl
      (Int32.toInt_ofNat_of_lt (by omega)) (fun _ h => h) hwithin (fun _ h => h)
      (fun _ hb => readBuffer_reads .async (by unfold isizeMax; omega) hb) (fun _ => rfl) rfl
      (fun _ => rfl) hcovers
  | @fixedSizedBinary n size _ _ hfixed =>
    have hn := size.toInt_lt
    rw [hfixed.1] at hn
    exact fixed_reads (t := .fixedSizedBinary n) id rfl
      (Int32.toInt_ofNat_of_lt (by omega)) (fun _ h => h) hwithin (fun _ h => h)
      (fun _ hb => readBuffer_reads .async (by unfold isizeMax; omega) hb) (fun _ => rfl) rfl
      (fun _ => rfl) hcovers
  -- The four bytes of an address come out in the other order.
  | ipv4 =>
    exact fixed_reads (t := .ipv4) List.reverse rfl rfl (fun _ h => h) hwithin (fun _ h => h)
      (fun _ hb => ipv4_reads hb) (fun b => b.length_reverse) rfl (fun _ => rfl) hcovers
  | ipv6 =>
    exact fixed_reads (t := .ipv6) id rfl rfl (fun _ h => h) hwithin (fun _ h => h)
      (fun _ hb => takeExact_reads hb) (fun _ => rfl) rfl (fun _ => rfl) hcovers
  | uuid =>
    refine fixed_reads (t := .uuid) id rfl rfl (fun _ h => h) hwithin (fun b hb => ?_)
      (fun _ hb => takeExact_reads hb) (fun _ => rfl) rfl (fun _ => rfl) hcovers
    have hlength : b.length = 16 := hb
    show (b.drop 8 ++ b.take 8).length = 16
    rw [List.length_append, List.length_drop, List.length_take]
    omega
  | int128 =>
    exact fixed_reads (t := .int128) id rfl rfl (fun _ h => h) hwithin (fun _ h => h)
      (fun _ hb => takeExact_reads hb) (fun _ => rfl) rfl (fun _ => rfl) hcovers
  | uint128 =>
    exact fixed_reads (t := .uint128) id rfl rfl (fun _ h => h) hwithin (fun _ h => h)
      (fun _ hb => takeExact_reads hb) (fun _ => rfl) rfl (fun _ => rfl) hcovers
  -- The writer turns the digits round, and so does the reader.
  | int256 =>
    exact fixed_reads (t := .int256) List.reverse rfl rfl (fun _ h => h) hwithin
      (fun b hb => b.length_reverse.trans hb) (fun _ hb => (takeExact_reads hb).map List.reverse)
      (fun b => b.length_reverse) rfl (fun b => congrArg Leaf.bytes b.reverse_reverse) hcovers
  | uint256 =>
    exact fixed_reads (t := .uint256) List.reverse rfl rfl (fun _ h => h) hwithin
      (fun b hb => b.length_reverse.trans hb) (fun _ hb => (takeExact_reads hb).map List.reverse)
      (fun b => b.length_reverse) rfl (fun b => congrArg Leaf.bytes b.reverse_reverse) hcovers

/-! ## Strings that are too long -/

/-- A string that is too long stops the reader of the rows. -/
theorem text_stuck {finish : List (Option Bytes) → ArrowArray} {read : Reader ArrowError Bytes}
    (back : Bytes → Bytes) (hlength : lengthOf t = none) (hwire : ∀ b, wireOf t (.bytes b) = b)
    (hkind : ∀ i, ¬ Within t (.number i)) (hwithin : ∀ v, some v ∈ rows → Within t v)
    (hread : ∀ b : Bytes, b.length ≤ maxStringSize → Reads read (writeString b) (back b))
    (hstuck : ∀ b : Bytes, maxStringSize < b.length → b.length < 2 ^ 63 →
      Stuck read (writeString b))
    (haddressed : ∀ b, some (.bytes b) ∈ rows → b.length < 2 ^ 63) {b : Bytes}
    (hb : some (.bytes b) ∈ rows) (hlong : maxStringSize < b.length) :
    Stuck (finish <$> optValues nulls read .ok 0 rows.length) (cellBytes t rows) := by
  have henc (row : Option Leaf) (hrow : row ∈ rows) : ∃ cell,
      framed t (payload t row) = writeString cell ∧ cell.length < 2 ^ 63 := by
    rcases row with _ | i | b
    · refine ⟨[], ?_, by decide⟩
      rw [payload, Option.elim_none, hlength, framed, hlength]
      rfl
    · exact absurd (hwithin _ hrow) (hkind i)
    · refine ⟨b, ?_, haddressed b hrow⟩
      rw [payload, Option.elim_some, hwire, framed, hlength]
      rfl
  choose! cell hframed hcell using henc
  have hlast : Stuck read (framed t (payload t (some (.bytes b)))) := by
    rw [payload, Option.elim_some, hwire, framed, hlength]
    exact hstuck b hlong (haddressed b hb)
  rw [cellBytes, List.flatMap_map]
  have hrows (row : Option Leaf) (hrow : row ∈ rows) :
      Reads read (framed t (payload t row)) (back (cell row)) ∧
          (Except.ok (back (cell row)) : ArrowResult Bytes) = .ok (back (cell row)) ∨
        Stuck read (framed t (payload t row)) := by
    rw [hframed row hrow]
    rcases Nat.lt_or_ge maxStringSize (cell row).length with hlong | hshort
    · exact .inr (hstuck _ hlong (hcell row hrow))
    · exact .inl ⟨hread _ hshort, rfl⟩
  exact Stuck.map (optValues_stuck hrows ⟨_, hb, hlast⟩) finish

/-- Only the strings can be too long. -/
theorem leaf_stuck (options : Option ArrowOptions) (json : Bytes → Bytes) (nulls : Bytes)
    {a : ArrowArray} (h : LeafColumn t a) (d : DataType)
    (hwithin : ∀ v, some v ∈ rows → Within t v)
    (haddressed : ∀ b, some (.bytes b) ∈ rows → b.length < 2 ^ 63) {v : Leaf} (hv : some v ∈ rows)
    (hlong : ¬ Short t v) :
    Stuck (deserializeArrowAsync json (leafHint options t) (leafBuilder options t) d rows.length
      nulls) (cellBytes t rows) := by
  cases h with
  | string =>
    have hdecode := @decode_strings options json false d rows.length nulls
    rw [stripNull_stringType] at hdecode
    show Stuck (deserializeArrowAsync json (textHint options) (textBuilder options) d rows.length
      nulls) _
    rw [hdecode]
    cases v with
    | number i => exact absurd trivial hlong
    | bytes b =>
      exact text_stuck (t := .string) (readAs options) rfl (fun _ => rfl) (fun _ h => h) hwithin
        (fun _ hb => readStringAs_reads hb) (fun _ => readStringAs_stuck) haddressed hv
        (Nat.not_le.mp hlong)
  | binary =>
    cases v with
    | number i => exact absurd trivial hlong
    | bytes b =>
      exact text_stuck (t := .binary) id rfl (fun _ => rfl) (fun _ h => h) hwithin
        (fun b hb => (readString_reads .async b hb).mapError _)
        (fun _ hlong hlength => (readString_stuck .async hlong hlength).mapError _) haddressed hv
        (Nat.not_le.mp hlong)
  | _ => cases v <;> exact absurd trivial hlong

end Readers

end Arrow

end ClickhouseArrow
