import ClickhouseArrow.Native.Deserialize
import ClickhouseArrow.Native.Validate

/-!
# Columns of single entries

The columns whose entries stand on the wire one after the other: the fixed-size types,
the strings and JSON.  For these the column codec is the entry codec repeated, and the
entry reader takes back what the entry writer put.
-/

namespace ClickhouseArrow

open Wire

namespace ChType

def isGeo : ChType → Bool
  | .point | .ring | .polygon | .multiPolygon => true
  | _ => false

/-- A column of the type is its entries, one after the other. -/
def isEntry (t : ChType) : Bool := !t.isComposite && !t.isGeo

/-- The entry writer that `serialize_column` chooses for the type. -/
def writeEntry : ChType → Value → Result Bytes
  | .string => StringSerializer.writeEntry .string
  | .fixedSizedString n => StringSerializer.writeEntry (.fixedSizedString n)
  | .binary => StringSerializer.writeEntry .binary
  | .fixedSizedBinary n => StringSerializer.writeEntry (.fixedSizedBinary n)
  | .object => ObjectSerializer.writeEntry .object
  | t => SizedSerializer.writeEntry t

/-- The entry reader that `deserialize_column` chooses for the type. -/
def readEntry (m : Mode) : ChType → Reader Error Value
  | .string => StringDeserializer.readEntry m .string
  | .fixedSizedString n => StringDeserializer.readEntry m (.fixedSizedString n)
  | .binary => StringDeserializer.readEntry m .binary
  | .fixedSizedBinary n => StringDeserializer.readEntry m (.fixedSizedBinary n)
  | .object => ObjectDeserializer.readEntry m
  | t => SizedDeserializer.readEntry m t

theorem serializeColumn_entry {t : ChType} (h : t.isEntry = true) (column : List Value) :
    t.serializeColumn column = Outcome.emit t.writeEntry column := by
  cases t <;> first | rfl | simp [isEntry, isComposite, isGeo] at h

theorem readColumn_entry (m : Mode) {t : ChType} (h : t.isEntry = true) (rows : Nat) :
    t.readColumn m rows = guardRows rows (Reader.readMany (t.readEntry m) rows) := by
  cases t <;> first | rfl | simp [isEntry, isComposite, isGeo] at h

end ChType

/-! ## What an entry reads back as -/

/-- The bytes of a string value, of an array of bytes or of an object. -/
def Value.stringBytes : Value → Bytes
  | .string bytes => bytes
  | .array items => items.filterMap StringSerializer.itemByte
  | .object bytes => bytes
  | _ => []

namespace ChType

/-- The value that an entry reads back as: an array of bytes becomes the string, a
fixed-size string ends before its first zero, an enum index gets its declared label. -/
def entryBack : ChType → Value → Value
  | .string, v => .string v.stringBytes
  | .fixedSizedString _, v => .string (v.stringBytes.takeWhile (· ≠ 0))
  | .enum8 entries, .enum8 _ index =>
      .enum8 ((SizedDeserializer.lookup entries index).getD "") index
  | .enum16 entries, .enum16 _ index =>
      .enum16 ((SizedDeserializer.lookup entries index).getD "") index
  | _, v => v

/-- A null can stand in a column of the type: what is written for it, the default of the
type, is an entry of the type. -/
def hasPlaceholder : ChType → Bool
  | .enum8 entries => entries.any fun x => x.2 == 0
  | .enum16 entries => entries.any fun x => x.2 == 0
  -- The default is written as a string of length zero, which is one byte.
  | .fixedSizedBinary n => n == 1
  | t => t.isEntry

/-- The limits of a single entry: the reader refuses longer strings, a fixed-size string
holds what fits its size, and a decimal carries the scale of its column. -/
def EntryFits : ChType → Value → Prop
  | .string, v => v.stringBytes.length ≤ maxStringSize
  | .object, v => v.stringBytes.length ≤ maxStringSize
  | .fixedSizedString n, v => n ≤ isizeMax ∧ v.stringBytes.length ≤ n
  | .fixedSizedBinary n, _ => n ≤ isizeMax
  | .decimal32 scale, .decimal32 s _ => s = scale
  | .decimal64 scale, .decimal64 s _ => s = scale
  | .decimal128 scale, .decimal128 s _ => s = scale
  | .decimal256 scale, .decimal256 s _ => s = scale
  | _, _ => True

end ChType

/-! ## Round trip of single entries -/

/-- Writing an entry and reading it back. -/
def EntryRoundTrip (m : Mode) (t : ChType) (v : Value) : Prop :=
  ∃ bytes, t.writeEntry v = .ok bytes ∧
    Reads (t.readEntry m) bytes (t.entryBack (v.justifyNullRef t))

theorem read256_reads (m : Mode) (x : Octets 32) :
    Reads (SizedDeserializer.read256 m) (SizedSerializer.swapEndian256 x).bytes x := by
  have h := (Reads.getOctets m.eof (SizedSerializer.swapEndian256 x)).map Octets.reverse
  rwa [SizedSerializer.swapEndian256, Octets.reverse_reverse] at h

theorem takeWhile_append_replicate_zero (bytes : Bytes) (n : Nat) :
    (bytes ++ List.replicate n 0).takeWhile (· ≠ 0) = bytes.takeWhile (· ≠ 0) := by
  induction bytes with
  | nil => cases n <;> simp [List.replicate_succ]
  | cons b bytes ih =>
      by_cases hb : b = 0
      · simp [hb]
      · simp only [List.cons_append, List.takeWhile_cons, ih]

theorem fixedSizedString_reads (m : Mode) {n : Nat} {bytes : Bytes} (hn : n ≤ isizeMax)
    (hbytes : bytes.length ≤ n) :
    Reads (StringDeserializer.readFixed m n)
      (StringSerializer.emitBytes (.fixedSizedString n) bytes)
      (.string (bytes.takeWhile (· ≠ 0))) := by
  -- Cut or padded, the bytes on the wire are the string and zeros.
  have hpadded : StringSerializer.emitBytes (.fixedSizedString n) bytes =
      bytes ++ List.replicate (n - bytes.length) 0 := by
    simp only [StringSerializer.emitBytes]
    split
    · next hle => 
        have heq : n = bytes.length := Nat.le_antisymm hle hbytes
        simp [heq]
    · rfl
  have hcut : (bytes ++ List.replicate (n - bytes.length) 0).takeWhile (· ≠ 0) =
      bytes.takeWhile (· ≠ 0) := by
    exact takeWhile_append_replicate_zero bytes _
  have htake := Reads.takeExact m.eof (bytes ++ List.replicate (n - bytes.length) 0)
  rw [List.length_append, List.length_replicate, Nat.add_sub_cancel' hbytes] at htake
  rw [StringDeserializer.readFixed, if_neg (Nat.not_lt.mpr hn), hpadded, ← hcut]
  exact htake.bind_nil (Reads.pure _)

/-- A string column holds strings and arrays of bytes; either is written by its bytes. -/
theorem StringSerializer.writeEntry_eq {t : ChType} {v : Value} {bytes : Bytes}
    (hv : v.justifyNullRef t = .string bytes ∨
      ∃ items, v.justifyNullRef t = .array items ∧ items.filterMap itemByte = bytes) :
    StringSerializer.writeEntry t v = .ok (emitBytes t bytes) := by
  obtain hstring | ⟨items, harray, rfl⟩ := hv
  · rw [StringSerializer.writeEntry, hstring]
  · rw [StringSerializer.writeEntry, harray]

theorem string_cases {t : ChType} {v : Value} (ht : t = .string ∨ ∃ n, t = .fixedSizedString n)
    (hv : v = .null ∧ t.hasPlaceholder = true ∨ t.accepts v = true) :
    v.justifyNullRef t = .string v.stringBytes ∨
      ∃ items, v.justifyNullRef t = .array items ∧
        items.filterMap StringSerializer.itemByte = v.stringBytes := by
  obtain ⟨rfl, -⟩ | haccepts := hv
  · left
    obtain rfl | ⟨n, rfl⟩ := ht <;> rfl
  · obtain rfl | ⟨n, rfl⟩ := ht <;> cases v <;> simp [ChType.accepts] at haccepts
    · exact .inl rfl
    · exact .inr ⟨_, rfl, rfl⟩
    · exact .inl rfl
    · exact .inr ⟨_, rfl, rfl⟩

theorem stringBytes_justifyNullRef {t : ChType} {v : Value}
    (h : v.justifyNullRef t = .string v.stringBytes ∨
      ∃ items, v.justifyNullRef t = .array items ∧
        items.filterMap StringSerializer.itemByte = v.stringBytes) :
    (v.justifyNullRef t).stringBytes = v.stringBytes := by
  obtain h | ⟨items, h, hbytes⟩ := h
  · rw [h]; rfl
  · rw [h]; exact hbytes

/-- The arm of an enum: a declared index is read back with its label. -/
theorem index_roundTrip {ι : Type} [Word ι] [DecidableEq ι] {m : Mode} {t : ChType} {v : Value}
    {entries : List (String × ι)} {index : ι} {found : String → ι → Value} {refused : ι → Error}
    (hwrite : t.writeEntry v = .ok (putLe index))
    (hread : t.readEntry m = SizedDeserializer.readIndex m entries found refused)
    (hback : t.entryBack (v.justifyNullRef t) =
      found ((SizedDeserializer.lookup entries index).getD "") index)
    (hdeclared : (entries.any fun x => x.2 == index) = true) : EntryRoundTrip m t v := by
  rw [EntryRoundTrip, hread, hback]
  refine ⟨_, hwrite, (Reads.getLe m.eof index).bind_nil ?_⟩
  have hsome := SizedDeserializer.isSome_lookup entries index
  cases hlookup : SizedDeserializer.lookup entries index with
  | some label => exact Reads.pure _
  | none =>
    rw [hlookup] at hsome
    exact absurd (hsome.trans hdeclared) (by simp)

theorem entry_roundTrip (m : Mode) {t : ChType} {v : Value} (hentry : t.isEntry = true)
    (hv : v = .null ∧ t.hasPlaceholder = true ∨ t.accepts v = true) (hfits : t.EntryFits v) :
    EntryRoundTrip m t v := by
  -- A null is written as the placeholder of its type, any other value as itself.
  cases t
  case nullable | lowCardinality | array | tuple | map | point | ring | polygon | multiPolygon =>
    simp [ChType.isEntry, ChType.isComposite, ChType.isGeo] at hentry
  case int8 | int16 | int32 | int64 | int128 | uint8 | uint16 | uint32 | uint64 | uint128
      | float32 | float64 | decimal32 | decimal64 | decimal128 | date | date32 | ipv4 =>
    obtain ⟨rfl, -⟩ | haccepts := hv
    · exact ⟨_, rfl, (Reads.getLe m.eof _).map _⟩
    · cases v <;> simp [ChType.accepts] at haccepts
      simp only [ChType.EntryFits] at hfits
      try subst hfits
      exact ⟨_, rfl, (Reads.getLe m.eof _).map _⟩
  case int256 | uint256 | decimal256 =>
    obtain ⟨rfl, -⟩ | haccepts := hv
    · exact ⟨_, rfl, (read256_reads m _).map _⟩
    · cases v <;> simp [ChType.accepts] at haccepts
      simp only [ChType.EntryFits] at hfits
      try subst hfits
      exact ⟨_, rfl, (read256_reads m _).map _⟩
  case dateTime | dateTime64 =>
    obtain ⟨rfl, -⟩ | haccepts := hv
    · exact ⟨_, rfl, (Reads.getLe m.eof _).map _⟩
    · cases v <;> simp [ChType.accepts] at haccepts
      try obtain ⟨rfl, rfl⟩ := haccepts
      try subst haccepts
      exact ⟨_, rfl, (Reads.getLe m.eof _).map _⟩
  case uuid =>
    -- The two halves are written and read one after the other.
    have hread : ∀ x : BitVec 128, EntryRoundTrip m .uuid (.uuid x) := by
      intro x
      refine ⟨_, rfl, (Reads.getLe m.eof _).bind ((Reads.getLe m.eof _).bind_nil ?_)⟩
      change Reads _ [] (Value.uuid x)
      rw [halves128 x]
      exact Reads.pure _
    obtain ⟨rfl, -⟩ | haccepts := hv
    · exact hread 0
    · cases v <;> simp [ChType.accepts] at haccepts
      exact hread _
  case ipv6 =>
    obtain ⟨rfl, -⟩ | haccepts := hv
    · exact ⟨_, rfl, (Reads.getOctets m.eof _).map _⟩
    · cases v <;> simp [ChType.accepts] at haccepts
      exact ⟨_, rfl, (Reads.getOctets m.eof _).map _⟩
  case enum8 entries =>
    obtain ⟨rfl, hplaceholder⟩ | haccepts := hv
    · exact index_roundTrip rfl rfl rfl hplaceholder
    · cases v <;> simp only [ChType.accepts, Bool.false_eq_true] at haccepts
      exact index_roundTrip rfl rfl rfl haccepts
  case enum16 entries =>
    obtain ⟨rfl, hplaceholder⟩ | haccepts := hv
    · exact index_roundTrip rfl rfl rfl hplaceholder
    · cases v <;> simp only [ChType.accepts, Bool.false_eq_true] at haccepts
      exact index_roundTrip rfl rfl rfl haccepts
  case string =>
    have hbytes := string_cases (.inl rfl) hv
    refine ⟨_, StringSerializer.writeEntry_eq hbytes, ?_⟩
    rw [ChType.entryBack, stringBytes_justifyNullRef hbytes]
    exact (readString_reads m _ hfits).map _
  case fixedSizedString n =>
    have hbytes := string_cases (.inr ⟨n, rfl⟩) hv
    refine ⟨_, StringSerializer.writeEntry_eq hbytes, ?_⟩
    rw [ChType.entryBack, stringBytes_justifyNullRef hbytes]
    exact fixedSizedString_reads m hfits.1 hfits.2
  case binary =>
    obtain ⟨rfl, -⟩ | haccepts := hv
    · exact ⟨_, rfl, (readString_reads m [] (by decide)).map _⟩
    · cases v <;> simp [ChType.accepts] at haccepts
  case fixedSizedBinary n =>
    obtain ⟨rfl, hplaceholder⟩ | haccepts := hv
    · have hn : n = 1 := by simpa [ChType.hasPlaceholder] using hplaceholder
      subst hn
      exact ⟨_, rfl, fun _ => rfl⟩
    · cases v <;> simp [ChType.accepts] at haccepts
  case object =>
    obtain ⟨rfl, -⟩ | haccepts := hv
    · exact ⟨_, rfl, (readString_reads m [0x7B, 0x7D] (by decide)).map _⟩
    · cases v <;> simp [ChType.accepts] at haccepts

end ClickhouseArrow
