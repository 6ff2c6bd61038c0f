import ClickhouseArrow.Native.Block
import ClickhouseArrow.Native.NameRoundTrip
import ClickhouseArrow.Native.RoundTrip

/-!
# Round trip of a block

A block whose columns can be stored, and whose flags are read where they are written, is
read back with the values in the form that the column readers give them and with its info
marked: the writer marks a block without overflows with a 2, and the reader takes every
mark but 0 for overflows.
-/

namespace ClickhouseArrow

open Wire

/-! ## Strings -/

theorem fromUtf8_utf8Bytes (s : String) : fromUtf8 (utf8Bytes s) = .ok s := by
  have hbytes : (⟨(utf8Bytes s).toArray⟩ : ByteArray) = s.toByteArray := by
    simp [utf8Bytes]
  rw [fromUtf8, hbytes]
  simp [String.fromUTF8?, s.isValidUTF8, String.fromUTF8]

theorem readUtf8String_reads (m : Mode) {s : String} (h : (utf8Bytes s).length ≤ maxStringSize) :
    Reads (readUtf8String m) (writeString (utf8Bytes s)) s :=
  (readString_reads m _ h).bind_nil (Reads.ofOutcome (fromUtf8_utf8Bytes s))

/-- A name that is too long is not read back. -/
theorem readUtf8String_stuck (m : Mode) {s : String} (hlong : maxStringSize < (utf8Bytes s).length)
    (hle : (utf8Bytes s).length ≤ isizeMax) :
    Stuck (readUtf8String m) (writeString (utf8Bytes s)) :=
  (readString_stuck m hlong (hle.trans_lt (by decide))).bind _

/-! ## Block info -/

namespace BlockInfo

/-- The info as it is read back. -/
def readBack (info : BlockInfo) : BlockInfo := { info with isOverflows := true }

theorem readFields_reads (m : Mode) (info : BlockInfo) (fuel : Nat) :
    Reads (readFields m (fuel + 3) initial) info.write info.readBack := by
  have hfield : ∀ n, n < 3 → Reads (readVarUint m) (writeVarUint n) n := fun n hn =>
    readVarUint_reads m (hn.trans (by decide))
  have hmark : ∀ b : Bool, decide ((if b then 1 else 2 : UInt8) ≠ 0) = true := by decide
  refine (hfield 1 (by decide)).bind ?_
  refine (Reads.getLe m.eof (if info.isOverflows then 1 else 2 : UInt8)).bind ?_
  refine (hfield 2 (by decide)).bind ?_
  refine (Reads.getLe m.eof info.bucketNum).bind ?_
  refine (hfield 0 (by decide)).bind_nil ?_
  simp only [hmark]
  exact Reads.pure _

theorem read_reads (m : Mode) (info : BlockInfo) : Reads (read m) info.write info.readBack := by
  intro rest
  have hlength : 3 ≤ (info.write ++ rest).length + 1 := by
    have hnil : ∀ n, writeVarUint n ≠ [] := fun n => leb128_ne_nil 8 n
    have h1 := List.length_pos_iff.mpr (hnil 1)
    have h2 := List.length_pos_iff.mpr (hnil 2)
    simp only [write, List.length_append]
    omega
  have hread := readFields_reads m info ((info.write ++ rest).length + 1 - 3) rest
  rwa [Nat.sub_add_cancel hlength] at hread

end BlockInfo

/-! ## Columns -/

namespace Block

variable {lex : Lexicon}

/-- A column name and a type that the reader takes back. -/
structure NamesFit (lex : Lexicon) (column : String × ChType) : Prop where
  nameable : column.2.Nameable lex
  name : (utf8Bytes column.1).length ≤ maxStringSize
  typeName : (utf8Bytes (String.ofList column.2.display)).length ≤ maxStringSize

/-- The values of a column are accepted by its type and storable at every depth. -/
structure ValuesFit (t : ChType) (values : List Value) : Prop where
  valid : t.validate = .ok ()
  accepted : ∀ v ∈ values, t.validateValue v = .ok ()
  storable : t.EveryColumn ChType.Storable values

/-- The data holds `rows` values for every column, and where there are rows they fit. -/
def DataFits (rows : Nat) : List (String × ChType) → List Value → Prop
  | [], data => data = []
  | (_, t) :: columns, data =>
      rows ≤ data.length ∧ (0 < rows → ValuesFit t (data.take rows)) ∧
        DataFits rows columns (data.drop rows)

/-- The data as it is read back. -/
def dataBack (rows : Nat) : List (String × ChType) → List Value → List Value
  | [], _ => []
  | (_, t) :: columns, data => (data.take rows).map t.readBack ++ dataBack rows columns (data.drop rows)

/-- Every value is in the form in which the reader of its column returns it. -/
def Settled (rows : Nat) : List (String × ChType) → List Value → Prop
  | [], _ => True
  | (_, t) :: columns, data =>
      (∀ v ∈ data.take rows, t.readBack v = v) ∧ Settled rows columns (data.drop rows)

theorem dataBack_eq_iff {rows : Nat} {columns : List (String × ChType)} {data : List Value}
    (hdata : DataFits rows columns data) :
    dataBack rows columns data = data ↔ Settled rows columns data := by
  induction columns generalizing data with
  | nil =>
      obtain rfl : data = [] := hdata
      exact iff_of_true rfl trivial
  | cons column columns ih =>
      obtain ⟨hlen, -, hrest⟩ := hdata
      have hmap : (data.take rows).map column.2.readBack = data.take rows ↔
          ∀ v ∈ data.take rows, column.2.readBack v = v := by
        simpa using List.map_inj_left (l := data.take rows) (f := column.2.readBack) (g := id)
      rw [dataBack, Settled, ← ih hrest, ← hmap]
      constructor
      · intro h
        have hsplit := h.trans (List.take_append_drop rows data).symm
        exact List.append_inj hsplit (by simp)
      · rintro ⟨hhead, htail⟩
        rw [hhead, htail, List.take_append_drop]

/-- The reader of the mode takes back the columns of a block. -/
def Readable (m : Mode) (rows : Nat) : List (String × ChType) → List Value → Prop
  | [], _ => True
  | (_, t) :: columns, data =>
      (0 < rows → m = .async ∨ t.EveryColumn ChType.SyncReadable (data.take rows)) ∧
        Readable m rows columns (data.drop rows)

theorem readable_async (rows : Nat) (columns : List (String × ChType)) (data : List Value) :
    Readable .async rows columns data := by
  induction columns generalizing data with
  | nil => trivial
  | cons column columns ih => exact ⟨fun _ => .inl rfl, ih _⟩

theorem readValues_reads {m : Mode} {t : ChType} {values : List Value} (h : ValuesFit t values)
    (hmode : m = .async ∨ t.EveryColumn ChType.SyncReadable values) :
    ∃ bytes, t.serializeColumn values = .ok bytes ∧
      Reads (do
        t.deserializePrefix m
        t.readColumn m values.length) (t.serializePrefix ++ bytes) (values.map t.readBack) := by
  have hheld : ∀ v ∈ values, Held t v := fun v hv =>
    .inr (ChType.validateValue_eq_ok.mp (h.accepted v hv)).2
  obtain ⟨bytes, hwrite, hread⟩ := ChType.column_roundTrip m t h.valid values hheld h.storable
    hmode
  exact ⟨bytes, hwrite, (ChType.prefix_reads m t).bind hread⟩

/-- The flag is read exactly where it is written. -/
def FlagAgrees (revision rows columns : Nat) : Prop :=
  0 < rows ∨ columns = 0 ∨ revision < minRevisionWithCustomSerialization

theorem readFlag_reads (m : Mode) (revision : Nat) :
    Reads (readFlag m revision)
      (if minRevisionWithCustomSerialization ≤ revision then putLe (0 : UInt8) else []) () := by
  unfold readFlag
  split
  · exact (Reads.getLe m.eof (0 : UInt8)).bind_nil (Reads.pure ())
  · exact Reads.pure ()

/-- The body of a column is read back, flag and values. -/
theorem body_reads {m : Mode} (revision : Nat) {rows : Nat} {t : ChType} {data : List Value}
    (hlen : rows ≤ data.length) (hfits : 0 < rows → ValuesFit t (data.take rows))
    (hflag : 0 < rows ∨ revision < minRevisionWithCustomSerialization)
    (hmode : 0 < rows → m = .async ∨ t.EveryColumn ChType.SyncReadable (data.take rows)) :
    ∃ flag body, writeBody revision rows t (data.take rows) = .ok (flag ++ body) ∧
      Reads (readFlag m revision) flag () ∧
      Reads (readValues m t rows) body ((data.take rows).map t.readBack) := by
  by_cases hrows : 0 < rows
  · obtain ⟨bytes, hwrite, hread⟩ := readValues_reads (hfits hrows) (hmode hrows)
    refine ⟨_, t.serializePrefix ++ bytes, ?_, readFlag_reads m revision, ?_⟩
    · rw [writeBody, if_pos hrows, hwrite]
      rfl
    · rw [List.length_take, Nat.min_eq_left hlen] at hread
      rw [readValues, if_pos hrows]
      exact hread
  · have hold := hflag.resolve_left hrows
    refine ⟨[], [], ?_, ?_, ?_⟩
    · rw [writeBody, if_neg hrows]
      rfl
    · rw [readFlag, if_neg (by omega)]
      exact Reads.pure ()
    · rw [readValues, if_neg hrows]
      have hzero : rows = 0 := by omega
      simpa [hzero] using Reads.pure ([] : List Value)

theorem columns_reads {m : Mode} (revision : Nat) {rows : Nat} {columns : List (String × ChType)}
    (hnames : ∀ column ∈ columns, NamesFit lex column)
    (hflag : FlagAgrees revision rows columns.length) {data : List Value}
    (hdata : DataFits rows columns data) (hmode : Readable m rows columns data) :
    ∃ bytes, writeColumns revision rows columns data = .ok bytes ∧
      Reads (readColumns lex m revision rows columns.length) bytes
        (columns, dataBack rows columns data) := by
  induction columns generalizing data with
  | nil =>
      obtain rfl : data = [] := hdata
      exact ⟨[], rfl, Reads.pure _⟩
  | cons column columns ih =>
      obtain ⟨name, t⟩ := column
      obtain ⟨hlen, hfits, hrest⟩ := hdata
      obtain ⟨hnameable, hname, htypeName⟩ := hnames (name, t) List.mem_cons_self
      -- There is a column, so the flag is written where it is read.
      have hflag' : 0 < rows ∨ revision < minRevisionWithCustomSerialization := by
        rcases hflag with hrows | hnone | hold
        · exact .inl hrows
        · simp at hnone
        · exact .inr hold
      have hparse := ChType.fromStr_display hnameable
      obtain ⟨flag, body, hwrite, hreadFlag, hreadBody⟩ :=
        body_reads revision hlen hfits hflag' hmode.1
      obtain ⟨rest, hwriteRest, hreadRest⟩ := ih
        (fun c hc => hnames c (List.mem_cons_of_mem _ hc))
        (hflag'.elim .inl fun hold => .inr (.inr hold)) hrest hmode.2
      refine ⟨writeString (utf8Bytes name) ++
        (writeString (utf8Bytes (String.ofList t.display)) ++ (flag ++ (body ++ rest))), ?_, ?_⟩
      · rw [writeColumns, if_neg (Nat.not_lt.mpr hlen), hwrite, Outcome.ok_bind, hwriteRest]
        simp
      · refine (readUtf8String_reads m hname).bind ?_
        refine (readUtf8String_reads m htypeName).bind ?_
        refine hreadFlag.bind ?_
        rw [String.toList_ofList, hparse]
        refine (Reads.pure t).bind (s := []) ?_
        refine hreadBody.bind ?_
        exact hreadRest.bind_nil (Reads.pure _)

/-! ## Blocks -/

/-- A block whose counts and columns the reader takes back. -/
structure Fits (lex : Lexicon) (b : Block) : Prop where
  columns : b.columnTypes.length < 2 ^ 63
  rows : b.rows.toNat < 2 ^ 63
  names : ∀ column ∈ b.columnTypes, NamesFit lex column
  data : DataFits b.rows.toNat b.columnTypes b.columnData

/-- The info as it is read back: it is marked, and at revision zero it is not written. -/
def infoBack (revision : Nat) (info : BlockInfo) : BlockInfo :=
  if 0 < revision then info.readBack else BlockInfo.initial

theorem info_reads (m : Mode) (revision : Nat) (info : BlockInfo) :
    Reads (readInfo m revision) (if 0 < revision then info.write else [])
      (infoBack revision info) := by
  unfold readInfo infoBack
  split
  · exact BlockInfo.read_reads m info
  · exact Reads.pure _

theorem read_reads {m : Mode} {b : Block} {revision : Nat} (hfits : Fits lex b)
    (hflag : FlagAgrees revision b.rows.toNat b.columnTypes.length)
    (hmode : Readable m b.rows.toNat b.columnTypes b.columnData) :
    ∃ bytes, b.write revision = .ok bytes ∧
      Reads (read lex m revision) bytes
        { b with
          info := infoBack revision b.info
          columnData := dataBack b.rows.toNat b.columnTypes b.columnData } := by
  obtain ⟨bytes, hwrite, hread⟩ := columns_reads revision hfits.names hflag hfits.data hmode
  refine ⟨_, by rw [write, hwrite, Outcome.ok_bind], ?_⟩
  refine (info_reads m revision b.info).bind ((readVarUint_reads m hfits.columns).bind
    ((readVarUint_reads m hfits.rows).bind (hread.bind_nil ?_)))
  rw [UInt64.ofNat_toNat]
  exact Reads.pure _

/-- Writing a block and reading it at the same revision returns the block, and takes
exactly its bytes. -/
def RoundTrips (lex : Lexicon) (b : Block) (revision : Nat) : Prop :=
  ∃ bytes, b.write revision = .ok bytes ∧ Reads (read lex .async revision) bytes b

/-- The info of a block survives: a block without overflows only where no info is written. -/
def InfoKept (b : Block) (revision : Nat) : Prop :=
  if 0 < revision then b.info.isOverflows = true else b.info = BlockInfo.initial

theorem infoBack_eq_iff {b : Block} {revision : Nat} :
    infoBack revision b.info = b.info ↔ InfoKept b revision := by
  unfold infoBack InfoKept
  split
  · obtain ⟨⟨overflows, bucket⟩, -, -, -⟩ := b
    simp [BlockInfo.readBack, eq_comm]
  · exact eq_comm

/-- **Round trip of a block.**  A block that fits, whose flags are read where they are
written, is read back exactly when its info survives and its values are in the form in
which the column readers return them. -/
theorem roundTrips_iff {b : Block} {revision : Nat} (hfits : Fits lex b)
    (hflag : FlagAgrees revision b.rows.toNat b.columnTypes.length) :
    RoundTrips lex b revision ↔
      InfoKept b revision ∧ Settled b.rows.toNat b.columnTypes b.columnData := by
  obtain ⟨bytes, hwrite, hread⟩ := read_reads hfits hflag (readable_async _ _ _)
  rw [← infoBack_eq_iff, ← dataBack_eq_iff hfits.data]
  constructor
  · rintro ⟨bytes', hwrite', hread'⟩
    obtain rfl : bytes = bytes' := Except.ok.inj (hwrite.symm.trans hwrite')
    have hsame := Except.ok.inj (hread.run.symm.trans hread'.run)
    exact ⟨congrArg (fun x => x.1.info) hsame, congrArg (fun x => x.1.columnData) hsame⟩
  · rintro ⟨hinfo, hdata⟩
    rw [hinfo, hdata] at hread
    exact ⟨bytes, hwrite, hread⟩

/-- Two rows of numbers and optional times. -/
theorem roundTrips_sample :
    let b : Block := ⟨⟨true, -1⟩, 2,
      [("id", .uint8), ("at", .nullable (.dateTime FromStr.utc))],
      [.uint8 7, .uint8 8, .dateTime FromStr.utc 5, .null]⟩
    RoundTrips .ascii b 54454 ↔
      InfoKept b 54454 ∧ Settled b.rows.toNat b.columnTypes b.columnData := by
  intro b
  refine roundTrips_iff ⟨by decide, by decide, ?_, ?_⟩ (.inl (by decide))
  · intro column hcolumn
    have hcolumn : column = ("id", .uint8) ∨ column = ("at", .nullable (.dateTime FromStr.utc)) := by
      simpa [b] using hcolumn
    rcases hcolumn with rfl | rfl
    · exact ⟨trivial, by decide, by decide⟩
    · exact ⟨⟨by decide, by decide⟩, by decide, by decide⟩
  · have hrows : b.rows.toNat = 2 := rfl
    rw [hrows]
    refine ⟨by decide, fun _ => ⟨rfl, ?_, ?_⟩, by decide, fun _ => ⟨rfl, ?_, ?_⟩, rfl⟩
    · simp only [b, List.take_succ_cons, List.take_zero, List.forall_mem_cons]
      exact ⟨rfl, rfl, by simp⟩
    · exact ⟨by decide, by simp [ChType.EntryFits], trivial⟩
    · simp only [b, List.drop_succ_cons, List.drop_zero, List.take_succ_cons, List.take_zero,
        List.forall_mem_cons]
      exact ⟨rfl, rfl, by simp⟩
    · exact ⟨⟨by decide, by simp [ChType.EntryFits], fun _ => rfl⟩,
        ⟨by decide, by simp [ChType.EntryFits], trivial⟩⟩

/-- A block without overflows and columns comes back with overflows, and a column without
rows is not read back at a revision with flags. -/
theorem not_roundTrips_samples :
    ¬ RoundTrips .ascii ⟨BlockInfo.initial, 0, [], []⟩ 54454 ∧
      ¬ RoundTrips .ascii ⟨⟨true, -1⟩, 0, [("id", .uint8)], []⟩ 54454 := by
  constructor
  · rintro ⟨bytes, hwrite, hread⟩
    have hbytes : [1, 2, 2, 255, 255, 255, 255, 0, 0, 0] = bytes := Except.ok.inj hwrite
    have hrun : read .ascii .async 54454 [1, 2, 2, 255, 255, 255, 255, 0, 0, 0] =
        .ok (⟨⟨true, -1⟩, 0, [], []⟩, []) := rfl
    rw [← hbytes] at hread
    have hinfo := congrArg (fun x => x.1.info.isOverflows) (Except.ok.inj (hrun.symm.trans hread.run))
    simp [BlockInfo.initial] at hinfo
  · rintro ⟨bytes, hwrite, hread⟩
    have hbytes : [1, 1, 2, 255, 255, 255, 255, 0, 1, 0, 2, 105, 100, 5, 85, 73, 110, 116, 56] =
        bytes := Except.ok.inj hwrite
    have hrun : read .ascii .async 54454
        [1, 1, 2, 255, 255, 255, 255, 0, 1, 0, 2, 105, 100, 5, 85, 73, 110, 116, 56] =
        .error (.error .unexpectedEof) := rfl
    rw [← hbytes] at hread
    exact absurd (hrun.symm.trans hread.run) (by simp)

end Block

end ClickhouseArrow
