import ClickhouseArrow.Arrow.Utf8
import ClickhouseArrow.Native.NameRoundTrip
import ClickhouseArrow.Native.BlockRoundTrip
import ClickhouseArrow.Settings.Setting

/-!
# Settings come back with the types of their texts

Keys, order and flags come back as they were sent, and every byte is read.  A value comes
back as what its text is read as: itself, unless it is the integer 0 or 1, or a string that
reads as a boolean or a number.
-/

namespace ClickhouseArrow

open Wire

namespace SettingValue

/-- The text of the value is read as the value. -/
def ReadsAsItself : SettingValue → Prop
  | .int i => i ≠ 0 ∧ i ≠ 1
  | .bool _ => True
  | .float _ => False
  | .string s => parseBool s.toList = none ∧ parseI64 s.toList = none ∧ parseF64 s.toList = none

instance : DecidablePred ReadsAsItself
  | .int i => inferInstanceAs (Decidable (i ≠ 0 ∧ i ≠ 1))
  | .bool _ => inferInstanceAs (Decidable True)
  | .float _ => inferInstanceAs (Decidable False)
  | .string s => inferInstanceAs (Decidable (parseBool s.toList = none ∧
      parseI64 s.toList = none ∧ parseF64 s.toList = none))

/-! ## Integers -/

theorem toLower_of_isDigit {c : Char} (h : c.isDigit = true) : c.toLower = c := by
  rw [Char.isDigit, Bool.and_eq_true, decide_eq_true_eq, decide_eq_true_eq] at h
  apply dif_neg
  rintro ⟨hlow, -⟩
  exact absurd (UInt32.le_trans hlow h.2) (by decide)

theorem mem_displayInt {i : Int} {c : Char} (h : c ∈ displayInt i) : c.isDigit = true ∨ c = '-' := by
  cases i with
  | ofNat n => exact .inl (isDigit_of_mem_displayNat h)
  | negSucc n =>
    rcases List.mem_cons.mp h with hsign | hdigit
    · exact .inr hsign
    · exact .inl (isDigit_of_mem_displayNat hdigit)

theorem map_toLower_displayInt (i : Int) : (displayInt i).map Char.toLower = displayInt i := by
  refine (List.map_congr_left fun c hc => ?_).trans (List.map_id _)
  rcases mem_displayInt hc with hdigit | rfl
  · exact toLower_of_isDigit hdigit
  · rfl

theorem parseSigned_int64 (i : Int64) : parseSigned (2 ^ 63 - 1) (displayInt i.toInt) = .ok i.toInt := by
  have hlow := Int64.le_toInt i
  have hhigh := Int64.toInt_lt i
  exact parseSigned_displayInt (by omega) (by omega)

theorem parseI64_displayInt (i : Int64) : parseI64 (displayInt i.toInt) = some i := by
  rw [parseI64, parseSigned_int64]
  exact congrArg some (Int64.ofInt_toInt i)

theorem displayInt_injective {i j : Int64} (h : displayInt i.toInt = displayInt j.toInt) : i = j := by
  have hi := parseI64_displayInt i
  rw [h, parseI64_displayInt] at hi
  exact (Option.some.inj hi).symm

theorem displayInt_ne_word (i : Int) {c : Char} {cs : List Char}
    (h : c.isDigit = false ∧ c ≠ '-') : displayInt i ≠ c :: cs := by
  intro heq
  rcases mem_displayInt (heq ▸ List.mem_cons_self : c ∈ displayInt i) with hdigit | hsign
  · exact absurd hdigit (by rw [h.1]; decide)
  · exact h.2 hsign

/-- An integer is taken for a boolean exactly if it is 0 or 1. -/
theorem parseBool_displayInt (i : Int64) :
    parseBool (displayInt i.toInt) = none ↔ i ≠ 0 ∧ i ≠ 1 := by
  have hword (s : String) : String.ofList (displayInt i.toInt) = s ↔ displayInt i.toInt = s.toList := by
    rw [← String.toList_inj, String.toList_ofList]
  have htrue : displayInt i.toInt ≠ "true".toList := displayInt_ne_word _ (by decide)
  have hfalse : displayInt i.toInt ≠ "false".toList := displayInt_ne_word _ (by decide)
  have hone : displayInt i.toInt = "1".toList ↔ i = 1 :=
    ⟨fun h => displayInt_injective (h.trans (by decide)), fun h => by rw [h]; decide⟩
  have hzero : displayInt i.toInt = "0".toList ↔ i = 0 :=
    ⟨fun h => displayInt_injective (h.trans (by decide)), fun h => by rw [h]; decide⟩
  rw [parseBool, map_toLower_displayInt]
  simp only [hword, htrue, hfalse, hone, hzero, false_or]
  split_ifs with h1 h0
  · simp [h1]
  · simp [h0]
  · simp [h1, h0]

end SettingValue

namespace Setting

open SettingValue

variable {f64Display : UInt64 → String}

/-! ## One setting -/

/-- The setting as it is read back. -/
def reread (f64Display : UInt64 → String) (setting : Setting) : Setting :=
  { setting with
    value := if setting.custom then setting.value
      else parseSettingValue (setting.value.display f64Display) }

/-- A setting that is sent: it has a key, its value is not a float, a custom one is a string, and
neither its key nor its text is longer than a string may be. -/
structure Sendable (f64Display : UInt64 → String) (setting : Setting) : Prop where
  key : setting.key ≠ ""
  float : ∀ bits, setting.value ≠ .float bits
  custom : setting.custom = true → ∃ s, setting.value = .string s
  keySize : (utf8Bytes setting.key).length ≤ maxStringSize
  textSize : (utf8Bytes (setting.value.display f64Display)).length ≤ maxStringSize

theorem lossyString_utf8Bytes (s : String) : lossyString (utf8Bytes s) = s := by
  have hback := fromUtf8_utf8Bytes s
  rw [lossyString, Arrow.fromUtf8Lossy_utf8Bytes]
  rw [fromUtf8] at hback
  split at hback
  · next t ht =>
    rw [ht]
    exact Except.ok.inj hback
  · exact absurd hback (by simp [Outcome.fail])

theorem parseSettingValue_eq_int {i : Int64} (h0 : i ≠ 0) (h1 : i ≠ 1) :
    parseSettingValue (String.ofList (displayInt i.toInt)) = .int i := by
  have hbool := (parseBool_displayInt i).mpr ⟨h0, h1⟩
  rw [parseSettingValue, String.toList_ofList, hbool, parseI64_displayInt]

theorem parseSettingValue_of_parseBool {s : String} {b : Bool} (h : parseBool s.toList = some b) :
    parseSettingValue s = .bool b := by
  rw [parseSettingValue, h]

theorem parseSettingValue_eq_bool (b : Bool) :
    parseSettingValue (display f64Display (.bool b)) = .bool b := by
  cases b with
  | false => exact parseSettingValue_of_parseBool (show parseBool "false".toList = _ by decide)
  | true => exact parseSettingValue_of_parseBool (show parseBool "true".toList = _ by decide)

/-- A string stays one exactly if it reads as nothing else. -/
theorem parseSettingValue_eq_string (s : String) :
    parseSettingValue s = .string s ↔ (SettingValue.string s).ReadsAsItself := by
  show _ ↔ parseBool s.toList = none ∧ parseI64 s.toList = none ∧ parseF64 s.toList = none
  unfold parseSettingValue
  cases parseBool s.toList <;> cases parseI64 s.toList <;> cases parseF64 s.toList <;> simp

/-- The text of a value is read as the value exactly if it does not look like another one. -/
theorem parseSettingValue_display_iff (f64Display : UInt64 → String) {value : SettingValue} (h : ∀ bits, value ≠ .float bits) :
    parseSettingValue (value.display f64Display) = value ↔ value.ReadsAsItself := by
  cases value with
  | int i =>
    constructor
    · intro hback
      have hnone : parseBool (displayInt i.toInt) = none := by
        rw [display, parseSettingValue, String.toList_ofList] at hback
        cases hbool : parseBool (displayInt i.toInt) with
        | none => rfl
        | some b =>
          rw [hbool] at hback
          exact absurd hback (by simp)
      exact (parseBool_displayInt i).mp hnone
    · exact fun hi => parseSettingValue_eq_int hi.1 hi.2
  | bool b => exact ⟨fun _ => trivial, fun _ => parseSettingValue_eq_bool b⟩
  | float bits => exact absurd rfl (h bits)
  | string s => exact parseSettingValue_eq_string s

theorem reread_eq_iff {setting : Setting} (h : ∀ bits, setting.value ≠ .float bits) :
    setting.reread f64Display = setting ↔
      setting.custom = true ∨ setting.value.ReadsAsItself := by
  have hvalue : setting.reread f64Display = setting ↔
      (if setting.custom then setting.value
        else parseSettingValue (setting.value.display f64Display)) = setting.value :=
    ⟨congrArg Setting.value, fun heq => by rw [reread, heq]⟩
  rw [hvalue]
  have hself := parseSettingValue_display_iff f64Display h
  cases setting.custom with
  | false => simpa using hself
  | true => simp

/-- The bytes of a setting. -/
def wire (f64Display : UInt64 → String) (setting : Setting) : Bytes :=
  writeVarUint ((if setting.important then flagImportant else 0) |||
      (if setting.custom then flagCustom else 0)) ++
    writeString (utf8Bytes (setting.value.display f64Display))

theorem encode_eq {setting : Setting} {revision : Nat}
    (hrevision : minRevisionWithSettingsSerializedAsStrings < revision)
    (h : setting.Sendable f64Display) :
    setting.encode f64Display revision =
      .ok (writeString (utf8Bytes setting.key) ++ setting.wire f64Display) := by
  rw [encode, if_neg (Nat.not_le.mpr hrevision)]
  obtain ⟨key, value, important, custom⟩ := setting
  cases custom with
  | false => rfl
  | true =>
    obtain ⟨s, hs⟩ := h.custom rfl
    cases hs
    rfl

theorem decode_reads {setting : Setting} (h : setting.Sendable f64Display) :
    Reads (Setting.decode setting.key) (setting.wire f64Display) (setting.reread f64Display) := by
  obtain ⟨key, value, important, custom⟩ := setting
  have hflags : ∀ a b : Bool, ((if a then flagImportant else 0) ||| (if b then flagCustom else 0)) < 2 ^ 63 ∧
      (((if a then flagImportant else 0) ||| (if b then flagCustom else 0)) &&& flagImportant != 0) = a ∧
      (((if a then flagImportant else 0) ||| (if b then flagCustom else 0)) &&& flagCustom != 0) = b := by
    decide
  obtain ⟨hsize, himportant, hcustom⟩ := hflags important custom
  refine (readVarUint_reads .async hsize).bind ?_
  refine (readString_reads .async _ h.textSize).bind_nil ?_
  simp only [himportant, hcustom, lossyString_utf8Bytes]
  have hvalue : (if custom then SettingValue.string (value.display f64Display)
      else parseSettingValue (value.display f64Display)) =
        (reread f64Display ⟨key, value, important, custom⟩).value := by
    cases custom with
    | false => rfl
    | true =>
      obtain ⟨s, hs⟩ := h.custom rfl
      cases hs
      rfl
  rw [hvalue]
  exact Reads.pure _

end Setting

namespace Settings

open Setting

variable {f64Display : UInt64 → String}

/-! ## The list -/

theorem utf8Bytes_ne_nil {s : String} (h : s ≠ "") : utf8Bytes s ≠ [] := by
  intro hnil
  have hback := lossyString_utf8Bytes s
  rw [hnil] at hback
  exact h (hback.symm.trans (lossyString_utf8Bytes ""))

theorem wire_ne_nil (setting : Setting) : setting.wire f64Display ≠ [] := by
  intro h
  exact leb128_ne_nil _ _ (List.append_eq_nil_iff.mp h).1

/-- The settings, and the empty key behind them, are read in as many turns as there are settings
and one more. -/
theorem decodeLoop_reads {settings : List Setting} (h : ∀ s ∈ settings, s.Sendable f64Display)
    {fuel : Nat} (hfuel : settings.length < fuel) :
    Reads (decodeLoop fuel)
      (settings.flatMap (fun s => writeString (utf8Bytes s.key) ++ s.wire f64Display) ++
        writeString [])
      (settings.map (reread f64Display)) := by
  induction settings generalizing fuel with
  | nil =>
    cases fuel with
    | zero => exact absurd hfuel (Nat.not_lt_zero _)
    | succ fuel =>
      have hempty := readString_reads .async [] (by decide)
      refine hempty.bind_nil ?_
      rw [if_pos rfl]
      exact Reads.pure []
  | cons s settings ih =>
    cases fuel with
    | zero => exact absurd hfuel (Nat.not_lt_zero _)
    | succ fuel =>
      have hs := h s List.mem_cons_self
      have hrest := ih (fun t ht => h t (List.mem_cons_of_mem s ht)) (Nat.lt_of_succ_lt_succ hfuel)
      have hkey := readString_reads .async (utf8Bytes s.key) hs.keySize
      rw [List.flatMap_cons, List.append_assoc, List.append_assoc]
      refine hkey.bind ?_
      rw [if_neg (utf8Bytes_ne_nil hs.key), lossyString_utf8Bytes]
      exact (Setting.decode_reads hs).bind (hrest.bind_nil (Reads.pure _))

/-- Every setting takes a byte at least. -/
theorem length_le_wire (f64Display : UInt64 → String) (settings : List Setting) :
    settings.length ≤
      (settings.flatMap fun s => writeString (utf8Bytes s.key) ++ s.wire f64Display).length := by
  induction settings with
  | nil => exact Nat.le_refl 0
  | cons s settings ih =>
    have hwire : 0 < (s.wire f64Display).length := List.length_pos_iff.mpr (wire_ne_nil s)
    rw [List.flatMap_cons, List.length_append, List.length_append, List.length_cons]
    omega

theorem decode_reads {settings : List Setting} (h : ∀ s ∈ settings, s.Sendable f64Display) :
    Reads decode
      (settings.flatMap (fun s => writeString (utf8Bytes s.key) ++ s.wire f64Display) ++
        writeString [])
      (settings.map (reread f64Display)) := by
  intro rest
  refine decodeLoop_reads h ?_ rest
  have hlength := length_le_wire f64Display settings
  rw [List.length_append, List.length_append]
  omega

/-- The bytes that are sent are read back as these settings, and no byte is left. -/
def SentAs (f64Display : UInt64 → String) (revision : Nat) (settings received : List Setting) :
    Prop :=
  ∃ bytes, encode f64Display settings revision = .ok bytes ∧
    Reads decode (bytes ++ writeString []) received

theorem sentAs_reread {settings : List Setting} {revision : Nat}
    (hrevision : minRevisionWithSettingsSerializedAsStrings < revision)
    (h : ∀ s ∈ settings, s.Sendable f64Display) :
    SentAs f64Display revision settings (settings.map (reread f64Display)) :=
  ⟨_, Outcome.emit_eq_ok_flatMap fun s hs => Setting.encode_eq hrevision (h s hs), decode_reads h⟩

theorem SentAs.unique {settings received received' : List Setting} {revision : Nat}
    (h : SentAs f64Display revision settings received)
    (h' : SentAs f64Display revision settings received') : received = received' := by
  obtain ⟨bytes, hencode, hread⟩ := h
  obtain ⟨bytes', hencode', hread'⟩ := h'
  rw [hencode] at hencode'
  cases hencode'
  have hboth := hread.run.symm.trans hread'.run
  exact (Prod.mk.inj (Except.ok.inj hboth)).1

/-- **Settings are read back as their texts read**: with the same keys and flags in the same
order, and each value is the one that was sent exactly if the setting is custom or its value
looks like no other. -/
theorem roundTrip (f64Display : UInt64 → String) (settings : List Setting) (revision : Nat)
    (hrevision : minRevisionWithSettingsSerializedAsStrings < revision)
    (h : ∀ s ∈ settings, s.Sendable f64Display) :
    SentAs f64Display revision settings (settings.map (reread f64Display)) ∧
      ∀ s ∈ settings, (s.reread f64Display).key = s.key ∧
        (s.reread f64Display).important = s.important ∧ (s.reread f64Display).custom = s.custom ∧
        (s.reread f64Display = s ↔ s.custom = true ∨ s.value.ReadsAsItself) := by
  refine ⟨sentAs_reread hrevision h, fun s hs => ⟨rfl, rfl, rfl, ?_⟩⟩
  exact reread_eq_iff (h s hs).float

/-- An integer, a boolean that is important, and a custom string that looks like a number. -/
theorem roundTrip_sample :
    SentAs (fun _ => "") 54430
      [⟨"max_threads", .int 8, false, false⟩, ⟨"allow", .bool true, true, false⟩,
        ⟨"quota", .string "1.5", false, true⟩]
      [⟨"max_threads", .int 8, false, false⟩, ⟨"allow", .bool true, true, false⟩,
        ⟨"quota", .string "1.5", false, true⟩] := by
  have hsendable : ∀ s ∈ ([⟨"max_threads", .int 8, false, false⟩, ⟨"allow", .bool true, true, false⟩,
      ⟨"quota", .string "1.5", false, true⟩] : List Setting), s.Sendable fun _ => "" := by
    simp only [List.forall_mem_cons]
    exact ⟨⟨by decide, by simp, by simp, by decide, by decide⟩,
      ⟨by decide, by simp, by simp, by decide, by decide⟩,
      ⟨by decide, by simp, by simp, by decide, by decide⟩, by simp⟩
  have hback := (roundTrip (fun _ => "") _ 54430 (by decide) hsendable).1
  have hsame := (roundTrip (fun _ => "") _ 54430 (by decide) hsendable).2
  simp only [List.forall_mem_cons] at hsame
  obtain ⟨⟨-, -, -, hint⟩, ⟨-, -, -, hbool⟩, ⟨-, -, -, hstring⟩, -⟩ := hsame
  simp only [List.map_cons, List.map_nil] at hback
  rw [hint.mpr (.inr (by decide)), hbool.mpr (.inr trivial), hstring.mpr (.inl trivial)] at hback
  exact hback

/-- The integer 1 comes back as a boolean, and a string of a digit as an integer. -/
theorem not_sentAs_samples :
    (∀ s ∈ ([⟨"max_threads", .int 1, false, false⟩, ⟨"format", .string "8", false, false⟩] :
      List Setting), s.Sendable fun _ => "") ∧
    ¬ SentAs (fun _ => "") 54430 [⟨"max_threads", .int 1, false, false⟩]
        [⟨"max_threads", .int 1, false, false⟩] ∧
      ¬ SentAs (fun _ => "") 54430 [⟨"format", .string "8", false, false⟩]
        [⟨"format", .string "8", false, false⟩] := by
  have hsendable : ∀ s ∈ ([⟨"max_threads", .int 1, false, false⟩,
      ⟨"format", .string "8", false, false⟩] : List Setting), s.Sendable fun _ => "" := by
    simp only [List.forall_mem_cons]
    exact ⟨⟨by decide, by simp, by simp, by decide, by decide⟩,
      ⟨by decide, by simp, by simp, by decide, by decide⟩, by simp⟩
  have hchanged : ∀ s : Setting, (s.Sendable fun _ => "") → s.custom = false →
      ¬ s.value.ReadsAsItself → ¬ SentAs (fun _ => "") 54430 [s] [s] := by
    intro s hs hcustom hlooks hsame
    have hback : SentAs (fun _ => "") 54430 [s] ([s].map (reread fun _ => "")) :=
      sentAs_reread (by decide) (by simpa using hs)
    have heq := (List.cons.inj (hsame.unique hback)).1
    rcases (reread_eq_iff hs.float).mp heq.symm with hyes | hself
    · rw [hcustom] at hyes
      exact absurd hyes (by decide)
    · exact hlooks hself
  simp only [List.forall_mem_cons] at hsendable
  refine ⟨by simpa using hsendable, ?_, ?_⟩
  · exact hchanged _ hsendable.1 rfl (by decide)
  · exact hchanged _ hsendable.2.1 rfl (by decide)

end Settings

end ClickhouseArrow
