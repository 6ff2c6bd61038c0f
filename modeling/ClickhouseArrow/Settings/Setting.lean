import ClickhouseArrow.Arrow.Columns

/-!
# Query settings

`settings.rs`: a list of settings as it is sent to the server and as it is read from it.
After revision 54429 a setting is its key, a word of flags and its value as text.  The type
of a value is not sent: the reader takes it for a boolean, for an integer, for a float and
for a string, whichever comes first.
-/

namespace ClickhouseArrow

open Wire

/-- `SettingValue`. -/
inductive SettingValue
  | int (i : Int64)
  | bool (b : Bool)
  /-- The payload of a float is its bit pattern. -/
  | float (bits : UInt64)
  | string (s : String)
  deriving DecidableEq, Repr

/-- The errors of the settings. -/
inductive SettingError
  | unsupportedSettingType (key : String)
  /-- The message is the value, as `Debug` writes it. -/
  | unsupportedFieldType (value : SettingValue)
  deriving DecidableEq, Repr

namespace SettingValue

/-- `Display`; the text of a float is the library's. -/
def display (f64Display : UInt64 → String) : SettingValue → String
  | .int i => String.ofList (displayInt i.toInt)
  | .bool true => "true"
  | .bool false => "false"
  | .float bits => f64Display bits
  | .string s => s

/-! ## Numbers from text -/

/-- `i64::from_str`. -/
def parseI64 (s : List Char) : Option Int64 :=
  match parseSigned (2 ^ 63 - 1) s with
  | .ok i => some (Int64.ofInt i)
  | .error _ => none

/-- The number that digits denote. -/
def digitsValue (digits : List Char) : Nat :=
  digits.foldl (fun acc c => 10 * acc + (c.toNat - '0'.toNat)) 0

/-- A sign, and what follows it. -/
def splitSign : List Char → Bool × List Char
  | '-' :: cs => (true, cs)
  | '+' :: cs => (false, cs)
  | cs => (false, cs)

/-- The exponent of a decimal literal, up to the end of the text. -/
def parseExponent : List Char → Option Int
  | [] => some 0
  | c :: cs =>
      if c.toLower = 'e' then
        let signed := splitSign cs
        let exponent : Int := digitsValue signed.2
        if signed.2 = [] then none
        else if signed.2.all Char.isDigit then some (if signed.1 then -exponent else exponent)
        else none
      else none

/-- A decimal literal without its sign, as a number and a power of ten. -/
def parseDecimal (s : List Char) : Option (Nat × Int) :=
  let whole := s.takeWhile Char.isDigit
  let rest := s.dropWhile Char.isDigit
  let fraction := if rest.head? = some '.' then rest.tail.takeWhile Char.isDigit else []
  let tail := if rest.head? = some '.' then rest.tail.dropWhile Char.isDigit else rest
  if whole ++ fraction = [] then none
  else (parseExponent tail).map fun e => (digitsValue (whole ++ fraction), e - fraction.length)

/-- The quotient, to the nearest number, and to the even one of two. -/
def roundHalfEven (num den : Nat) : Nat :=
  let q := num / den
  let r := num % den
  if 2 * r < den ∨ 2 * r = den ∧ q % 2 = 0 then q else q + 1

/-- The nearest double to a positive fraction: the exponent leaves 53 bits, or what the
subnormal numbers have. -/
def nearestF64 (num den : Nat) : Nat :=
  let guess : Int := (Nat.log2 num : Int) - Nat.log2 den
  let log : Int := if num * 2 ^ (-guess).toNat < den * 2 ^ guess.toNat then guess - 1 else guess
  let q := max (log - 52) (-1074)
  let n := roundHalfEven (num * 2 ^ (-q).toNat) (den * 2 ^ q.toNat)
  if n < 2 ^ 52 then n else min ((q + 1074).toNat * 2 ^ 52 + n) (2047 * 2 ^ 52)

/-- The double of a literal without its sign. -/
def parseMagnitude (s : List Char) : Option Nat :=
  match parseDecimal s with
  | some (0, _) => some 0
  | some (m, e) => some (nearestF64 (m * 10 ^ e.toNat) (10 ^ (-e).toNat))
  | none =>
      let word := String.ofList (s.map Char.toLower)
      if word = "nan" then some (2047 * 2 ^ 52 + 2 ^ 51)
      else if word = "inf" ∨ word = "infinity" then some (2047 * 2 ^ 52)
      else none

/-- `f64::from_str`. -/
def parseF64 (s : List Char) : Option UInt64 :=
  let signed := splitSign s
  (parseMagnitude signed.2).map fun bits =>
    UInt64.ofNat (if signed.1 then 2 ^ 63 + bits else bits)

example : parseF64 "1.5".toList = some 0x3FF8000000000000 ∧
    parseF64 "-1e-1".toList = some 0xBFB999999999999A ∧ parseF64 "1e".toList = none := by decide

/-- `to_lowercase` against the four words: no other letter than an upper case one of the words
has one of theirs as its lower case. -/
def parseBool (s : List Char) : Option Bool :=
  let word := String.ofList (s.map Char.toLower)
  if word = "true" ∨ word = "1" then some true
  else if word = "false" ∨ word = "0" then some false
  else none

end SettingValue

/-! ## Settings -/

/-- `Setting`. -/
structure Setting where
  key : String
  value : SettingValue
  important : Bool
  custom : Bool
  deriving DecidableEq, Repr

/-- `DBMS_MIN_REVISION_WITH_SETTINGS_SERIALIZED_AS_STRINGS`. -/
def minRevisionWithSettingsSerializedAsStrings : Nat := 54429

namespace Setting

open SettingValue

/-- `SETTING_FLAG_IMPORTANT`. -/
def flagImportant : Nat := 0x01

/-- `SETTING_FLAG_CUSTOM`. -/
def flagCustom : Nat := 0x02

/-- `encode_field_dump`. -/
def encodeFieldDump (setting : Setting) : Outcome SettingError String :=
  match setting.value with
  | .string s => .ok s
  | value => .fail (.unsupportedFieldType value)

/-- `Setting::encode`. -/
def encode (f64Display : UInt64 → String) (setting : Setting) (revision : Nat) :
    Outcome SettingError Bytes :=
  if revision ≤ minRevisionWithSettingsSerializedAsStrings then
    match setting.value with
    | .int i => .ok (writeString (utf8Bytes setting.key) ++ writeVarUint i.toUInt64.toNat)
    | .bool b => .ok (writeString (utf8Bytes setting.key) ++ writeVarUint b.toNat)
    | _ => .fail (.unsupportedSettingType setting.key)
  else do
    let flags := (if setting.important then flagImportant else 0) |||
      (if setting.custom then flagCustom else 0)
    let text ← if setting.custom then setting.encodeFieldDump
      else .ok (setting.value.display f64Display)
    .ok (writeString (utf8Bytes setting.key) ++ (writeVarUint flags ++ writeString (utf8Bytes text)))

/-- `parse_setting_value`. -/
def parseSettingValue (value : String) : SettingValue :=
  match parseBool value.toList, parseI64 value.toList, parseF64 value.toList with
  | some b, _, _ => .bool b
  | none, some i, _ => .int i
  | none, none, some bits => .float bits
  | none, none, none => .string value

/-- `String::from_utf8_lossy`, which is always a text. -/
def lossyString (bytes : Bytes) : String :=
  (String.fromUTF8? ⟨(Arrow.fromUtf8Lossy bytes).toArray⟩).getD ""

/-- `Setting::decode`. -/
def decode (key : String) : Reader Error Setting := do
  let flags ← readVarUint .async
  let important := flags &&& flagImportant != 0
  let custom := flags &&& flagCustom != 0
  let text ← readString .async
  let value := if custom then .string (lossyString text) else parseSettingValue (lossyString text)
  pure { key, value, important, custom }

end Setting

namespace Settings

/-- `Settings::encode`. -/
def encode (f64Display : UInt64 → String) (settings : List Setting) (revision : Nat) :
    Outcome SettingError Bytes :=
  Outcome.emit (fun setting => setting.encode f64Display revision) settings

/-- The loop of `Settings::decode`: the empty key ends it. -/
def decodeLoop : Nat → Reader Error (List Setting)
  | 0 => Reader.panic .outOfFuel
  | fuel + 1 => do
      let key ← readString .async
      if key = [] then pure []
      else
        let setting ← Setting.decode (Setting.lossyString key)
        let settings ← decodeLoop fuel
        pure (setting :: settings)

/-- `Settings::decode`: every turn of the loop reads a byte at least. -/
def decode : Reader Error (List Setting) := fun bs => decodeLoop (bs.length + 1) bs

end Settings

end ClickhouseArrow
