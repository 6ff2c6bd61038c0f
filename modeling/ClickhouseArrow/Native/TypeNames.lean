import ClickhouseArrow.Native.Types
import Mathlib.Data.List.DropRight

/-!
# Names of types

`Display` and `FromStr` of `Type`: the name that a block carries for the type of each of
its columns, and the parser that takes it back.  Names are lists of characters.
-/

namespace ClickhouseArrow

open Wire

/-! ## Characters and numbers -/

/-- What the parser takes from tables that are not part of the crate: the letters and
digits beyond ASCII, and the time zones. -/
structure Lexicon where
  alphabetic : Char → Bool
  numeric : Char → Bool
  /-- `Tz::from_str` of `chrono_tz`. -/
  timezone : List Char → Option Tz

namespace Lexicon

/-- `char::is_alphabetic`. -/
def isAlphabetic (lex : Lexicon) (c : Char) : Bool :=
  c.isAlpha || 128 ≤ c.toNat && lex.alphabetic c

/-- `char::is_numeric`. -/
def isNumeric (lex : Lexicon) (c : Char) : Bool :=
  c.isDigit || 128 ≤ c.toNat && lex.numeric c

/-- The tables of a build that knows ASCII and the zone `UTC` only. -/
def ascii : Lexicon where
  alphabetic _ := false
  numeric _ := false
  timezone name := if name = "UTC".toList then some ⟨"UTC"⟩ else none

end Lexicon

/-- `char::is_whitespace`. -/
def isWhitespace (c : Char) : Bool :=
  let n := c.toNat
  (9 ≤ n && n ≤ 13) || n == 0x20 || n == 0x85 || n == 0xA0 || n == 0x1680 ||
    (0x2000 ≤ n && n ≤ 0x200A) || n == 0x2028 || n == 0x2029 || n == 0x202F || n == 0x205F ||
    n == 0x3000

/-- `str::trim`. -/
def trim (s : List Char) : List Char := (s.dropWhile isWhitespace).rdropWhile isWhitespace

/-- `IntErrorKind`. -/
inductive IntErrorKind
  | empty
  | invalidDigit
  | posOverflow
  | negOverflow
  deriving DecidableEq, Repr

/-- `Display` of a `ParseIntError`. -/
def IntErrorKind.description : IntErrorKind → String
  | .empty => "cannot parse integer from empty string"
  | .invalidDigit => "invalid digit found in string"
  | .posOverflow => "number too large to fit in target type"
  | .negOverflow => "number too small to fit in target type"

/-- The digits of a number of at most `max`; `acc` has been read before. -/
def parseDigits (overflow : IntErrorKind) (max : Nat) (acc : Nat) :
    List Char → Except IntErrorKind Nat
  | [] => .ok acc
  | c :: cs =>
      if c.isDigit then
        let acc' := 10 * acc + (c.toNat - '0'.toNat)
        if max < acc' then .error overflow else parseDigits overflow max acc' cs
      else .error .invalidDigit

/-- `from_str` of an unsigned integer of at most `max`. -/
def parseUnsigned (max : Nat) : List Char → Except IntErrorKind Nat
  | [] => .error .empty
  | ['+'] => .error .invalidDigit
  | '+' :: cs => parseDigits .posOverflow max 0 cs
  | cs => parseDigits .posOverflow max 0 cs

/-- `from_str` of a signed integer from `- max - 1` to `max`. -/
def parseSigned (max : Nat) : List Char → Except IntErrorKind Int
  | [] => .error .empty
  | ['+'] | ['-'] => .error .invalidDigit
  | '+' :: cs => (fun n => (n : Int)) <$> parseDigits .posOverflow max 0 cs
  | '-' :: cs => (fun n => -(n : Int)) <$> parseDigits .negOverflow (max + 1) 0 cs
  | cs => (fun n => (n : Int)) <$> parseDigits .posOverflow max 0 cs

/-- `Display` of an unsigned integer. -/
def displayNat (n : Nat) : List Char := Nat.toDigits 10 n

/-- `Display` of a signed integer. -/
def displayInt : Int → List Char
  | .ofNat n => displayNat n
  | .negSucc n => '-' :: displayNat (n + 1)

/-- The largest `usize`. -/
def usizeMax : Nat := 2 ^ 64 - 1

/-! ## Writing names -/

namespace ChType

/-- A label of an enum in quotes, every quote in it doubled. -/
def displayLabel (label : String) : List Char :=
  '\'' :: label.toList.flatMap (fun c => if c = '\'' then ['\'', '\''] else [c]) ++ ['\'']

/-- The entries of an enum. -/
def displayEntries {ι : Type} (value : ι → Int) (items : List (String × ι)) : List Char :=
  [','].intercalate
    (items.map fun e => displayLabel e.1 ++ " = ".toList ++ displayInt (value e.2))

/-- A name with arguments. -/
def applied (name : String) (args : List Char) : List Char := name.toList ++ '(' :: args ++ [')']

def displayTz (tz : Tz) : List Char := '\'' :: tz.name.toList ++ ['\'']

/-- The names of the types without arguments. -/
def bareName : ChType → String
  | .int8 => "Int8"
  | .int16 => "Int16"
  | .int32 => "Int32"
  | .int64 => "Int64"
  | .int128 => "Int128"
  | .int256 => "Int256"
  | .uint8 => "UInt8"
  | .uint16 => "UInt16"
  | .uint32 => "UInt32"
  | .uint64 => "UInt64"
  | .uint128 => "UInt128"
  | .uint256 => "UInt256"
  | .float32 => "Float32"
  | .float64 => "Float64"
  | .string | .binary => "String"
  | .uuid => "UUID"
  | .date => "Date"
  | .date32 => "Date32"
  | .ipv4 => "IPv4"
  | .ipv6 => "IPv6"
  | .point => "Point"
  | .ring => "Ring"
  | .polygon => "Polygon"
  | .multiPolygon => "MultiPolygon"
  | .object => "JSON"
  | _ => ""

/-- `Display` of a type. -/
def display : ChType → List Char
  | .decimal32 s => applied "Decimal32" (displayNat s)
  | .decimal64 s => applied "Decimal64" (displayNat s)
  | .decimal128 s => applied "Decimal128" (displayNat s)
  | .decimal256 s => applied "Decimal256" (displayNat s)
  | .fixedSizedBinary s | .fixedSizedString s => applied "FixedString" (displayNat s)
  | .dateTime tz => applied "DateTime" (displayTz tz)
  | .dateTime64 precision tz =>
      applied "DateTime64" (displayNat precision ++ ',' :: displayTz tz)
  | .enum8 items => applied "Enum8" (displayEntries Int8.toInt items)
  | .enum16 items => applied "Enum16" (displayEntries Int16.toInt items)
  | .lowCardinality inner => applied "LowCardinality" inner.display
  | .array inner => applied "Array" inner.display
  | .tuple items => applied "Tuple" ([','].intercalate (displays items))
  | .nullable inner => applied "Nullable" inner.display
  | .map key value => applied "Map" (key.display ++ ',' :: value.display)
  | t => t.bareName.toList
where
  displays : List ChType → List (List Char)
    | [] => []
    | t :: ts => t.display :: displays ts

end ChType

/-! ## Reading names -/

/-- `TypeParseError`. -/
def typeError {α : Type} (msg : List Fragment) : Result α := .fail (.typeParseError msg)

/-- Characters as a piece of an error text. -/
def Fragment.chars (s : List Char) : Fragment := .text (String.ofList s)

/-- `eat_identifier`: the identifier at the head of a name, and what follows it. -/
def eatIdentifier (lex : Lexicon) (input : List Char) : List Char × List Char :=
  go true input
where
  /-- `first` holds of the first character only. -/
  go (first : Bool) : List Char → List Char × List Char
    | [] => ([], [])
    | c :: cs =>
        if lex.isAlphabetic c || c == '_' || c == '$' || (!first && lex.isNumeric c) then
          let (ident, rest) := go false cs
          (c :: ident, rest)
        else ([], c :: cs)

namespace ArgsIterator

/-- The items that the iterator yields, up to the first that is an error.  `slice` holds
the characters of the argument since the last comma. -/
def items (inParens : Nat) (inQuotes escaped : Bool) (slice : List Char) :
    List Char → List (Result (List Char))
  | [] =>
      if inParens ≠ 0 then [typeError [.text "Mismatched parentheses"]]
      else if (trim slice).isEmpty then []
      else if trim slice = [','] then [typeError [.text "Trailing comma in argument list"]]
      else [.ok (trim slice)]
  | c :: cs =>
      if inQuotes then
        if c = '\\' then items inParens true true (slice ++ [c]) cs
        else items inParens (!(c = '\'' && !escaped)) false (slice ++ [c]) cs
      else if c = '\'' then items inParens true false (slice ++ [c]) cs
      else if c = '(' then items (inParens + 1) false false (slice ++ [c]) cs
      else if c = ')' then
        if inParens = 0 then [.panic .subtractOverflow]
        else items (inParens - 1) false false (slice ++ [c]) cs
      else if c = ',' ∧ inParens = 0 then
        if (trim slice).isEmpty then [typeError [.text "Empty argument in list"]]
        else .ok (trim slice) :: items 0 false false [] cs
      else items inParens false false (slice ++ [c]) cs

end ArgsIterator

/-- What stands between the parentheses; the check at the head of the two parsers of
arguments. -/
def stripParens (malformed : String) (input : List Char) : Result (List Char) :=
  if input.head? = some '(' ∧ input.getLast? = some ')' then .ok (trim input.tail.dropLast)
  else typeError [.text malformed]

/-- `parse_args_iter`. -/
def parseArgsIter (input : List Char) : Result (List (Result (List Char))) := do
  let input ← stripParens "Malformed arguments to type" input
  if input.getLast? = some ',' then typeError [.text "Trailing comma in argument list"]
  else .ok (ArgsIterator.items 0 false false [] input)

/-- `parse_fixed_args`: at most `n` arguments. -/
def parseFixedArgs (n : Nat) (input : List Char) : Result (List (List Char)) := do
  let items ← parseArgsIter input
  let args ← Outcome.traverse id (items.take n)
  match items.drop n with
  | [] => .ok args
  | .error (.panic p) :: _ => .panic p
  | _ :: _ => typeError [.text "too many arguments"]

/-- `parse_variable_args`. -/
def parseVariableArgs (input : List Char) : Result (List (List Char)) := do
  let items ← parseArgsIter input
  Outcome.traverse id items

/-- `parse_scale` and `parse_precision`. -/
def parseUsize (complaint : String) (s : List Char) : Result Nat :=
  match parseUnsigned usizeMax s with
  | .ok n => .ok n
  | .error _ => typeError [.text complaint]

namespace ParseEnum

/-- `EnumParseState`. -/
inductive State
  | expectQuote
  | inName
  | expectEqual
  | inValue

/-- The number of an entry. -/
def value {ι : Type} (parse : List Char → Except IntErrorKind ι) (s : List Char) : Result ι :=
  match parse s with
  | .ok n => .ok n
  | .error e => typeError [.text "Invalid enum value '", .chars s, .text "': ", .text e.description]

/-- The loop over the characters of the entries and the checks after it. -/
def entries {ι : Type} (parse : List Char → Except IntErrorKind ι) (state : State)
    (escaped : Bool) (name number : List Char) : List Char → Result (List (String × ι))
  | [] =>
      match state with
      | .inValue =>
          if number.isEmpty then .ok []
          else do
            let n ← value parse number
            .ok [(String.ofList name, n)]
      | .expectQuote => typeError [.text "Expected enum variant, found end of input"]
      | .inName | .expectEqual => typeError [.text "Incomplete enum variant at end of input"]
  | c :: cs =>
      match state with
      | .expectQuote =>
          if c = '\'' then entries parse .inName escaped name number cs
          else if isWhitespace c then entries parse .expectQuote escaped name number cs
          else
            typeError [.text "Expected single quote at start of variant name, found '",
              .chars [c], .text "'"]
      | .inName =>
          if escaped then entries parse .inName false (name ++ [c]) number cs
          else if c = '\\' then entries parse .inName true name number cs
          else if c = '\'' then entries parse .expectEqual false name number cs
          else entries parse .inName false (name ++ [c]) number cs
      | .expectEqual =>
          if c = '=' then entries parse .inValue escaped name number cs
          else if isWhitespace c then entries parse .expectEqual escaped name number cs
          else
            typeError [.text "Expected '=' after variant name, found '", .chars [c], .text "'"]
      | .inValue =>
          if c = ',' then do
            let n ← value parse number
            let rest ← entries parse .expectQuote escaped [] [] cs
            .ok ((String.ofList name, n) :: rest)
          else if isWhitespace c then entries parse .inValue escaped name number cs
          else entries parse .inValue escaped name (number ++ [c]) cs

/-- `parse_enum_options!`. -/
def options {ι : Type} (parse : List Char → Except IntErrorKind ι) (input : List Char) :
    Result (List (String × ι)) := do
  let input ← stripParens "Enum arguments must be enclosed in parentheses" input
  if input.isEmpty then .ok []
  else do
    let options ← entries parse .expectQuote false [] [] input
    if input.getLast? = some ',' then typeError [.text "Trailing comma in enum variants"]
    else .ok options

end ParseEnum

namespace FromStr

/-- One argument; `complaint` is made of the number of arguments and the arguments. -/
def oneArg (complaint : List (List Char) → List Fragment) (following : List Char) :
    Result (List Char) := do
  let args ← parseFixedArgs 1 following
  match args with
  | [a] => .ok a
  | _ => typeError (complaint args)

/-- The arguments as `{:?}` prints the array of `n`. -/
def printed (n : Nat) (args : List (List Char)) : Fragment :=
  .strings ((args ++ List.replicate (n - args.length) []).map String.ofList)

/-- `Decimal32(s)` and its siblings: a scale from 1 to `max`. -/
def scaled (name : String) (max : Nat) (following : List Char) : Result Nat := do
  let a ← oneArg (fun args =>
    [.text "bad arg count for ", .text name, .text ", expected 1 and got ",
      .number args.length, .text ": ", printed 1 args]) following
  let s ← parseUsize "couldn't parse scale" a
  if s = 0 ∨ max < s then
    typeError [.text "Invalid scale ", .number s, .text " for ", .text name,
      .text ", must be 1..=", .number max]
  else .ok s

/-- `Decimal(p, s)`. -/
def decimal (following : List Char) : Result ChType := do
  let args ← parseFixedArgs 2 following
  match args with
  | [a, b] => do
      let p ← parseUsize "could not parse precision" a
      let s ← parseUsize "couldn't parse scale" b
      if s = 0 ∨ (p ≤ 9 ∧ 9 < s) ∨ (p ≤ 18 ∧ 18 < s) ∨ (p ≤ 38 ∧ 38 < s) ∨ (p ≤ 76 ∧ 76 < s) then
        typeError [.text "Invalid scale ", .number s, .text " for precision ", .number p]
      else if p ≤ 9 then .ok (.decimal32 s)
      else if p ≤ 18 then .ok (.decimal64 s)
      else if p ≤ 38 then .ok (.decimal128 s)
      else if p ≤ 76 then .ok (.decimal256 s)
      else typeError [.text "bad decimal spec, cannot exceed 76 precision"]
  | _ => typeError [.text "Decimal expects 2 args, got ", .number args.length, .text ": ",
      printed 2 args]

def fixedString (following : List Char) : Result ChType := do
  let a ← oneArg (fun args =>
    [.text "bad arg count for FixedString, expected 1 and got ", .number args.length,
      .text ": ", printed 1 args]) following
  let s ← parseUsize "couldn't parse scale" a
  if s = 0 then typeError [.text "FixedString size must be greater than 0"]
  else .ok (.fixedSizedString s)

/-- A time zone in quotes.  A single quote is its own first and last character, and the
slice between the two is out of range. -/
def timezone (lex : Lexicon) (name : String) (s : List Char) : Result Tz :=
  if ¬ (s.head? = some '\'' ∧ s.getLast? = some '\'') then
    typeError [.text name, .text " timezone must be quoted: '", .chars s, .text "'"]
  else if s.length < 2 then .panic .indexOutOfBounds
  else
    match lex.timezone s.tail.dropLast with
    | some tz => .ok tz
    | none =>
        typeError [.text "failed to parse timezone '", .chars s,
          .text "': failed to parse timezone"]

/-- `chrono_tz::UTC`. -/
def utc : Tz := ⟨"UTC"⟩

def dateTime (lex : Lexicon) (following : List Char) : Result ChType := do
  let args ← parseFixedArgs 1 following
  match args with
  | [] => .ok (.dateTime utc)
  | a :: _ => do
      let tz ← timezone lex "DateTime" a
      .ok (.dateTime tz)

def dateTime64 (lex : Lexicon) (following : List Char) : Result ChType := do
  let args ← parseFixedArgs 2 following
  match args with
  | [] => typeError [.text "DateTime64 expects 1 or 2 args, got ", .number 0, .text ": ",
      printed 2 []]
  | a :: rest => do
      let precision ← parseUsize "could not parse precision" a
      match rest with
      | [] => .ok (.dateTime64 precision utc)
      | b :: _ => do
          let tz ← timezone lex "DateTime64" b
          .ok (.dateTime64 precision tz)

/-- The names without arguments. -/
def bare : String → Result ChType
  | "Int8" => .ok .int8
  | "Int16" => .ok .int16
  | "Int32" => .ok .int32
  | "Int64" => .ok .int64
  | "Int128" => .ok .int128
  | "Int256" => .ok .int256
  | "Bool" | "UInt8" => .ok .uint8
  | "UInt16" => .ok .uint16
  | "UInt32" => .ok .uint32
  | "UInt64" => .ok .uint64
  | "UInt128" => .ok .uint128
  | "UInt256" => .ok .uint256
  | "Float32" => .ok .float32
  | "Float64" => .ok .float64
  | "String" => .ok .string
  | "UUID" | "Uuid" | "uuid" => .ok .uuid
  | "Date" => .ok .date
  | "Date32" => .ok .date32
  | "DateTime" => .ok (.dateTime utc)
  | "IPv4" => .ok .ipv4
  | "IPv6" => .ok .ipv6
  | "Point" => .ok .point
  | "Ring" => .ok .ring
  | "Polygon" => .ok .polygon
  | "MultiPolygon" => .ok .multiPolygon
  | "Object" | "Json" | "OBJECT" | "JSON" => .ok .object
  | ident => typeError [.text "invalid type name: '", .text ident, .text "'"]

/-- The names with arguments; `parse` is the parser of the inner types. -/
def withArgs (lex : Lexicon) (parse : List Char → Result ChType) (ident : String)
    (following : List Char) : Result ChType :=
  match ident with
  | "Decimal" => decimal following
  | "Decimal32" => .decimal32 <$> scaled "Decimal32" 9 following
  | "Decimal64" => .decimal64 <$> scaled "Decimal64" 18 following
  | "Decimal128" => .decimal128 <$> scaled "Decimal128" 38 following
  | "Decimal256" => .decimal256 <$> scaled "Decimal256" 76 following
  | "FixedString" => fixedString following
  | "DateTime" => dateTime lex following
  | "DateTime64" => dateTime64 lex following
  | "Enum8" =>
      .enum8 <$> ParseEnum.options (fun s => Int8.ofInt <$> parseSigned 127 s) following
  | "Enum16" =>
      .enum16 <$> ParseEnum.options (fun s => Int16.ofInt <$> parseSigned 32767 s) following
  | "LowCardinality" => do
      let a ← oneArg (fun args => [.text "LowCardinality expected 1 arg and got ",
        .number args.length, .text ": ", printed 1 args]) following
      .lowCardinality <$> parse a
  | "Array" => do
      let a ← oneArg (fun args => [.text "Array expected 1 arg and got ",
        .number args.length, .text ": ", printed 1 args]) following
      .array <$> parse a
  | "Tuple" => do
      let args ← parseVariableArgs following
      .tuple <$> Outcome.traverse parse args
  | "Nullable" => do
      let a ← oneArg (fun args => [.text "Nullable expects 1 arg: ", printed 1 args]) following
      .nullable <$> parse a
  | "Map" => do
      let args ← parseFixedArgs 2 following
      match args with
      | [a, b] => do
          let key ← parse a
          let value ← parse b
          .ok (.map key value)
      | _ => typeError [.text "Map expects 2 args, got ", .number args.length, .text ": ",
          printed 2 args]
  | "Nested" => typeError [.text "unsupported Nested type"]
  | id => typeError [.text "invalid type with arguments: '", .text id, .text "' (ident = ",
      .text id, .text ")"]

/-- A name nested at most `fuel` deep. -/
def parse (lex : Lexicon) : Nat → List Char → Result ChType
  | 0, _ => .panic .outOfFuel
  | fuel + 1, s =>
      let (ident, following) := eatIdentifier lex s
      if ident.isEmpty then
        typeError [.text "invalid empty identifier for type: '", .chars s, .text "'"]
      else if (trim following).isEmpty then bare (String.ofList ident)
      else withArgs lex (parse lex fuel) (String.ofList ident) (trim following)

end FromStr

/-- `Type::from_str`.  An argument is shorter than the name it stands in. -/
def ChType.fromStr (lex : Lexicon) (s : List Char) : Result ChType :=
  FromStr.parse lex (s.length + 1) s

end ClickhouseArrow
