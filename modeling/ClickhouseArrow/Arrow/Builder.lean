import ClickhouseArrow.Arrow.Arrays
import ClickhouseArrow.Arrow.TypeMap

/-!
# Builders

`TypedBuilder`, the builder of a column, which is chosen once by the type of the column and
its data type.  Every decoder finishes the builders that it fills, so a builder is empty
whenever a column is begun: what is left of it is which builder it is.
-/

namespace ClickhouseArrow

open Wire

namespace Arrow

/-- `TypedListBuilder`, without the builder of the items. -/
inductive ListBuilder
  | list
  | largeList
  | fixedList (size : Int32)
  deriving DecidableEq, Repr

/-- `TypedBuilder`.  The parameters are those of the array that is built: the scale of a
decimal, the zone of a timestamp, the width of a fixed-size binary. -/
inductive TypedBuilder
  | int8 | int16 | int32 | int64
  | uint8 | uint16 | uint32 | uint64
  | float32 | float64
  | decimal32 (scale : Int8)
  | decimal64 (scale : Int8)
  | decimal128 (scale : Int8)
  | decimal256 (scale : Int8)
  | date
  | date32
  | dateTime (tz : Option String)
  | dateTimeS (tz : Option String)
  | dateTimeMs (tz : Option String)
  | dateTimeMu (tz : Option String)
  | dateTimeNano (tz : Option String)
  | string
  | object
  | binary
  | fixedSizeBinary (size : Int32)
  | enum8
  | enum16
  | list (kind : ListBuilder) (item : TypedBuilder)
  | lowCardinality (key : KeyType) (value : TypedBuilder)
  | map (key value : TypedBuilder)
  | tuple (builders : List TypedBuilder)

namespace TypedBuilder

/-- `as_ref`, the name of the variant. -/
def name : TypedBuilder → String
  | .int8 => "Int8"
  | .int16 => "Int16"
  | .int32 => "Int32"
  | .int64 => "Int64"
  | .uint8 => "UInt8"
  | .uint16 => "UInt16"
  | .uint32 => "UInt32"
  | .uint64 => "UInt64"
  | .float32 => "Float32"
  | .float64 => "Float64"
  | .decimal32 _ => "Decimal32"
  | .decimal64 _ => "Decimal64"
  | .decimal128 _ => "Decimal128"
  | .decimal256 _ => "Decimal256"
  | .date => "Date"
  | .date32 => "Date32"
  | .dateTime _ => "DateTime"
  | .dateTimeS _ => "DateTimeS"
  | .dateTimeMs _ => "DateTimeMs"
  | .dateTimeMu _ => "DateTimeMu"
  | .dateTimeNano _ => "DateTimeNano"
  | .string => "String"
  | .object => "Object"
  | .binary => "Binary"
  | .fixedSizeBinary _ => "FixedSizeBinary"
  | .enum8 => "Enum8"
  | .enum16 => "Enum16"
  | .list _ _ => "List"
  | .lowCardinality _ _ => "LowCardinality"
  | .map _ _ => "Map"
  | .tuple _ => "Tuple"

end TypedBuilder

/-- `LowCardinalityKeyBuilder::try_new`. -/
def keyBuilder (d : DataType) : ArrowResult KeyType :=
  match d with
  | .primitive .uint8 => .ok .uint8
  | .primitive .uint16 => .ok .uint16
  | .primitive .uint32 => .ok .uint32
  | .primitive .uint64 => .ok .uint64
  | .primitive .int8 => .ok .int8
  | .primitive .int16 => .ok .int16
  | .primitive .int32 => .ok .int32
  | .primitive .int64 => .ok .int64
  | d => .fail (.arrowTypeMismatch "UInt8/UInt16/UInt32/UInt64" d)

/-- `get_map_fields`. -/
def getMapFields (d : DataType) : ArrowResult (Field × Field) :=
  match d with
  | .map entries _ =>
      match entries.dataType with
      | .struct (key :: value :: _) => .ok (key, value)
      | .struct _ => .fail (.arrowDeserialize [.text "Map inner fields malformed"])
      | _ => .fail (.arrowDeserialize [.text "Expected key type Struct got"])
  | d => .fail (.arrowDeserialize [.text "Expected Map got ", .dataType d])

/-- `with_precision_and_scale`: a scale is at most the largest one and, where it is positive,
at most the precision.  The precision is one of the class. -/
def checkScale (maxScale precision : Nat) (scale : Int8) : ArrowResult Int8 :=
  if maxScale < scale.toInt then
    .fail (.arrow [.text "scale ", .number scale.toInt, .text " is greater than max ",
      .number maxScale])
  else if 0 < scale.toInt ∧ precision < scale.toInt then
    .fail (.arrow [.text "scale ", .number scale.toInt, .text " is greater than precision ",
      .number precision])
  else .ok scale

/-- `FixedSizeBinaryBuilder::with_capacity`, which asserts that the width is not negative. -/
def fixedSizeBinaryBuilder (size : Int32) : ArrowResult TypedBuilder :=
  if 0 ≤ size.toInt then .ok (.fixedSizeBinary size) else .panic .assertionFailed

/-- The zone of the type, where the data type has one. -/
def builderZone (d : DataType) (tz : Tz) : Option String :=
  match d with
  | .primitive (.timestamp _ (some _)) => some tz.name
  | _ => none

/-- `typed_build!`, the table of the types that are not nested. -/
def typedBuild (t : ChType) (d : DataType) : ArrowResult TypedBuilder :=
  match t with
  | .int8 => .ok .int8
  | .int16 => .ok .int16
  | .int32 => .ok .int32
  | .int64 => .ok .int64
  | .uint8 => .ok .uint8
  | .uint16 => .ok .uint16
  | .uint32 => .ok .uint32
  | .uint64 => .ok .uint64
  | .float32 => .ok .float32
  | .float64 => .ok .float64
  | .decimal32 s => .decimal32 <$> checkScale 38 9 (i8OfUsize s)
  | .decimal64 s => .decimal64 <$> checkScale 38 18 (i8OfUsize s)
  | .decimal128 s => .decimal128 <$> checkScale 38 38 (i8OfUsize s)
  | .decimal256 s => .decimal256 <$> checkScale 76 76 (i8OfUsize s)
  | .date => .ok .date
  | .date32 => .ok .date32
  | .dateTime tz => .ok (.dateTime (builderZone d tz))
  | .dateTime64 p tz =>
      if p = 0 then .ok (.dateTimeS (builderZone d tz))
      else if p ≤ 3 then .ok (.dateTimeMs (builderZone d tz))
      else if p ≤ 6 then .ok (.dateTimeMu (builderZone d tz))
      else if p ≤ 9 then .ok (.dateTimeNano (builderZone d tz))
      else .fail (.arrowDeserialize [.text "Invalid DateTime64"])
  | .string => .ok .string
  | .object => .ok .object
  | .fixedSizedString n | .fixedSizedBinary n => fixedSizeBinaryBuilder (i32OfUsize n)
  | .binary => .ok .binary
  | .ipv4 => fixedSizeBinaryBuilder 4
  | .ipv6 | .uuid | .int128 | .uint128 => fixedSizeBinaryBuilder 16
  | .int256 | .uint256 => fixedSizeBinaryBuilder 32
  | .enum8 _ => .ok .enum8
  | .enum16 _ => .ok .enum16
  -- `unimplemented!()`
  | .point | .polygon | .multiPolygon | .ring => .panic .unreachable
  | t => .fail (.unexpectedType t)

namespace TypedBuilder

mutual

/-- `TypedBuilder::try_new` after up to `strips` calls of `strip_null`.  It makes one itself,
and the builders of lists and of dictionaries one more. -/
def tryNewOf (strips : Nat) : ChType → DataType → ArrowResult TypedBuilder
  | .nullable inner, d =>
      match strips with
      | 0 => .fail (.unexpectedType (.nullable inner))
      | n + 1 => tryNewOf n inner d
  | .array inner, d =>
      match d with
      | .list false f => .list .list <$> tryNewOf 2 inner f.dataType
      | .list true f => .list .largeList <$> tryNewOf 2 inner f.dataType
      | .fixedSizeList f size => .list (.fixedList size) <$> tryNewOf 2 inner f.dataType
      | d => .fail (.arrowDeserialize [.text "Unexpected type: ", .dataType d])
  | .lowCardinality inner, d =>
      match d with
      | .dictionary keyType valueType => do
          let key ← keyBuilder keyType
          let value ← tryNewOf 2 inner valueType
          .ok (.lowCardinality key value)
      | d => .fail (.arrowTypeMismatch "DataType::Dictionary" d)
  | .tuple inner, d =>
      match d with
      | .struct fields =>
          if inner.length ≠ fields.length then
            .fail (.arrowDeserialize
              [.text "Tuple length mismatch: ", .type (.tuple inner), .text " != ", .dataType d])
          else .tuple <$> tryNews inner fields
      | d => .fail (.arrowDeserialize [.text "Unexpected datatype for tuple: ", .dataType d])
  | .map key value, d => do
      let fields ← getMapFields d
      let k ← tryNewOf 1 key fields.1.dataType
      let v ← tryNewOf 1 value fields.2.dataType
      .ok (.map k v)
  | t, d => typedBuild t d

/-- The builders of the components of a tuple. -/
def tryNews : List ChType → List Field → ArrowResult (List TypedBuilder)
  | t :: ts, f :: fs => do
      let b ← tryNewOf 1 t f.dataType
      let bs ← tryNews ts fs
      .ok (b :: bs)
  | _, _ => .ok []

end

/-- `TypedBuilder::try_new`. -/
def tryNew (t : ChType) (d : DataType) : ArrowResult TypedBuilder := tryNewOf 1 t d

end TypedBuilder

end Arrow

end ClickhouseArrow
