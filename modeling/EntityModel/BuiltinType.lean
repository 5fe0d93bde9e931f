/-
The built-in simple types.

Every repository starts with these types, in the order of `BuiltinType.all`:
the data types of XML Schema that models use, and the two extra ones for texts
in several languages and for universal identifiers.

* `ofName?_name` — a built-in type is found under its name;
* `name_of_ofName?` — and under no other.
-/

namespace EntityModel

/-- A simple type known to every repository. -/
inductive BuiltinType where
  | long | decimal | boolean | byte | date | dateTime | double | float | integer | int | short
  | string | positiveInteger | negativeInteger | nonPositiveInteger | nonNegativeInteger
  | unsignedInt | hexBinary | base64Binary | anyUri | qName | time | duration | unsignedShort
  | unsignedByte | unsignedLong | multiLingual | uuid | gYearMonth | gYear | gMonthDay | gDay
  | gMonth
  deriving DecidableEq, Repr

namespace BuiltinType

/-- The built-in types in the order of their registration. -/
def all : List BuiltinType :=
  [.long, .decimal, .boolean, .byte, .date, .dateTime, .double, .float, .integer, .int, .short,
   .string, .positiveInteger, .negativeInteger, .nonPositiveInteger, .nonNegativeInteger,
   .unsignedInt, .hexBinary, .base64Binary, .anyUri, .qName, .time, .duration, .unsignedShort,
   .unsignedByte, .unsignedLong, .multiLingual, .uuid, .gYearMonth, .gYear, .gMonthDay, .gDay,
   .gMonth]

/-- The name under which the type is registered. -/
def name : BuiltinType → String
  | .long => "long"
  | .decimal => "decimal"
  | .boolean => "boolean"
  | .byte => "byte"
  | .date => "date"
  | .dateTime => "dateTime"
  | .double => "double"
  | .float => "float"
  | .integer => "integer"
  | .int => "int"
  | .short => "short"
  | .string => "string"
  | .positiveInteger => "positiveInteger"
  | .negativeInteger => "negativeInteger"
  | .nonPositiveInteger => "nonPositiveInteger"
  | .nonNegativeInteger => "nonNegativeInteger"
  | .unsignedInt => "unsignedInt"
  | .hexBinary => "hexBinary"
  | .base64Binary => "base64Binary"
  | .anyUri => "anyURI"
  | .qName => "QName"
  | .time => "time"
  | .duration => "duration"
  | .unsignedShort => "unsignedShort"
  | .unsignedByte => "unsignedByte"
  | .unsignedLong => "unsignedLong"
  | .multiLingual => "MULTI_LINGUAL"
  | .uuid => "UUID"
  | .gYearMonth => "gYearMonth"
  | .gYear => "gYear"
  | .gMonthDay => "gMonthDay"
  | .gDay => "gDay"
  | .gMonth => "gMonth"

/-- The name as one capitalised word. -/
def title : BuiltinType → String
  | .long => "Long"
  | .decimal => "Decimal"
  | .boolean => "Boolean"
  | .byte => "Byte"
  | .date => "Date"
  | .dateTime => "DateTime"
  | .double => "Double"
  | .float => "Float"
  | .integer => "Integer"
  | .int => "Int"
  | .short => "Short"
  | .string => "String"
  | .positiveInteger => "PositiveInteger"
  | .negativeInteger => "NegativeInteger"
  | .nonPositiveInteger => "NonPositiveInteger"
  | .nonNegativeInteger => "NonNegativeInteger"
  | .unsignedInt => "UnsignedInt"
  | .hexBinary => "HexBinary"
  | .base64Binary => "Base64Binary"
  | .anyUri => "AnyUri"
  | .qName => "QName"
  | .time => "Time"
  | .duration => "Duration"
  | .unsignedShort => "UnsignedShort"
  | .unsignedByte => "UnsignedByte"
  | .unsignedLong => "UnsignedLong"
  | .multiLingual => "MultiLingual"
  | .uuid => "Uuid"
  | .gYearMonth => "GYearMonth"
  | .gYear => "GYear"
  | .gMonthDay => "GMonthDay"
  | .gDay => "GDay"
  | .gMonth => "GMonth"

/-- The built-in type called `text`. -/
def ofName? (text : String) : Option BuiltinType :=
  all.find? fun type => type.name == text

theorem mem_all (type : BuiltinType) : type ∈ all := by cases type <;> decide

theorem ofName?_name (type : BuiltinType) : ofName? type.name = some type := by
  cases type <;> rfl

theorem name_injective {a b : BuiltinType} (h : a.name = b.name) : a = b := by
  have found := ofName?_name a
  rw [h, ofName?_name] at found
  exact (Option.some.inj found).symm

theorem name_of_ofName? {text : String} {type : BuiltinType} (h : ofName? text = some type) :
    type.name = text := by
  simpa using List.find?_some h

end BuiltinType

end EntityModel
