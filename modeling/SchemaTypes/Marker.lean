import SchemaTypes.Json.Value

namespace SchemaTypes

def markerKey : String := "bsonType"

def enumKey : String := "enum"

def hintKey : String := "tsType"

def decimalMarker : String := "decimal"

def decimalImport : String := "import \x7b Decimal128 \x7d from \"bson\";"

def markerTable : List (String × String) := [
  ("number", "number"),
  ("string", "string"),
  ("bool", "boolean"),
  ("date", "Date"),
  ("null", "null"),
  (decimalMarker, "Decimal128")]

def mappedType (name : String) : Option String :=
  markerTable.lookup name

def hintMembers : Json → List String
  | .string name => (mappedType name).toList
  | .array names => (names.filterMap Json.string?).filterMap mappedType
  | _ => []

/-- The types of a marker joined by bars; empty when nothing is mapped. -/
def hintText (marker : Json) : String :=
  String.intercalate "|" (hintMembers marker)

def namesMarker (name : String) : Json → Bool
  | .string marker => marker = name
  | .array markers => (markers.filterMap Json.string?).contains name
  | _ => false

end SchemaTypes
