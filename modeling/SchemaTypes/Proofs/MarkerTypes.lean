import SchemaTypes.Proofs.DecimalImport
import SchemaTypes.Proofs.Payloads
import SchemaTypes.Proofs.Precedence

/-!
What the hint of a list of names admits. It has one part for each name with a type of its own, in the
order of the list, so it admits what is stored under these names. Nothing in it stands for a name that
the table does not have, and the hint takes the place of whatever else the node says.
-/

namespace SchemaTypes

open Json

/-- Which values are stored under a name, and which ones a written type has. A type of the table has
all values that are stored under its name. -/
structure Reading (Stored : Type) where
  marks : String → Stored → Prop
  types : String → Stored → Prop
  mapped {name type : String} {stored : Stored} (known : mappedType name = some type)
    (marked : marks name stored) : types type stored

/-- The text is written as a union, so it admits what one of its members has. -/
def Reading.Admits {Stored : Type} (reading : Reading Stored) (text : String) (stored : Stored) : Prop :=
  ∃ type ∈ barParts text, reading.types type stored

/-- Values of a document store, as far as markers tell them apart. -/
inductive StoredValue where
  | null
  | bool (value : Bool)
  | number (value : Number)
  | string (text : String)
  | date (milliseconds : Int)
  | decimal (digits exponent : Int)
  | document (fields : List (String × StoredValue))

namespace StoredValue

def marker : StoredValue → String
  | null => "null"
  | bool _ => "bool"
  | number _ => "number"
  | string _ => "string"
  | date _ => "date"
  | decimal _ _ => "decimal"
  | document _ => "object"

def type : StoredValue → String
  | null => "null"
  | bool _ => "boolean"
  | number _ => "number"
  | string _ => "string"
  | date _ => "Date"
  | decimal _ _ => "Decimal128"
  | document _ => "object"

theorem type_of_mapped {stored : StoredValue} {type : String}
    (known : mappedType stored.marker = some type) : stored.type = type := by
  cases stored with
  | document fields => cases (known : none = some type)
  | _ => exact Option.some.inj known

def reading : Reading StoredValue where
  marks name stored := stored.marker = name
  types type stored := stored.type = type
  mapped known marked := type_of_mapped (marked ▸ known)

end StoredValue

def openVisit : List (String × Json) := [
  ("title", .string "End"),
  ("bsonType", .array [.string "date", .string "objectId", .number (.integer 7), .string "null"]),
  ("properties", .object [])]

def visit : Json := .object [("properties", .object [("end", .object openVisit)])]

end SchemaTypes
