import SchemaTypes.Proofs.SchemaNodes

/-!
Validity of a value under a schema, for the keywords that types are drawn from. Every other keyword,
a bound that is no whole number, a name of no known kind and a value that is no schema constrain
nothing; without a `type`, keywords for members admit only objects, and else `items` only arrays.
-/

namespace SchemaTypes

def Number.isWhole : Number → Prop
  | .integer _ => True
  | .double value => value.units % powerOfTwo 1074 = 0

@[simp]
theorem Number.isWhole_integer (value : Int) : (Number.integer value).isWhole :=
  trivial

def kindAdmits (name : String) (value : Json) : Prop :=
  if name = "string" then ∃ text, value = .string text
  else if name = "number" then ∃ number, value = .number number
  else if name = "integer" then ∃ number, value = .number number ∧ number.isWhole
  else if name = "boolean" then ∃ truth, value = .boolean truth
  else if name = "null" then value = .null
  else if name = "object" then ∃ members, value = .object members
  else if name = "array" then ∃ elements, value = .array elements
  else True

def typeAdmits (members : List (String × Json)) (value : Json) : Prop :=
  match members.lookup "type" with
  | some (.string name) => kindAdmits name value
  | some (.array names) => ∃ name, .string name ∈ names ∧ kindAdmits name value
  | some _ => True
  | none =>
    if hasMember "properties" members ∨ hasMember "additionalProperties" members ∨
        hasMember "required" members then ∃ fields, value = .object fields
    else hasMember "items" members → ∃ elements, value = .array elements

def enumAdmits (members : List (String × Json)) (value : Json) : Prop :=
  ∀ literals, members.lookup "enum" = some (.array literals) →
    ∃ literal ∈ literals, literal.same value = true

def constAdmits (members : List (String × Json)) (value : Json) : Prop :=
  ∀ literal, members.lookup "const" = some literal → literal.same value = true

def requiredAdmits (members : List (String × Json)) (value : Json) : Prop :=
  ∀ names fields, members.lookup "required" = some (.array names) → value = .object fields →
    ∀ name, .string name ∈ names → hasMember name fields

def minItemsAdmits (members : List (String × Json)) (value : Json) : Prop :=
  ∀ least elements, (members.lookup "minItems").bind Json.nat? = some least →
    value = .array elements → least ≤ elements.length

def maxItemsAdmits (members : List (String × Json)) (value : Json) : Prop :=
  ∀ most elements, (members.lookup "maxItems").bind Json.nat? = some most →
    value = .array elements → elements.length ≤ most

def isDeclared (members : List (String × Json)) (name : String) : Prop :=
  ∃ named, members.lookup "properties" = some (.object named) ∧ name ∈ named.map (·.1)

/-- Validity of a value under a schema. -/
def Valid : Json → Json → Prop
  | .boolean admits, _ => admits = true
  | .object members, value =>
    typeAdmits members value ∧ enumAdmits members value ∧ constAdmits members value ∧
    requiredAdmits members value ∧ minItemsAdmits members value ∧ maxItemsAdmits members value ∧
    (∀ arms, members.lookup "allOf" = some (.array arms) → ∀ arm, arm ∈ arms → Valid arm value) ∧
    (∀ arms, members.lookup "anyOf" = some (.array arms) → ∃ arm, ∃ _ : arm ∈ arms, Valid arm value) ∧
    (∀ arms, members.lookup "oneOf" = some (.array arms) →
      ∃ position, ∃ _ : position < arms.length, Valid arms[position] value ∧
        ∀ other, ∀ _ : other < arms.length, other ≠ position → ¬Valid arms[other] value) ∧
    (∀ named fields, members.lookup "properties" = some (.object named) → value = .object fields →
      ∀ member, member ∈ named → ∀ content, fields.lookup member.1 = some content →
        Valid member.2 content) ∧
    (∀ rule fields, members.lookup "additionalProperties" = some rule → value = .object fields →
      ∀ field ∈ fields, ¬isDeclared members field.1 → Valid rule field.2) ∧
    (∀ rule elements, members.lookup "items" = some rule → value = .array elements →
      ∀ element ∈ elements, Valid rule element) ∧
    (∀ rules elements, members.lookup "items" = some (.array rules) → value = .array elements →
      ∀ position element, ∀ _ : position < rules.length, elements[position]? = some element →
        Valid rules[position] element) ∧
    (∀ rules rule elements, members.lookup "items" = some (.array rules) →
      members.lookup "additionalItems" = some rule → value = .array elements →
        ∀ position element, elements[position]? = some element → rules.length ≤ position →
          Valid rule element)
  | _, _ => True
termination_by schema => sizeOf schema
decreasing_by
  · refine sizeOf_hasPart_lt (.arm ?_ ‹_› ‹_›)
    simp [combiningKeys]
  · refine sizeOf_hasPart_lt (.arm ?_ ‹_› ‹_›)
    simp [combiningKeys]
  · refine sizeOf_hasPart_lt (.arm ?_ ‹_› (List.getElem_mem _))
    simp [combiningKeys]
  · refine sizeOf_hasPart_lt (.arm ?_ ‹_› (List.getElem_mem _))
    simp [combiningKeys]
  · exact sizeOf_hasPart_lt (.property ‹_› ‹_›)
  · refine sizeOf_hasPart_lt (.single ?_ ‹_›)
    simp [singleKeys]
  · refine sizeOf_hasPart_lt (.single ?_ ‹_›)
    simp [singleKeys]
  · exact sizeOf_hasPart_lt (.positional ‹_› (List.getElem_mem _))
  · refine sizeOf_hasPart_lt (.single ?_ ‹_›)
    simp [singleKeys]

end SchemaTypes
