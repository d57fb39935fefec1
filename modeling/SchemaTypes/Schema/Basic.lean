import SchemaTypes.Json.Value

namespace SchemaTypes

inductive Fault where
  | enumNotArray
  | allOfNotArray
  | anyOfNotArray
  | oneOfNotArray
  | typeNotNames
  | requiredNotArray
  | requiredNotNames
  | propertiesNotObject
  | additionalPropertiesNotSchema
  | itemsNotSchemas
  deriving DecidableEq, Repr

namespace Fault

def keyword : Fault → String
  | enumNotArray => "enum"
  | allOfNotArray => "allOf"
  | anyOfNotArray => "anyOf"
  | oneOfNotArray => "oneOf"
  | typeNotNames => "type"
  | requiredNotArray => "required"
  | requiredNotNames => "required"
  | propertiesNotObject => "properties"
  | additionalPropertiesNotSchema => "additionalProperties"
  | itemsNotSchemas => "items"

def reason : Fault → String
  | enumNotArray => "`enum` must be an array"
  | allOfNotArray => "`allOf` must be an array of schemas"
  | anyOfNotArray => "`anyOf` must be an array of schemas"
  | oneOfNotArray => "`oneOf` must be an array of schemas"
  | typeNotNames => "`type` must be a string or an array of strings"
  | requiredNotArray => "`required` must be an array of strings"
  | requiredNotNames => "`required` entries must be strings"
  | propertiesNotObject => "`properties` must be an object"
  | additionalPropertiesNotSchema => "`additionalProperties` must be a boolean or a schema"
  | itemsNotSchemas => "`items` must be a schema or an array of schemas"

end Fault

inductive Keyword (Content : Type) where
  | absent
  | malformed (fault : Fault)
  | given (content : Content)
  deriving DecidableEq, Repr

namespace Keyword

variable {Content : Type}

def isPresent : Keyword Content → Bool
  | absent => false
  | malformed _ => true
  | given _ => true

def ofShape (fault : Fault) : Option Content → Keyword Content
  | none => malformed fault
  | some content => given content

end Keyword

inductive Kind where
  | string
  | number
  | integer
  | boolean
  | null
  | object
  | array
  | other (name : String)
  deriving DecidableEq, Repr

def Kind.ofName (name : String) : Kind :=
  if name = "string" then string
  else if name = "number" then number
  else if name = "integer" then integer
  else if name = "boolean" then boolean
  else if name = "null" then null
  else if name = "object" then object
  else if name = "array" then array
  else other name

structure Head where
  title : Option String
  description : Option String
  verbatim : Option String
  enumeration : Keyword (List Json)
  enumNames : Option (List String)
  constant : Option Json
  kinds : Keyword (List Kind)
  required : Keyword (List String)
  minItems : Option Nat
  maxItems : Option Nat
  deriving DecidableEq, Repr

inductive Items (Content : Type) where
  | every (content : Content)
  | positional (contents : List Content)
  deriving DecidableEq, Repr

/-- `foreign` is a value that is no schema in a place for one. -/
inductive Schema where
  | always (admits : Bool)
  | foreign
  | node (head : Head) (allOf anyOf oneOf : Keyword (List Schema))
      (properties : Keyword (List (String × Schema))) (additionalProperties : Keyword Schema)
      (items : Keyword (Items Schema)) (additionalItems : Option Schema)
  deriving Repr

namespace Schema

def head? : Schema → Option Head
  | node head _ _ _ _ _ _ _ => some head
  | _ => none

def title (schema : Schema) : Option String :=
  schema.head?.bind (·.title)

def description (schema : Schema) : Option String :=
  schema.head?.bind (·.description)

end Schema

end SchemaTypes
