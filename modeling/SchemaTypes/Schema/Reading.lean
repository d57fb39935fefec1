import SchemaTypes.Schema.Basic

namespace SchemaTypes

structure SchemaRoles where
  schema : Schema
  listed : Option (List Schema)
  named : Option (List (String × Schema))

def readKinds (value : Json) : Option (List Kind) :=
  match value with
  | .string name => some [Kind.ofName name]
  | .array names => some ((names.filterMap Json.string?).map Kind.ofName)
  | _ => none

def readRequired (value : Json) : Keyword (List String) :=
  match value with
  | .array names => Keyword.ofShape .requiredNotNames (names.mapM Json.string?)
  | _ => .malformed .requiredNotArray

def readKeyword {Source Content : Type} (key : String) (read : Source → Keyword Content)
    (members : List (String × Source)) : Keyword Content :=
  match members.lookup key with
  | none => .absent
  | some value => read value

def stringMember (key : String) (members : List (String × Json)) : Option String :=
  (members.lookup key).bind Json.string?

def readHead (members : List (String × Json)) : Head where
  title := stringMember "title" members
  description := stringMember "description" members
  verbatim := stringMember "tsType" members
  enumeration := readKeyword "enum" (fun value => .ofShape .enumNotArray value.elements?) members
  enumNames := (members.lookup "tsEnumNames").bind Json.strings?
  constant := members.lookup "const"
  kinds := readKeyword "type" (fun value => .ofShape .typeNotNames (readKinds value)) members
  required := readKeyword "required" readRequired members
  minItems := (members.lookup "minItems").bind Json.nat?
  maxItems := (members.lookup "maxItems").bind Json.nat?

namespace SchemaRoles

def schema? (roles : SchemaRoles) : Option Schema :=
  match roles.schema with
  | .foreign => none
  | schema => some schema

def items? (roles : SchemaRoles) : Option (Items Schema) :=
  match roles.listed with
  | some schemas => some (.positional schemas)
  | none => roles.schema?.map .every

def list (fault : Fault) (roles : SchemaRoles) : Keyword (List Schema) :=
  .ofShape fault roles.listed

/-- Elements after the last positional one are unrestricted unless a schema or `false` says otherwise. -/
def restriction? (roles : SchemaRoles) : Option Schema :=
  match roles.schema with
  | .foreign => none
  | .always true => none
  | schema => some schema

/-- A node from the members of an object, first as they are and then with their roles. -/
def node (members : List (String × Json)) (roles : List (String × SchemaRoles)) : Schema :=
  .node (readHead members)
    (readKeyword "allOf" (list .allOfNotArray) roles)
    (readKeyword "anyOf" (list .anyOfNotArray) roles)
    (readKeyword "oneOf" (list .oneOfNotArray) roles)
    (readKeyword "properties" (fun value => .ofShape .propertiesNotObject value.named) roles)
    (readKeyword "additionalProperties"
      (fun value => .ofShape .additionalPropertiesNotSchema value.schema?) roles)
    (readKeyword "items" (fun value => .ofShape .itemsNotSchemas value.items?) roles)
    ((roles.lookup "additionalItems").bind restriction?)

mutual

def ofJson : Json → SchemaRoles
  | .null => ⟨.foreign, none, none⟩
  | .boolean admits => ⟨.always admits, none, none⟩
  | .number _ => ⟨.foreign, none, none⟩
  | .string _ => ⟨.foreign, none, none⟩
  | .array elements => ⟨.foreign, some ((ofElements elements).map (·.schema)), none⟩
  | .object members =>
    let roles := ofMembers members
    ⟨node members roles, none, some (roles.map fun member => (member.1, member.2.schema))⟩

def ofElements : List Json → List SchemaRoles
  | [] => []
  | element :: elements => ofJson element :: ofElements elements

def ofMembers : List (String × Json) → List (String × SchemaRoles)
  | [] => []
  | (key, value) :: members => (key, ofJson value) :: ofMembers members

end

end SchemaRoles

def Schema.ofJson (value : Json) : Schema :=
  (SchemaRoles.ofJson value).schema

end SchemaTypes
