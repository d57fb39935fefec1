import SchemaTypes.Schema.Reading

namespace SchemaTypes

def combiningKeys : List String := ["allOf", "anyOf", "oneOf"]

def singleKeys : List String := ["additionalProperties", "items", "additionalItems"]

/-- The values directly under an object where a schema is read. -/
inductive HasPart : Json → Json → Prop
  | arm {members : List (String × Json)} {key : String} {arms : List Json} {arm : Json}
      (combining : key ∈ combiningKeys) (given : members.lookup key = some (.array arms))
      (inside : arm ∈ arms) : HasPart (.object members) arm
  | property {members named : List (String × Json)} {member : String × Json}
      (given : members.lookup "properties" = some (.object named)) (inside : member ∈ named) :
      HasPart (.object members) member.2
  | single {members : List (String × Json)} {key : String} {part : Json}
      (reading : key ∈ singleKeys) (given : members.lookup key = some part) :
      HasPart (.object members) part
  | positional {members : List (String × Json)} {parts : List Json} {part : Json}
      (given : members.lookup "items" = some (.array parts)) (inside : part ∈ parts) :
      HasPart (.object members) part

/-- The members of an object that stands where a schema is read, at any depth. -/
inductive HasNode : Json → List (String × Json) → Prop
  | here {members : List (String × Json)} : HasNode (.object members) members
  | deeper {schema part : Json} {members : List (String × Json)} (step : HasPart schema part)
      (node : HasNode part members) : HasNode schema members

theorem mem_of_lookup {Key Value : Type} [BEq Key] [LawfulBEq Key] {key : Key} {value : Value}
    {members : List (Key × Value)} (found : members.lookup key = some value) :
    (key, value) ∈ members := by
  obtain ⟨before, after, rfl, _⟩ := List.lookup_eq_some_iff.mp found
  simp

theorem sizeOf_lookup_lt {members : List (String × Json)} {key : String} {value : Json}
    (found : members.lookup key = some value) : sizeOf value < sizeOf members := by
  have smaller := List.sizeOf_lt_of_mem (mem_of_lookup found)
  simp only [Prod.mk.sizeOf_spec] at smaller
  omega

theorem sizeOf_hasPart_lt {schema part : Json} (step : HasPart schema part) :
    sizeOf part < sizeOf schema := by
  cases step with
  | arm _ given inside =>
    have outer := sizeOf_lookup_lt given
    have inner := List.sizeOf_lt_of_mem inside
    simp only [Json.array.sizeOf_spec, Json.object.sizeOf_spec] at *
    omega
  | @property members named member given inside =>
    have outer := sizeOf_lookup_lt given
    have inner := List.sizeOf_lt_of_mem inside
    obtain ⟨name, part⟩ := member
    simp only [Prod.mk.sizeOf_spec, Json.object.sizeOf_spec] at *
    omega
  | single _ given =>
    have outer := sizeOf_lookup_lt given
    simp only [Json.object.sizeOf_spec]
    omega
  | positional given inside =>
    have outer := sizeOf_lookup_lt given
    have inner := List.sizeOf_lt_of_mem inside
    simp only [Json.array.sizeOf_spec, Json.object.sizeOf_spec] at *
    omega

theorem partInduction {motive : Json → Prop}
    (step : ∀ schema, (∀ part, HasPart schema part → motive part) → motive schema) (schema : Json) :
    motive schema :=
  step schema fun part _ => partInduction step part
termination_by sizeOf schema
decreasing_by exact sizeOf_hasPart_lt ‹_›

mutual

def Json.everyObject (check : List (String × Json) → Bool) : Json → Bool
  | .array elements => everyObjectAmong check elements
  | .object members => check members && everyObjectUnder check members
  | _ => true

def Json.everyObjectAmong (check : List (String × Json) → Bool) : List Json → Bool
  | [] => true
  | element :: elements => element.everyObject check && everyObjectAmong check elements

def Json.everyObjectUnder (check : List (String × Json) → Bool) : List (String × Json) → Bool
  | [] => true
  | (_, value) :: members => value.everyObject check && everyObjectUnder check members

end

namespace Json

variable {check : List (String × Json) → Bool}

theorem everyObjectAmong_iff {elements : List Json} :
    everyObjectAmong check elements = true ↔
      ∀ element ∈ elements, element.everyObject check = true := by
  induction elements with
  | nil => simp [everyObjectAmong]
  | cons element elements ih => simp [everyObjectAmong, ih]

theorem everyObjectUnder_iff {members : List (String × Json)} :
    everyObjectUnder check members = true ↔
      ∀ member ∈ members, member.2.everyObject check = true := by
  induction members with
  | nil => simp [everyObjectUnder]
  | cons member members ih => simp [everyObjectUnder, ih]

theorem everyObject_object {members : List (String × Json)} :
    (object members).everyObject check = true ↔
      check members = true ∧ ∀ member ∈ members, member.2.everyObject check = true := by
  rw [everyObject, Bool.and_eq_true, everyObjectUnder_iff]

theorem everyObject_array {elements : List Json} :
    (array elements).everyObject check = true ↔
      ∀ element ∈ elements, element.everyObject check = true := by
  rw [everyObject, everyObjectAmong_iff]

theorem everyObject_of_lookup {members : List (String × Json)}
    (whole : (object members).everyObject check = true) {key : String} {value : Json}
    (found : members.lookup key = some value) : value.everyObject check = true := by
  exact (everyObject_object.mp whole).2 (key, value) (mem_of_lookup found)

theorem everyObject_of_part {schema part : Json} (whole : schema.everyObject check = true)
    (step : HasPart schema part) : part.everyObject check = true := by
  cases step with
  | arm _ given inside =>
    exact everyObject_array.mp (everyObject_of_lookup whole given) _ inside
  | property given inside =>
    exact (everyObject_object.mp (everyObject_of_lookup whole given)).2 _ inside
  | single _ given => exact everyObject_of_lookup whole given
  | positional given inside =>
    exact everyObject_array.mp (everyObject_of_lookup whole given) _ inside

theorem check_of_hasNode {schema : Json} (whole : schema.everyObject check = true)
    {members : List (String × Json)} (node : HasNode schema members) : check members = true := by
  induction node with
  | here => exact (everyObject_object.mp whole).1
  | deeper step _ ih => exact ih (everyObject_of_part whole step)

end Json

mutual

/-- Whether a check holds of every object in the value that may stand where a schema is read. -/
def Json.everyNode (check : List (String × Json) → Bool) : Json → Bool
  | .array elements => everyNodeAmong check elements
  | .object members => check members && everyNodeUnder check members
  | _ => true

def Json.everyNodeAmong (check : List (String × Json) → Bool) : List Json → Bool
  | [] => true
  | element :: elements => element.everyNode check && everyNodeAmong check elements

def Json.everyNodeUnder (check : List (String × Json) → Bool) : List (String × Json) → Bool
  | [] => true
  | (key, value) :: members =>
    (if key = "properties" then value.everyNodeInTable check
      else if key ∈ combiningKeys ∨ key ∈ singleKeys then value.everyNode check
      else true) && everyNodeUnder check members

/-- The table under `properties` is no node, although its values are. -/
def Json.everyNodeInTable (check : List (String × Json) → Bool) : Json → Bool
  | .object named => everyNodeNamed check named
  | _ => true

def Json.everyNodeNamed (check : List (String × Json) → Bool) : List (String × Json) → Bool
  | [] => true
  | (_, value) :: named => value.everyNode check && everyNodeNamed check named

end

namespace Json

variable {check : List (String × Json) → Bool}

theorem everyNodeAmong_iff {elements : List Json} :
    everyNodeAmong check elements = true ↔ ∀ element ∈ elements, element.everyNode check = true := by
  induction elements with
  | nil => simp [everyNodeAmong]
  | cons element elements ih => simp [everyNodeAmong, ih]

theorem everyNodeNamed_iff {named : List (String × Json)} :
    everyNodeNamed check named = true ↔ ∀ member ∈ named, member.2.everyNode check = true := by
  induction named with
  | nil => simp [everyNodeNamed]
  | cons member named ih => simp [everyNodeNamed, ih]

theorem everyNode_of_mem {members : List (String × Json)}
    (whole : everyNodeUnder check members = true) {key : String} {value : Json}
    (inside : (key, value) ∈ members) :
    (if key = "properties" then value.everyNodeInTable check
      else if key ∈ combiningKeys ∨ key ∈ singleKeys then value.everyNode check
      else true) = true := by
  induction members with
  | nil => cases inside
  | cons member members ih =>
    rw [everyNodeUnder, Bool.and_eq_true] at whole
    rcases List.mem_cons.mp inside with rfl | later
    · exact whole.1
    · exact ih whole.2 later

theorem everyNode_of_part {schema part : Json} (whole : schema.everyNode check = true)
    (step : HasPart schema part) : part.everyNode check = true := by
  have table : "properties" ∉ combiningKeys ∧ "properties" ∉ singleKeys := by decide
  have under : ∀ {members : List (String × Json)} {key : String} {value : Json},
      (object members).everyNode check = true → members.lookup key = some value →
        key ∈ combiningKeys ∨ key ∈ singleKeys → value.everyNode check = true := by
    intro members key value whole found reading
    rw [everyNode, Bool.and_eq_true] at whole
    have here := everyNode_of_mem whole.2 (mem_of_lookup found)
    have other : key ≠ "properties" := by
      rintro rfl
      exact reading.elim table.1 table.2
    rwa [if_neg other, if_pos reading] at here
  cases step with
  | arm combining given inside =>
    have here := under whole given (Or.inl combining)
    rw [everyNode, everyNodeAmong_iff] at here
    exact here part inside
  | property given inside =>
    rw [everyNode, Bool.and_eq_true] at whole
    have here := everyNode_of_mem whole.2 (mem_of_lookup given)
    rw [if_pos rfl, everyNodeInTable, everyNodeNamed_iff] at here
    exact here _ inside
  | single reading given => exact under whole given (Or.inr reading)
  | positional given inside =>
    have here := under whole given (Or.inr (by decide))
    rw [everyNode, everyNodeAmong_iff] at here
    exact here part inside

theorem check_of_everyNode {schema : Json} (whole : schema.everyNode check = true)
    {members : List (String × Json)} (node : HasNode schema members) : check members = true := by
  induction node with
  | here =>
    rw [everyNode, Bool.and_eq_true] at whole
    exact whole.1
  | deeper step _ ih => exact ih (everyNode_of_part whole step)

end Json

namespace SchemaRoles

theorem ofElements_eq (elements : List Json) : ofElements elements = elements.map ofJson := by
  induction elements with
  | nil => rfl
  | cons element elements ih => simp [ofElements, ih]

theorem ofMembers_eq (members : List (String × Json)) :
    ofMembers members = members.map fun member => (member.1, ofJson member.2) := by
  induction members with
  | nil => rfl
  | cons member members ih => simp [ofMembers, ih]

end SchemaRoles

namespace Schema

def listOf? (value : Json) : Option (List Schema) :=
  value.elements?.map (·.map ofJson)

def tableOf? (value : Json) : Option (List (String × Schema)) :=
  value.members?.map (·.map fun member => (member.1, ofJson member.2))

def single? (value : Json) : Option Schema :=
  match ofJson value with
  | .foreign => none
  | schema => some schema

def itemsOf? (value : Json) : Option (Items Schema) :=
  match listOf? value with
  | some schemas => some (.positional schemas)
  | none => (single? value).map .every

def restrictionOf? (value : Json) : Option Schema :=
  match ofJson value with
  | .foreign => none
  | .always true => none
  | schema => some schema

def armsOf (key : String) (fault : Fault) (members : List (String × Json)) : Keyword (List Schema) :=
  readKeyword key (fun value => .ofShape fault (listOf? value)) members

def propertiesOf (members : List (String × Json)) : Keyword (List (String × Schema)) :=
  readKeyword "properties" (fun value => .ofShape .propertiesNotObject (tableOf? value)) members

def additionalPropertiesOf (members : List (String × Json)) : Keyword Schema :=
  readKeyword "additionalProperties"
    (fun value => .ofShape .additionalPropertiesNotSchema (single? value)) members

def itemsOf (members : List (String × Json)) : Keyword (Items Schema) :=
  readKeyword "items" (fun value => .ofShape .itemsNotSchemas (itemsOf? value)) members

def additionalItemsOf (members : List (String × Json)) : Option Schema :=
  (members.lookup "additionalItems").bind restrictionOf?

end Schema

open Schema

theorem ofJson_listed (value : Json) : (SchemaRoles.ofJson value).listed = listOf? value := by
  cases value <;>
    simp [SchemaRoles.ofJson, listOf?, Json.elements?, SchemaRoles.ofElements_eq, Schema.ofJson]

theorem ofJson_named (value : Json) : (SchemaRoles.ofJson value).named = tableOf? value := by
  cases value <;>
    simp [SchemaRoles.ofJson, tableOf?, Json.members?, SchemaRoles.ofMembers_eq, Schema.ofJson]

theorem readKeyword_roles {Content : Type} (key : String) (read : SchemaRoles → Keyword Content)
    (members : List (String × Json)) :
    readKeyword key read (SchemaRoles.ofMembers members) =
      readKeyword key (fun value => read (SchemaRoles.ofJson value)) members := by
  unfold readKeyword
  rw [SchemaRoles.ofMembers_eq, lookup_map_member fun _ => SchemaRoles.ofJson]
  cases members.lookup key <;> rfl

theorem ofJson_object (members : List (String × Json)) :
    Schema.ofJson (.object members) =
      .node (readHead members) (armsOf "allOf" .allOfNotArray members)
        (armsOf "anyOf" .anyOfNotArray members) (armsOf "oneOf" .oneOfNotArray members)
        (propertiesOf members) (additionalPropertiesOf members) (itemsOf members)
        (additionalItemsOf members) := by
  have rest : (SchemaRoles.ofMembers members).lookup "additionalItems" =
      (members.lookup "additionalItems").map SchemaRoles.ofJson := by
    rw [SchemaRoles.ofMembers_eq, lookup_map_member fun _ => SchemaRoles.ofJson]
  simp only [Schema.ofJson, SchemaRoles.ofJson, SchemaRoles.node, readKeyword_roles, SchemaRoles.list,
    SchemaRoles.schema?, SchemaRoles.items?, ofJson_listed, ofJson_named, rest, Option.bind_map]
  rfl

theorem readKeyword_eq_given {Source Content : Type} {key : String} {read : Source → Keyword Content}
    {members : List (String × Source)} {content : Content}
    (given : readKeyword key read members = .given content) :
    ∃ value, members.lookup key = some value ∧ read value = .given content := by
  unfold readKeyword at given
  split at given
  · cases given
  · rename_i value found
    exact ⟨value, found, given⟩

theorem readKeyword_eq_malformed {Source Content : Type} {key : String}
    {read : Source → Keyword Content} {members : List (String × Source)} {fault : Fault}
    (given : readKeyword key read members = .malformed fault) :
    ∃ value, members.lookup key = some value ∧ read value = .malformed fault := by
  unfold readKeyword at given
  split at given
  · cases given
  · rename_i value found
    exact ⟨value, found, given⟩

theorem readKeyword_eq_absent {Source Content : Type} {key : String} {fault : Fault}
    {shape : Source → Option Content} {members : List (String × Source)}
    (absent : readKeyword key (fun value => .ofShape fault (shape value)) members = .absent) :
    members.lookup key = none := by
  unfold readKeyword at absent
  split at absent
  · rename_i found
    exact found
  · rename_i value _
    cases here : shape value <;> simp [Keyword.ofShape, here] at absent

theorem isPresent_readKeyword {Source Content : Type} {key : String} {fault : Fault}
    {shape : Source → Option Content} {members : List (String × Source)} :
    (readKeyword key (fun value => .ofShape fault (shape value)) members).isPresent =
      hasMember key members := by
  unfold readKeyword hasMember
  cases members.lookup key with
  | none => rfl
  | some value => cases here : shape value <;> simp [Keyword.ofShape, Keyword.isPresent, here]

theorem isPresent_required {members : List (String × Json)} :
    (readHead members).required.isPresent = hasMember "required" members := by
  simp only [readHead, readKeyword, hasMember]
  cases members.lookup "required" with
  | none => rfl
  | some value =>
    cases value with
    | array names => cases here : names.mapM Json.string? <;>
        simp [readRequired, Keyword.ofShape, Keyword.isPresent, here]
    | _ => rfl

theorem ofShape_eq_given {Content : Type} {fault : Fault} {shape : Option Content} {content : Content} :
    Keyword.ofShape fault shape = .given content ↔ shape = some content := by
  cases shape <;> simp [Keyword.ofShape]

theorem ofShape_eq_malformed {Content : Type} {fault other : Fault} {shape : Option Content} :
    Keyword.ofShape fault shape = .malformed other ↔ shape = none ∧ fault = other := by
  cases shape <;> simp [Keyword.ofShape]

theorem listOf?_eq_some {value : Json} {schemas : List Schema} :
    listOf? value = some schemas ↔
      ∃ elements, value = .array elements ∧ schemas = elements.map Schema.ofJson := by
  cases value <;> simp [listOf?, Json.elements?, eq_comm]

theorem tableOf?_eq_some {value : Json} {named : List (String × Schema)} :
    tableOf? value = some named ↔
      ∃ members, value = .object members ∧
        named = members.map fun member => (member.1, Schema.ofJson member.2) := by
  cases value <;> simp [tableOf?, Json.members?, eq_comm]

theorem single?_eq_some {value : Json} {schema : Schema} (found : single? value = some schema) :
    schema = Schema.ofJson value ∧ schema ≠ .foreign := by
  unfold single? at found
  split at found
  · cases found
  · rename_i other
    cases found
    exact ⟨rfl, other⟩

theorem itemsOf?_eq_every {value : Json} {schema : Schema}
    (found : itemsOf? value = some (.every schema)) : schema = Schema.ofJson value := by
  unfold itemsOf? at found
  split at found
  · cases found
  · obtain ⟨single, found, same⟩ := Option.map_eq_some_iff.mp found
    cases same
    exact (single?_eq_some found).1

theorem itemsOf?_eq_positional {value : Json} {schemas : List Schema}
    (found : itemsOf? value = some (.positional schemas)) :
    ∃ elements, value = .array elements ∧ schemas = elements.map Schema.ofJson := by
  unfold itemsOf? at found
  split at found
  · rename_i others listed
    cases found
    exact listOf?_eq_some.mp listed
  · obtain ⟨single, _, same⟩ := Option.map_eq_some_iff.mp found
    cases same

theorem ofJson_restrictionOf? {value : Json} {schema : Schema}
    (found : restrictionOf? value = some schema) : Schema.ofJson value = schema := by
  unfold restrictionOf? at found
  split at found
  · cases found
  · cases found
  · exact Option.some.inj found

variable {members : List (String × Json)}

theorem armsOf_eq_given {key : String} {fault : Fault} {schemas : List Schema}
    (given : armsOf key fault members = .given schemas) :
    ∃ rules, members.lookup key = some (.array rules) ∧ schemas = rules.map Schema.ofJson := by
  obtain ⟨value, found, shaped⟩ := readKeyword_eq_given given
  obtain ⟨rules, rfl, same⟩ := listOf?_eq_some.mp (ofShape_eq_given.mp shaped)
  exact ⟨rules, found, same⟩

theorem propertiesOf_eq_given {named : List (String × Schema)}
    (given : propertiesOf members = .given named) :
    ∃ table, members.lookup "properties" = some (.object table) ∧
      named = table.map fun member => (member.1, Schema.ofJson member.2) := by
  obtain ⟨value, found, shaped⟩ := readKeyword_eq_given given
  obtain ⟨table, rfl, same⟩ := tableOf?_eq_some.mp (ofShape_eq_given.mp shaped)
  exact ⟨table, found, same⟩

theorem additionalPropertiesOf_eq_given {schema : Schema}
    (given : additionalPropertiesOf members = .given schema) :
    ∃ part, members.lookup "additionalProperties" = some part ∧ schema = Schema.ofJson part := by
  obtain ⟨part, found, shaped⟩ := readKeyword_eq_given given
  exact ⟨part, found, (single?_eq_some (ofShape_eq_given.mp shaped)).1⟩

theorem itemsOf_eq_every {schema : Schema} (given : itemsOf members = .given (.every schema)) :
    ∃ part, members.lookup "items" = some part ∧ schema = Schema.ofJson part := by
  obtain ⟨part, found, shaped⟩ := readKeyword_eq_given given
  exact ⟨part, found, itemsOf?_eq_every (ofShape_eq_given.mp shaped)⟩

theorem itemsOf_eq_positional {schemas : List Schema}
    (given : itemsOf members = .given (.positional schemas)) :
    ∃ parts, members.lookup "items" = some (.array parts) ∧ schemas = parts.map Schema.ofJson := by
  obtain ⟨value, found, shaped⟩ := readKeyword_eq_given given
  obtain ⟨parts, rfl, same⟩ := itemsOf?_eq_positional (ofShape_eq_given.mp shaped)
  exact ⟨parts, found, same⟩

end SchemaTypes
