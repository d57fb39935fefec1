import SchemaTypes.Proofs.Faults

namespace SchemaTypes

inductive Event where
  | wrong (fault : Fault)
  | foreign
  | visit (tokens : Pointer) (part : Json)

def typeNames? : Json → Option (List String)
  | .string name => some [name]
  | .array names => some (names.filterMap Json.string?)
  | _ => none

theorem readKinds_eq (value : Json) : readKinds value = (typeNames? value).map (·.map Kind.ofName) := by
  cases value <;> rfl

/-- The kinds that decide about a node: those it names, or the one that its other keywords suggest. -/
def effectiveNames (members : List (String × Json)) : List String :=
  match members.lookup "type" with
  | some value => (typeNames? value).getD []
  | none =>
    if hasMember "properties" members || hasMember "additionalProperties" members ||
        hasMember "required" members then ["object"]
    else if hasMember "items" members then ["array"]
    else []

/-- Nothing comes of an absent keyword, and a fault of one whose value cannot be read. -/
def keywordEvents (fault : Fault) (read : Json → Option (List Event))
    (members : List (String × Json)) : List Event :=
  match members.lookup fault.keyword with
  | none => []
  | some value => (read value).getD [.wrong fault]

def elementEvents (key : String) (elements : List Json) : List Event :=
  elements.zipIdx.map fun entry => .visit [key, Nat.repr entry.2] entry.1

def armEvents (fault : Fault) : List (String × Json) → List Event :=
  keywordEvents fault fun value => value.elements?.map (elementEvents fault.keyword)

def typeEvents : List (String × Json) → List Event :=
  keywordEvents .typeNotNames fun value => (typeNames? value).map fun _ => []

def requiredEvents : List (String × Json) → List Event :=
  keywordEvents .requiredNotArray fun value => value.elements?.map fun names =>
    if names.all fun entry => entry.string?.isSome then [] else [.wrong .requiredNotNames]

def propertyEvents : List (String × Json) → List Event :=
  keywordEvents .propertiesNotObject fun value => value.members?.map fun named =>
    named.map fun member => .visit ["properties", member.1] member.2

def additionalEvents : List (String × Json) → List Event :=
  keywordEvents .additionalPropertiesNotSchema fun value =>
    match value with
    | .boolean _ => some []
    | .object _ => some [.visit ["additionalProperties"] value]
    | _ => none

def mostItems (ignoreBounds : Bool) (members : List (String × Json)) : Option Nat :=
  bound ignoreBounds ((members.lookup "maxItems").bind Json.nat?)

/-- Elements after so many positional ones are looked into if there may be any. -/
def restEvents (ignoreBounds : Bool) (members : List (String × Json)) (count : Nat) : List Event :=
  match members.lookup "additionalItems" with
  | some (.object inner) =>
    if isFull (mostItems ignoreBounds members) count then []
    else [.visit ["additionalItems"] (.object inner)]
  | _ => []

def itemEvents (ignoreBounds : Bool) (members : List (String × Json)) : List Event :=
  keywordEvents .itemsNotSchemas (fun value =>
    match value with
    | .array parts => some (elementEvents "items" parts ++ restEvents ignoreBounds members parts.length)
    | .boolean _ => some [.visit ["items"] value]
    | .object _ => some [.visit ["items"] value]
    | _ => none) members

def objectEvents (members : List (String × Json)) : List Event :=
  requiredEvents members ++ propertyEvents members ++ additionalEvents members

def kindEvents (ignoreBounds : Bool) (members : List (String × Json)) (name : String) : List Event :=
  if name = "object" then objectEvents members
  else if name = "array" then itemEvents ignoreBounds members
  else []

def openEvents (ignoreBounds : Bool) (members : List (String × Json)) : List Event :=
  armEvents .allOfNotArray members ++ armEvents .anyOfNotArray members ++
    armEvents .oneOfNotArray members ++ typeEvents members ++
    (effectiveNames members).flatMap (kindEvents ignoreBounds members)

def enumEvents : List (String × Json) → List Event :=
  keywordEvents .enumNotArray fun value => value.elements?.map fun _ => []

def nodeEvents (ignoreBounds : Bool) (members : List (String × Json)) : List Event :=
  if (stringMember "tsType" members).isSome then []
  else if hasMember "enum" members then enumEvents members
  else if hasMember "const" members then []
  else openEvents ignoreBounds members

/-- What typing comes across in one schema, in order. -/
def events (ignoreBounds : Bool) : Json → List Event
  | .boolean _ => []
  | .object members => nodeEvents ignoreBounds members
  | _ => [.foreign]

/-- The node has no `tsType` in text and neither `enum` nor `const`, hence no named members either. -/
@[mk_iff]
structure Unfixed (members : List (String × Json)) : Prop where
  verbatim : stringMember "tsType" members = none
  enumeration : members.lookup "enum" = none
  constant : members.lookup "const" = none

def HasRoom (ignoreBounds : Bool) (members : List (String × Json)) (count : Nat) : Prop :=
  ∀ most, mostItems ignoreBounds members = some most → count < most

/-- The parts of a node that are visited, each under its tokens. -/
inductive VisitsPart (ignoreBounds : Bool) (members : List (String × Json)) : Pointer → Json → Prop
  | arm {key : String} {arms : List Json} {position : Nat} {arm : Json} (unfixed : Unfixed members)
      (combining : key ∈ combiningKeys) (given : members.lookup key = some (.array arms))
      (here : arms[position]? = some arm) :
      VisitsPart ignoreBounds members [key, Nat.repr position] arm
  | property {named : List (String × Json)} {member : String × Json} (unfixed : Unfixed members)
      (object : "object" ∈ effectiveNames members)
      (given : members.lookup "properties" = some (.object named)) (inside : member ∈ named) :
      VisitsPart ignoreBounds members ["properties", member.1] member.2
  | additional {inner : List (String × Json)} (unfixed : Unfixed members)
      (object : "object" ∈ effectiveNames members)
      (given : members.lookup "additionalProperties" = some (.object inner)) :
      VisitsPart ignoreBounds members ["additionalProperties"] (.object inner)
  | items {part : Json} (unfixed : Unfixed members) (array : "array" ∈ effectiveNames members)
      (given : members.lookup "items" = some part) (schema : ¬part.IsForeign) :
      VisitsPart ignoreBounds members ["items"] part
  | positional {parts : List Json} {position : Nat} {part : Json} (unfixed : Unfixed members)
      (array : "array" ∈ effectiveNames members)
      (given : members.lookup "items" = some (.array parts)) (here : parts[position]? = some part) :
      VisitsPart ignoreBounds members ["items", Nat.repr position] part
  | rest {parts : List Json} {inner : List (String × Json)} (unfixed : Unfixed members)
      (array : "array" ∈ effectiveNames members)
      (given : members.lookup "items" = some (.array parts))
      (more : members.lookup "additionalItems" = some (.object inner))
      (room : HasRoom ignoreBounds members parts.length) :
      VisitsPart ignoreBounds members ["additionalItems"] (.object inner)

def Consults (members : List (String × Json)) : Fault → Prop
  | .enumNotArray => stringMember "tsType" members = none
  | .allOfNotArray | .anyOfNotArray | .oneOfNotArray | .typeNotNames => Unfixed members
  | .requiredNotArray | .requiredNotNames | .propertiesNotObject | .additionalPropertiesNotSchema =>
    Unfixed members ∧ "object" ∈ effectiveNames members
  | .itemsNotSchemas => Unfixed members ∧ "array" ∈ effectiveNames members

def Misshapen (members : List (String × Json)) (fault : Fault) : Prop :=
  ∃ value, members.lookup fault.keyword = some value ∧ fault.Misshapes value

/-- A keyword that is consulted at the node has a value of the wrong shape. -/
def Faulty (members : List (String × Json)) (fault : Fault) : Prop :=
  Consults members fault ∧ Misshapen members fault

section

variable {ignoreBounds : Bool} {members : List (String × Json)} {event : Event}

theorem mem_keywordEvents {fault : Fault} {read : Json → Option (List Event)}
    (misread : ∀ value, read value = none ↔ fault.Misshapes value) :
    event ∈ keywordEvents fault read members ↔
      (event = .wrong fault ∧ Misshapen members fault) ∨
        ∃ value events, members.lookup fault.keyword = some value ∧ read value = some events ∧
          event ∈ events := by
  unfold keywordEvents Misshapen
  cases members.lookup fault.keyword with
  | none => simp
  | some value =>
    have shape := misread value
    cases here : read value with
    | none => simp [here, ← shape]
    | some events => simp [here, ← shape]

theorem elements?_eq_none_iff {value : Json} :
    value.elements? = none ↔ ∀ elements, value ≠ .array elements := by
  cases value <;> simp [Json.elements?]

theorem members?_eq_none_iff {value : Json} :
    value.members? = none ↔ ∀ members, value ≠ .object members := by
  cases value <;> simp [Json.members?]

theorem elements?_eq_some {value : Json} {elements : List Json} :
    value.elements? = some elements ↔ value = .array elements := by
  cases value <;> simp [Json.elements?]

theorem members?_eq_some {value : Json} {members : List (String × Json)} :
    value.members? = some members ↔ value = .object members := by
  cases value <;> simp [Json.members?]

theorem typeNames?_eq_none_iff {value : Json} :
    typeNames? value = none ↔ Fault.typeNotNames.Misshapes value := by
  cases value <;> simp [typeNames?, Fault.Misshapes]

theorem mem_elementEvents {key : String} {elements : List Json} :
    event ∈ elementEvents key elements ↔
      ∃ (position : Nat) (element : Json), elements[position]? = some element ∧
        event = .visit [key, Nat.repr position] element := by
  simp only [elementEvents, List.mem_map, Prod.exists, List.mk_mem_zipIdx_iff_getElem?]
  constructor
  · rintro ⟨element, position, here, rfl⟩
    exact ⟨position, element, here, rfl⟩
  · rintro ⟨position, element, here, rfl⟩
    exact ⟨element, position, here, rfl⟩

def armFaults : List Fault := [.allOfNotArray, .anyOfNotArray, .oneOfNotArray]

theorem mem_armEvents {fault : Fault} (combining : fault ∈ armFaults) :
    event ∈ armEvents fault members ↔
      (event = .wrong fault ∧ Misshapen members fault) ∨
        ∃ arms, members.lookup fault.keyword = some (.array arms) ∧
          event ∈ elementEvents fault.keyword arms := by
  have misread : ∀ value : Json,
      value.elements?.map (elementEvents fault.keyword) = none ↔ fault.Misshapes value := by
    intro value
    rw [Option.map_eq_none_iff, elements?_eq_none_iff]
    simp only [armFaults, List.mem_cons, List.not_mem_nil, or_false] at combining
    rcases combining with rfl | rfl | rfl <;> rfl
  rw [armEvents, mem_keywordEvents misread]
  simp [Option.map_eq_some_iff, elements?_eq_some]

theorem mem_typeEvents :
    event ∈ typeEvents members ↔ event = .wrong .typeNotNames ∧ Misshapen members .typeNotNames := by
  have misread : ∀ value : Json, ((typeNames? value).map fun _ => ([] : List Event)) = none ↔
      Fault.typeNotNames.Misshapes value := by
    intro value
    rw [Option.map_eq_none_iff, typeNames?_eq_none_iff]
  rw [typeEvents, mem_keywordEvents misread]
  simp [Option.map_eq_some_iff]

theorem mem_enumEvents :
    event ∈ enumEvents members ↔ event = .wrong .enumNotArray ∧ Misshapen members .enumNotArray := by
  have misread : ∀ value : Json, (value.elements?.map fun _ => ([] : List Event)) = none ↔
      Fault.enumNotArray.Misshapes value := by
    intro value
    rw [Option.map_eq_none_iff, elements?_eq_none_iff]
    rfl
  rw [enumEvents, mem_keywordEvents misread]
  simp [Option.map_eq_some_iff]

theorem misshapen_requiredNotNames :
    Misshapen members .requiredNotNames ↔
      ∃ names, members.lookup "required" = some (.array names) ∧
        names.all (fun entry => entry.string?.isSome) = false := by
  have strange : ∀ entry : Json, entry.string? = none ↔ ∀ name, entry ≠ .string name := by
    intro entry
    cases entry <;> simp [Json.string?]
  simp only [Misshapen, Fault.keyword, Fault.Misshapes, List.all_eq_false, Bool.not_eq_true,
    Option.isSome_eq_false_iff, Option.isNone_iff_eq_none, strange]
  constructor
  · rintro ⟨value, found, names, rfl, outsider⟩
    exact ⟨names, found, outsider⟩
  · rintro ⟨names, found, outsider⟩
    exact ⟨.array names, found, names, rfl, outsider⟩

theorem mem_requiredEvents :
    event ∈ requiredEvents members ↔
      (event = .wrong .requiredNotArray ∧ Misshapen members .requiredNotArray) ∨
        (event = .wrong .requiredNotNames ∧ Misshapen members .requiredNotNames) := by
  have misread : ∀ (value : Json) (read : List Json → List Event),
      value.elements?.map read = none ↔ Fault.requiredNotArray.Misshapes value := by
    intro value read
    rw [Option.map_eq_none_iff, elements?_eq_none_iff]
    rfl
  rw [requiredEvents, mem_keywordEvents fun value => misread value _, misshapen_requiredNotNames]
  apply or_congr Iff.rfl
  simp only [Option.map_eq_some_iff, elements?_eq_some]
  constructor
  · rintro ⟨value, events, found, ⟨names, rfl, rfl⟩, inside⟩
    split at inside
    · cases inside
    · rename_i outsider
      exact ⟨List.mem_singleton.mp inside, names, found, eq_false_of_ne_true outsider⟩
  · rintro ⟨rfl, names, found, outsider⟩
    exact ⟨_, _, found, ⟨names, rfl, rfl⟩, by simp [outsider]⟩

theorem mem_propertyEvents :
    event ∈ propertyEvents members ↔
      (event = .wrong .propertiesNotObject ∧ Misshapen members .propertiesNotObject) ∨
        ∃ named, members.lookup "properties" = some (.object named) ∧
          ∃ member ∈ named, event = .visit ["properties", member.1] member.2 := by
  have misread : ∀ (value : Json) (read : List (String × Json) → List Event),
      value.members?.map read = none ↔ Fault.propertiesNotObject.Misshapes value := by
    intro value read
    rw [Option.map_eq_none_iff, members?_eq_none_iff]
    rfl
  rw [propertyEvents, mem_keywordEvents fun value => misread value _]
  apply or_congr Iff.rfl
  simp only [Option.map_eq_some_iff, members?_eq_some]
  constructor
  · rintro ⟨value, events, found, ⟨named, rfl, rfl⟩, inside⟩
    obtain ⟨member, there, rfl⟩ := List.mem_map.mp inside
    exact ⟨named, found, member, there, rfl⟩
  · rintro ⟨named, found, member, there, rfl⟩
    exact ⟨_, _, found, ⟨named, rfl, rfl⟩, List.mem_map_of_mem there⟩

theorem mem_additionalEvents :
    event ∈ additionalEvents members ↔
      (event = .wrong .additionalPropertiesNotSchema ∧
          Misshapen members .additionalPropertiesNotSchema) ∨
        ∃ inner, members.lookup "additionalProperties" = some (.object inner) ∧
          event = .visit ["additionalProperties"] (.object inner) := by
  rw [additionalEvents, mem_keywordEvents]
  · apply or_congr Iff.rfl
    constructor
    · rintro ⟨value, events, found, read, inside⟩
      cases value with
      | boolean admits =>
        cases read
        cases inside
      | object inner =>
        cases read
        exact ⟨inner, found, List.mem_singleton.mp inside⟩
      | _ => cases read
    · rintro ⟨inner, found, rfl⟩
      exact ⟨.object inner, _, found, rfl, List.mem_singleton_self _⟩
  · intro value
    cases value <;> simp [Fault.Misshapes]

theorem isFull_eq_false {most : Option Nat} {count : Nat} :
    isFull most count = false ↔ ∀ bound, most = some bound → count < bound := by
  cases most <;> simp [isFull]

theorem mem_restEvents {count : Nat} :
    event ∈ restEvents ignoreBounds members count ↔
      ∃ inner, members.lookup "additionalItems" = some (.object inner) ∧
        HasRoom ignoreBounds members count ∧ event = .visit ["additionalItems"] (.object inner) := by
  have room : isFull (mostItems ignoreBounds members) count = false ↔
      HasRoom ignoreBounds members count := isFull_eq_false
  rw [← room]
  unfold restEvents
  split
  · rename_i inner found
    cases full : isFull (mostItems ignoreBounds members) count <;> simp [found]
  · rename_i other
    constructor
    · intro inside
      cases inside
    · rintro ⟨inner, found, _⟩
      exact absurd found (other inner)

theorem mem_itemEvents :
    event ∈ itemEvents ignoreBounds members ↔
      (event = .wrong .itemsNotSchemas ∧ Misshapen members .itemsNotSchemas) ∨
        (∃ part, members.lookup "items" = some part ∧ ¬part.IsForeign ∧
          event = .visit ["items"] part) ∨
        ∃ parts, members.lookup "items" = some (.array parts) ∧
          (event ∈ elementEvents "items" parts ∨
            event ∈ restEvents ignoreBounds members parts.length) := by
  rw [itemEvents, mem_keywordEvents]
  · apply or_congr Iff.rfl
    constructor
    · rintro ⟨value, events, found, read, inside⟩
      cases value with
      | array parts =>
        cases read
        exact Or.inr ⟨parts, found, List.mem_append.mp inside⟩
      | boolean admits =>
        cases read
        exact Or.inl ⟨.boolean admits, found, id, List.mem_singleton.mp inside⟩
      | object inner =>
        cases read
        exact Or.inl ⟨.object inner, found, id, List.mem_singleton.mp inside⟩
      | _ => cases read
    · rintro (⟨part, found, schema, rfl⟩ | ⟨parts, found, inside⟩)
      · cases part with
        | boolean admits => exact ⟨.boolean admits, _, found, rfl, List.mem_singleton_self _⟩
        | object inner => exact ⟨.object inner, _, found, rfl, List.mem_singleton_self _⟩
        | _ => exact absurd trivial schema
      · exact ⟨.array parts, _, found, rfl, List.mem_append.mpr inside⟩
  · intro value
    cases value <;> simp [Fault.Misshapes]

theorem mem_kindEvents {names : List String} :
    event ∈ names.flatMap (kindEvents ignoreBounds members) ↔
      ("object" ∈ names ∧ event ∈ objectEvents members) ∨
        ("array" ∈ names ∧ event ∈ itemEvents ignoreBounds members) := by
  rw [List.mem_flatMap]
  constructor
  · rintro ⟨name, named, inside⟩
    unfold kindEvents at inside
    split at inside
    · rename_i same
      exact Or.inl ⟨same ▸ named, inside⟩
    · split at inside
      · rename_i same
        exact Or.inr ⟨same ▸ named, inside⟩
      · cases inside
  · rintro (⟨named, inside⟩ | ⟨named, inside⟩)
    · exact ⟨"object", named, inside⟩
    · exact ⟨"array", named, inside⟩

theorem mem_nodeEvents :
    event ∈ nodeEvents ignoreBounds members ↔
      (stringMember "tsType" members = none ∧ event ∈ enumEvents members) ∨
        (Unfixed members ∧ event ∈ openEvents ignoreBounds members) := by
  have absent : members.lookup "enum" = none → enumEvents members = [] := by
    intro missing
    simp [enumEvents, keywordEvents, Fault.keyword, missing]
  unfold nodeEvents
  cases verbatim : stringMember "tsType" members with
  | some text => simp [unfixed_iff, verbatim]
  | none =>
    cases enumeration : members.lookup "enum" with
    | some value => simp [unfixed_iff, hasMember, enumeration]
    | none =>
      cases constant : members.lookup "const" <;>
        simp [unfixed_iff, hasMember, verbatim, enumeration, constant, absent]

theorem mem_openEvents :
    event ∈ openEvents ignoreBounds members ↔
      (∃ fault ∈ armFaults, event ∈ armEvents fault members) ∨ event ∈ typeEvents members ∨
        ("object" ∈ effectiveNames members ∧ event ∈ objectEvents members) ∨
        ("array" ∈ effectiveNames members ∧ event ∈ itemEvents ignoreBounds members) := by
  simp only [openEvents, List.mem_append, mem_kindEvents, armFaults, List.mem_cons, List.not_mem_nil,
    or_false, exists_eq_or_imp, exists_eq_left, or_assoc]

theorem wrong_mem_nodeEvents {fault : Fault} :
    .wrong fault ∈ nodeEvents ignoreBounds members ↔ Faulty members fault := by
  have arms : (∃ arm ∈ armFaults, Event.wrong fault ∈ armEvents arm members) ↔
      fault ∈ armFaults ∧ Misshapen members fault := by
    constructor
    · rintro ⟨arm, combining, inside⟩
      rcases (mem_armEvents combining).mp inside with ⟨same, misshapen⟩ | ⟨arms, _, inside⟩
      · cases same
        exact ⟨combining, misshapen⟩
      · obtain ⟨_, _, _, same⟩ := mem_elementEvents.mp inside
        cases same
    · rintro ⟨combining, misshapen⟩
      exact ⟨fault, combining, (mem_armEvents combining).mpr (Or.inl ⟨rfl, misshapen⟩)⟩
  rw [mem_nodeEvents, mem_openEvents, arms]
  simp only [objectEvents, List.mem_append, mem_enumEvents, mem_typeEvents, mem_requiredEvents,
    mem_propertyEvents, mem_additionalEvents, mem_itemEvents, mem_elementEvents, mem_restEvents,
    Event.wrong.injEq, reduceCtorEq, and_false, exists_false, or_false]
  cases fault <;> simp [armFaults, Faulty, Consults, and_assoc]

theorem visit_mem_nodeEvents {tokens : Pointer} {part : Json} :
    .visit tokens part ∈ nodeEvents ignoreBounds members ↔
      VisitsPart ignoreBounds members tokens part := by
  have keywords : armFaults.map Fault.keyword = combiningKeys := rfl
  rw [mem_nodeEvents, mem_openEvents]
  simp only [objectEvents, List.mem_append, mem_enumEvents, mem_typeEvents, mem_requiredEvents,
    mem_propertyEvents, mem_additionalEvents, mem_itemEvents, mem_elementEvents, mem_restEvents,
    Event.visit.injEq, reduceCtorEq, and_false, false_and, false_or, or_false]
  constructor
  · rintro ⟨unfixed, arms | objects | arrays⟩
    · obtain ⟨fault, combining, inside⟩ := arms
      obtain ⟨arms, given, inside⟩ := ((mem_armEvents combining).mp inside).resolve_left (by simp)
      obtain ⟨position, arm, here, same⟩ := mem_elementEvents.mp inside
      cases same
      exact .arm unfixed (keywords ▸ List.mem_map_of_mem combining) given here
    · obtain ⟨object, properties | additional⟩ := objects
      · obtain ⟨named, given, member, inside, rfl, rfl⟩ := properties
        exact .property unfixed object given inside
      · obtain ⟨inner, given, rfl, rfl⟩ := additional
        exact .additional unfixed object given
    · obtain ⟨array, every | ⟨parts, given, positional | rest⟩⟩ := arrays
      · obtain ⟨part, given, schema, rfl, rfl⟩ := every
        exact .items unfixed array given schema
      · obtain ⟨position, part, here, rfl, rfl⟩ := positional
        exact .positional unfixed array given here
      · obtain ⟨inner, more, room, rfl, rfl⟩ := rest
        exact .rest unfixed array given more room
  · intro step
    cases step with
    | arm unfixed combining given here =>
      obtain ⟨fault, listed, rfl⟩ := List.mem_map.mp (keywords ▸ combining)
      refine ⟨unfixed, Or.inl ⟨fault, listed, ?_⟩⟩
      exact (mem_armEvents listed).mpr
        (Or.inr ⟨_, given, mem_elementEvents.mpr ⟨_, _, here, rfl⟩⟩)
    | property unfixed object given inside =>
      exact ⟨unfixed, Or.inr (Or.inl ⟨object, Or.inl ⟨_, given, _, inside, rfl, rfl⟩⟩)⟩
    | additional unfixed object given =>
      exact ⟨unfixed, Or.inr (Or.inl ⟨object, Or.inr ⟨_, given, rfl, rfl⟩⟩)⟩
    | items unfixed array given schema =>
      exact ⟨unfixed, Or.inr (Or.inr ⟨array, Or.inl ⟨_, given, schema, rfl, rfl⟩⟩)⟩
    | positional unfixed array given here =>
      exact ⟨unfixed, Or.inr (Or.inr ⟨array, Or.inr ⟨_, given, Or.inl ⟨_, _, here, rfl, rfl⟩⟩⟩)⟩
    | rest unfixed array given more room =>
      exact ⟨unfixed, Or.inr (Or.inr ⟨array, Or.inr ⟨_, given, Or.inr ⟨_, more, room, rfl, rfl⟩⟩⟩)⟩

theorem hasPart_of_visitsPart {tokens : Pointer} {part : Json}
    (step : VisitsPart ignoreBounds members tokens part) : HasPart (.object members) part := by
  cases step with
  | arm _ combining given here => exact .arm combining given (List.mem_of_getElem? here)
  | property _ _ given inside => exact .property given inside
  | additional _ _ given => exact .single (by simp [singleKeys]) given
  | items _ _ given _ => exact .single (by simp [singleKeys]) given
  | positional _ _ given here => exact .positional given (List.mem_of_getElem? here)
  | rest _ _ _ more _ => exact .single (by simp [singleKeys]) more

theorem visit_mem_events {schema : Json} {tokens : Pointer} {part : Json} :
    .visit tokens part ∈ events ignoreBounds schema ↔
      ∃ members, schema = .object members ∧ VisitsPart ignoreBounds members tokens part := by
  cases schema <;> simp [events, visit_mem_nodeEvents]

theorem wrong_mem_events {schema : Json} {fault : Fault} :
    .wrong fault ∈ events ignoreBounds schema ↔
      ∃ members, schema = .object members ∧ Faulty members fault := by
  cases schema <;> simp [events, wrong_mem_nodeEvents]

theorem hasPart_of_visit {schema : Json} {tokens : Pointer} {part : Json}
    (inside : .visit tokens part ∈ events ignoreBounds schema) : HasPart schema part := by
  obtain ⟨members, rfl, step⟩ := visit_mem_events.mp inside
  exact hasPart_of_visitsPart step

theorem events_of_enumMembers {schema : Json} {named : List (String × Json)}
    (given : (Schema.ofJson schema).head?.bind enumMembers? = some named) :
    events ignoreBounds schema = [] := by
  cases schema with
  | object members =>
    rw [ofJson_object] at given
    change enumMembers? (readHead members) = some named at given
    unfold enumMembers? at given
    split at given
    · rename_i values names enumeration named
      obtain ⟨value, found, shaped⟩ := readKeyword_eq_given enumeration
      obtain rfl := elements?_eq_some.mp (ofShape_eq_given.mp shaped)
      simp [events, nodeEvents, enumEvents, keywordEvents, Fault.keyword, found, Json.elements?,
        hasMember]
    · cases given
  | _ => cases given

end

end SchemaTypes
