import SchemaTypes.Proofs.SchemaNodes
import SchemaTypes.Schema.Typing
import Mathlib.Data.List.Forall2

/-!
What typing reads of a schema. Two values that agree on the recognised keywords wherever a schema is
read are read as one schema, so neither other keys nor the order of keys have any effect on the
declarations, the fault or the warnings.
-/

namespace SchemaTypes

def plainKeys : List String :=
  ["title", "description", "tsType", "enum", "tsEnumNames", "const", "type", "required", "minItems",
    "maxItems"]

/-- Lists of related elements; other values may be any. -/
inductive SameArms (related : Json → Json → Prop) : Json → Json → Prop
  | listed {elements others : List Json} (each : List.Forall₂ related elements others) :
      SameArms related (.array elements) (.array others)
  | unlisted {value other : Json} (here : value.elements? = none) (there : other.elements? = none) :
      SameArms related value other

inductive SameTable (related : Json → Json → Prop) : Json → Json → Prop
  | named {members others : List (String × Json)} (names : members.map (·.1) = others.map (·.1))
      (each : List.Forall₂ related (members.map (·.2)) (others.map (·.2))) :
      SameTable related (.object members) (.object others)
  | unnamed {value other : Json} (here : value.members? = none) (there : other.members? = none) :
      SameTable related value other

inductive SameItems (related : Json → Json → Prop) : Json → Json → Prop
  | positional {elements others : List Json} (each : List.Forall₂ related elements others) :
      SameItems related (.array elements) (.array others)
  | single {value other : Json} (here : value.elements? = none) (there : other.elements? = none)
      (same : related value other) : SameItems related value other

/--
Wherever a schema is read, the values are equal and no objects, or they are objects that agree on the
recognised keywords.
-/
inductive SameKeywords : Json → Json → Prop
  | scalar {value : Json} (unkeyed : value.members? = none) : SameKeywords value value
  | node {members others : List (String × Json)}
      (plain : ∀ key ∈ plainKeys, members.lookup key = others.lookup key)
      (arms : ∀ key ∈ combiningKeys,
        Option.Rel (SameArms SameKeywords) (members.lookup key) (others.lookup key))
      (properties : Option.Rel (SameTable SameKeywords) (members.lookup "properties")
        (others.lookup "properties"))
      (additionalProperties : Option.Rel SameKeywords (members.lookup "additionalProperties")
        (others.lookup "additionalProperties"))
      (items : Option.Rel (SameItems SameKeywords) (members.lookup "items") (others.lookup "items"))
      (additionalItems : Option.Rel SameKeywords (members.lookup "additionalItems")
        (others.lookup "additionalItems")) :
      SameKeywords (.object members) (.object others)

def ReadAlike (value : Json) : Prop :=
  ∀ other, SameKeywords value other → Schema.ofJson value = Schema.ofJson other

section

variable {members others : List (String × Json)}

theorem readHead_congr (plain : ∀ key ∈ plainKeys, members.lookup key = others.lookup key) :
    readHead members = readHead others := by
  simp only [plainKeys, List.forall_mem_cons] at plain
  obtain ⟨title, description, verbatim, values, names, constant, kinds, required, least, most, _⟩ :=
    plain
  simp only [readHead, stringMember, readKeyword, title, description, verbatim, values, names,
    constant, kinds, required, least, most]

theorem map_ofJson_congr {elements values : List Json}
    (each : List.Forall₂ SameKeywords elements values)
    (alike : ∀ element ∈ elements, ReadAlike element) :
    elements.map Schema.ofJson = values.map Schema.ofJson := by
  induction each with
  | nil => rfl
  | cons same _ ih =>
    rw [List.forall_mem_cons] at alike
    rw [List.map_cons, List.map_cons, alike.1 _ same, ih alike.2]

theorem listOf?_congr {value other : Json} (same : SameArms SameKeywords value other)
    (alike : ∀ elements, value = .array elements → ∀ element ∈ elements, ReadAlike element) :
    Schema.listOf? value = Schema.listOf? other := by
  cases same with
  | listed each => exact congrArg some (map_ofJson_congr each (alike _ rfl))
  | unlisted here there => rw [Schema.listOf?, Schema.listOf?, here, there]

theorem tableOf?_congr {value other : Json} (same : SameTable SameKeywords value other)
    (alike : ∀ named, value = .object named → ∀ member ∈ named, ReadAlike member.2) :
    Schema.tableOf? value = Schema.tableOf? other := by
  cases same with
  | @named named table names each =>
    have valuesAlike : ∀ value ∈ named.map (·.2), ReadAlike value := by
      intro value inside
      obtain ⟨member, there, rfl⟩ := List.mem_map.mp inside
      exact alike named rfl member there
    have read := map_ofJson_congr each valuesAlike
    rw [List.map_map, List.map_map] at read
    have zipped := congrArg₂ List.zip names read
    simpa [Schema.tableOf?, Json.members?, List.zip_map', Function.comp_def] using zipped
  | unnamed here there => rw [Schema.tableOf?, Schema.tableOf?, here, there]

theorem map_congr_of_rel {Content : Type} {relation : Json → Json → Prop}
    {value? other? : Option Json} {read : Json → Content} (same : Option.Rel relation value? other?)
    (alike : ∀ value other, value? = some value → relation value other → read value = read other) :
    value?.map read = other?.map read := by
  cases same with
  | none => rfl
  | @some value other related => exact congrArg some (alike value other rfl related)

theorem readKeyword_congr {Content : Type} {key : String} {read : Json → Keyword Content}
    {relation : Json → Json → Prop}
    (same : Option.Rel relation (members.lookup key) (others.lookup key))
    (alike : ∀ value other, members.lookup key = some value → relation value other →
      read value = read other) :
    readKeyword key read members = readKeyword key read others := by
  have mapped : ∀ members : List (String × Json),
      readKeyword key read members = ((members.lookup key).map read).getD .absent := by
    intro members
    rw [readKeyword]
    cases members.lookup key <;> rfl
  rw [mapped, mapped, map_congr_of_rel same alike]

theorem single?_congr {value other : Json} (read : Schema.ofJson value = Schema.ofJson other) :
    Schema.single? value = Schema.single? other := by
  rw [Schema.single?, Schema.single?, read]

theorem itemsOf?_congr {value other : Json} (same : SameItems SameKeywords value other)
    (alone : ReadAlike value)
    (alike : ∀ elements, value = .array elements → ∀ element ∈ elements, ReadAlike element) :
    Schema.itemsOf? value = Schema.itemsOf? other := by
  cases same with
  | positional each =>
    rw [Schema.itemsOf?, Schema.itemsOf?, listOf?_congr (.listed each) alike]
    rfl
  | single here there same =>
    rw [Schema.itemsOf?, Schema.itemsOf?, listOf?_congr (.unlisted here there) alike,
      single?_congr (alone other same)]

variable (parts : ∀ part, HasPart (.object members) part → ReadAlike part)
include parts

theorem armsOf_congr {key : String} (combining : key ∈ combiningKeys) (fault : Fault)
    (arms : ∀ key ∈ combiningKeys,
      Option.Rel (SameArms SameKeywords) (members.lookup key) (others.lookup key)) :
    Schema.armsOf key fault members = Schema.armsOf key fault others := by
  apply readKeyword_congr (arms key combining)
  intro value other found same
  rw [listOf?_congr same]
  intro elements listed element inside
  subst listed
  exact parts element (.arm combining found inside)

theorem propertiesOf_congr
    (properties : Option.Rel (SameTable SameKeywords) (members.lookup "properties")
      (others.lookup "properties")) :
    Schema.propertiesOf members = Schema.propertiesOf others := by
  apply readKeyword_congr properties
  intro value other found same
  rw [tableOf?_congr same]
  intro named table member inside
  subst table
  exact parts member.2 (.property found inside)

theorem additionalPropertiesOf_congr
    (additionalProperties : Option.Rel SameKeywords (members.lookup "additionalProperties")
      (others.lookup "additionalProperties")) :
    Schema.additionalPropertiesOf members = Schema.additionalPropertiesOf others := by
  apply readKeyword_congr additionalProperties
  intro value other found same
  have part : HasPart (.object members) value := .single (by decide) found
  rw [single?_congr (parts value part other same)]

theorem itemsOf_congr
    (items : Option.Rel (SameItems SameKeywords) (members.lookup "items") (others.lookup "items")) :
    Schema.itemsOf members = Schema.itemsOf others := by
  apply readKeyword_congr items
  intro value other found same
  have part : HasPart (.object members) value := .single (by decide) found
  rw [itemsOf?_congr same (parts value part)]
  intro elements listed element inside
  subst listed
  exact parts element (.positional found inside)

theorem additionalItemsOf_congr
    (additionalItems : Option.Rel SameKeywords (members.lookup "additionalItems")
      (others.lookup "additionalItems")) :
    Schema.additionalItemsOf members = Schema.additionalItemsOf others := by
  have joined : ∀ members : List (String × Json), Schema.additionalItemsOf members =
      ((members.lookup "additionalItems").map Schema.restrictionOf?).join := by
    intro members
    rw [Schema.additionalItemsOf]
    cases members.lookup "additionalItems" <;> rfl
  rw [joined, joined]
  apply congrArg Option.join
  apply map_congr_of_rel additionalItems
  intro value other found same
  have part : HasPart (.object members) value := .single (by decide) found
  rw [Schema.restrictionOf?, Schema.restrictionOf?, parts value part other same]

end

theorem ofJson_of_sameKeywords (schema : Json) : ReadAlike schema := by
  induction schema using partInduction with
  | step schema ih =>
    intro other same
    cases same with
    | scalar => rfl
    | node plain arms properties additionalProperties items additionalItems =>
      rw [ofJson_object, ofJson_object, readHead_congr plain,
        armsOf_congr ih (by decide) .allOfNotArray arms,
        armsOf_congr ih (by decide) .anyOfNotArray arms,
        armsOf_congr ih (by decide) .oneOfNotArray arms, propertiesOf_congr ih properties,
        additionalPropertiesOf_congr ih additionalProperties, itemsOf_congr ih items,
        additionalItemsOf_congr ih additionalItems]

theorem rel_self {relation : Json → Json → Prop} {value? : Option Json}
    (each : ∀ value, value? = some value → relation value value) :
    Option.Rel relation value? value? := by
  cases value? with
  | none => exact .none
  | some value => exact .some (each value rfl)

theorem sameArms_self {value : Json}
    (each : ∀ elements, value = .array elements → ∀ element ∈ elements, SameKeywords element element) :
    SameArms SameKeywords value value := by
  cases value with
  | array elements => exact .listed (List.forall₂_same.mpr (each elements rfl))
  | _ => exact .unlisted rfl rfl

theorem sameTable_self {value : Json}
    (each : ∀ named, value = .object named → ∀ member ∈ named, SameKeywords member.2 member.2) :
    SameTable SameKeywords value value := by
  cases value with
  | object named =>
    refine .named rfl (List.forall₂_same.mpr ?_)
    intro value inside
    obtain ⟨member, there, rfl⟩ := List.mem_map.mp inside
    exact each named rfl member there
  | _ => exact .unnamed rfl rfl

theorem sameItems_self {value : Json} (alone : SameKeywords value value)
    (each : ∀ elements, value = .array elements → ∀ element ∈ elements, SameKeywords element element) :
    SameItems SameKeywords value value := by
  cases value with
  | array elements => exact .positional (List.forall₂_same.mpr (each elements rfl))
  | _ => exact .single rfl rfl alone

theorem SameKeywords.refl (schema : Json) : SameKeywords schema schema := by
  induction schema using partInduction with
  | step schema ih =>
    cases schema with
    | object members =>
      have single : ∀ key ∈ singleKeys, ∀ value, members.lookup key = some value →
          SameKeywords value value := fun key reading value found => ih value (.single reading found)
      refine .node (fun _ _ => rfl) ?_ ?_ ?_ ?_ ?_
      · intro key combining
        apply rel_self
        rintro value found
        apply sameArms_self
        rintro elements rfl element inside
        exact ih element (.arm combining found inside)
      · apply rel_self
        rintro value found
        apply sameTable_self
        rintro named rfl member inside
        exact ih member.2 (.property found inside)
      · exact rel_self (single "additionalProperties" (by decide))
      · apply rel_self
        intro value found
        apply sameItems_self (single "items" (by decide) value found)
        rintro elements rfl element inside
        exact ih element (.positional found inside)
      · exact rel_self (single "additionalItems" (by decide))
    | _ => exact .scalar rfl

def recognisedKeys : List String :=
  plainKeys ++ combiningKeys ++ "properties" :: singleKeys

/-- Neither the order of members nor any other member counts. -/
theorem sameKeywords_of_lookup {members others : List (String × Json)}
    (same : ∀ key ∈ recognisedKeys, members.lookup key = others.lookup key) :
    SameKeywords (.object members) (.object others) := by
  cases SameKeywords.refl (.object members) with
  | scalar unkeyed => cases unkeyed
  | node _ arms properties additionalProperties items additionalItems =>
    refine .node ?_ ?_ ?_ ?_ ?_ ?_
    · intro key plain
      exact same key (by simp [recognisedKeys, plain])
    · intro key combining
      rw [← same key (by simp [recognisedKeys, combining])]
      exact arms key combining
    · rw [← same "properties" (by decide)]
      exact properties
    · rw [← same "additionalProperties" (by decide)]
      exact additionalProperties
    · rw [← same "items" (by decide)]
      exact items
    · rw [← same "additionalItems" (by decide)]
      exact additionalItems

/--
Typing depends on the recognised keywords only: values that agree on them wherever a schema is read
have the same declarations or the same fault, and the same warnings.
-/
theorem declarations_of_sameKeywords {schema other : Json} (same : SameKeywords schema other)
    (suggested : String) (ignoreBounds : Bool) :
    (Schema.ofJson schema).declarations suggested ignoreBounds =
      (Schema.ofJson other).declarations suggested ignoreBounds := by
  rw [ofJson_of_sameKeywords schema other same]

def bareOrder : Json :=
  .object [("title", .string "Order"), ("properties", .object [
    ("id", .object [("type", .string "number")]),
    ("note", .string "no schema")]), ("required", .array [.string "id"])]

def busyOrder : Json :=
  .object [("$schema", .string "draft"), ("required", .array [.string "id"]), ("properties", .object [
    ("id", .object [("minimum", .number (.integer 0)), ("type", .string "number"),
      ("bsonType", .string "int")]),
    ("note", .string "no schema")]), ("title", .string "Order")]

theorem orders_sameKeywords : SameKeywords bareOrder busyOrder := by
  refine .node (by decide) ?_ (.some (.named rfl ?_)) .none .none .none
  · intro key combining
    simp only [combiningKeys, List.mem_cons, List.not_mem_nil, or_false] at combining
    rcases combining with rfl | rfl | rfl <;> exact .none
  · exact .cons (sameKeywords_of_lookup (by decide)) (.cons (.refl _) .nil)

theorem busyOrder_declarations :
    SameKeywords bareOrder busyOrder ∧
      (Schema.ofJson busyOrder).declarations "" false =
        ⟨[["properties", "note"]], .ok ([.interface "Order" none
          [⟨"id", .number, true, none⟩, ⟨"note", .unknown, false, none⟩] (some .unknown)], [])⟩ := by
  refine ⟨orders_sameKeywords, ?_⟩
  rw [← declarations_of_sameKeywords orders_sameKeywords]
  rfl

end SchemaTypes
