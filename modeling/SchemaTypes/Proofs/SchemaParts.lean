import SchemaTypes.Schema.Basic

namespace SchemaTypes

def Keyword.content? {Content : Type} : Keyword Content → Option Content
  | .given content => some content
  | _ => none

def Items.contents {Content : Type} : Items Content → List Content
  | .every content => [content]
  | .positional contents => contents

namespace Schema

def parts : Schema → List Schema
  | node _ allOf anyOf oneOf properties additionalProperties items additionalItems =>
    allOf.content?.getD [] ++ anyOf.content?.getD [] ++ oneOf.content?.getD [] ++
      (properties.content?.getD []).map (·.2) ++ additionalProperties.content?.toList ++
      (items.content?.map Items.contents).getD [] ++ additionalItems.toList
  | _ => []

theorem sizeOf_arm_lt {keyword : Keyword (List Schema)} {part : Schema}
    (here : part ∈ keyword.content?.getD []) : sizeOf part < sizeOf keyword := by
  cases keyword with
  | given arms =>
    have smaller : sizeOf part < sizeOf arms := List.sizeOf_lt_of_mem here
    simp only [Keyword.given.sizeOf_spec]
    omega
  | _ => simp [Keyword.content?] at here

theorem sizeOf_named_lt {keyword : Keyword (List (String × Schema))} {part : Schema}
    (here : part ∈ (keyword.content?.getD []).map (·.2)) : sizeOf part < sizeOf keyword := by
  cases keyword with
  | given named =>
    obtain ⟨⟨name, schema⟩, member, rfl⟩ := List.mem_map.mp here
    have smaller : sizeOf (name, schema) < sizeOf named := List.sizeOf_lt_of_mem member
    simp only [Keyword.given.sizeOf_spec, Prod.mk.sizeOf_spec] at *
    omega
  | _ => simp [Keyword.content?] at here

theorem sizeOf_content_lt {keyword : Keyword Schema} {part : Schema}
    (here : part ∈ keyword.content?.toList) : sizeOf part < sizeOf keyword := by
  cases keyword with
  | given schema =>
    obtain rfl : part = schema := by simpa [Keyword.content?] using here
    simp only [Keyword.given.sizeOf_spec]
    omega
  | _ => simp [Keyword.content?] at here

theorem sizeOf_item_lt {keyword : Keyword (Items Schema)} {part : Schema}
    (here : part ∈ (keyword.content?.map Items.contents).getD []) : sizeOf part < sizeOf keyword := by
  cases keyword with
  | given items =>
    cases items with
    | every schema =>
      obtain rfl : part = schema := by simpa [Keyword.content?, Items.contents] using here
      simp only [Keyword.given.sizeOf_spec, Items.every.sizeOf_spec]
      omega
    | positional schemas =>
      have smaller : sizeOf part < sizeOf schemas := List.sizeOf_lt_of_mem here
      simp only [Keyword.given.sizeOf_spec, Items.positional.sizeOf_spec]
      omega
  | _ => simp [Keyword.content?] at here

theorem sizeOf_part_lt {schema part : Schema} (here : part ∈ schema.parts) :
    sizeOf part < sizeOf schema := by
  cases schema with
  | node head allOf anyOf oneOf properties additionalProperties items additionalItems =>
    simp only [parts, List.mem_append] at here
    simp only [node.sizeOf_spec]
    rcases here with (((((inAll | inAny) | inOne) | named) | additional) | inItems) | rest
    · have := sizeOf_arm_lt inAll
      omega
    · have := sizeOf_arm_lt inAny
      omega
    · have := sizeOf_arm_lt inOne
      omega
    · have := sizeOf_named_lt named
      omega
    · have := sizeOf_content_lt additional
      omega
    · have := sizeOf_item_lt inItems
      omega
    · obtain rfl := Option.mem_toList.mp rest
      simp only [Option.some.sizeOf_spec]
      omega
  | _ => simp [parts] at here

theorem partsInduction {motive : Schema → Prop}
    (step : ∀ schema, (∀ part ∈ schema.parts, motive part) → motive schema) (schema : Schema) :
    motive schema :=
  step schema fun part _ => partsInduction step part
termination_by sizeOf schema
decreasing_by exact sizeOf_part_lt ‹_›

end Schema

end SchemaTypes
