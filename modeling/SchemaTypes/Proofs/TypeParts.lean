import SchemaTypes.TypeExpr.Basic

namespace SchemaTypes.TypeExpr

def inner : TypeExpr → List TypeExpr
  | list item => [item]
  | tuple elements _ rest => elements ++ rest.toList
  | object fields index => fields.map (·.content) ++ index.toList
  | union arms => arms
  | intersection parts => parts
  | _ => []

theorem sizeOf_option_lt {part : TypeExpr} {option : Option TypeExpr} (here : part ∈ option.toList) :
    sizeOf part < sizeOf option := by
  obtain rfl := Option.mem_toList.mp here
  simp only [Option.some.sizeOf_spec]
  omega

theorem sizeOf_field_lt {part : TypeExpr} {fields : List (Field TypeExpr)}
    (here : part ∈ fields.map (·.content)) : sizeOf part < sizeOf fields := by
  obtain ⟨⟨name, content, required, docs⟩, inside, rfl⟩ := List.mem_map.mp here
  have smaller := List.sizeOf_lt_of_mem inside
  simp only [Field.mk.sizeOf_spec] at *
  omega

theorem sizeOf_inner_lt {type part : TypeExpr} (here : part ∈ type.inner) :
    sizeOf part < sizeOf type := by
  cases type with
  | list item =>
    obtain rfl := List.mem_singleton.mp here
    simp only [list.sizeOf_spec]
    omega
  | tuple elements required rest =>
    simp only [tuple.sizeOf_spec]
    rcases List.mem_append.mp here with spelled | after
    · have smaller := List.sizeOf_lt_of_mem spelled
      omega
    · have smaller := sizeOf_option_lt after
      omega
  | object fields index =>
    simp only [object.sizeOf_spec]
    rcases List.mem_append.mp here with named | indexed
    · have smaller := sizeOf_field_lt named
      omega
    · have smaller := sizeOf_option_lt indexed
      omega
  | union arms =>
    have smaller := List.sizeOf_lt_of_mem here
    simp only [inner, union.sizeOf_spec] at *
    omega
  | intersection parts =>
    have smaller := List.sizeOf_lt_of_mem here
    simp only [inner, intersection.sizeOf_spec] at *
    omega
  | _ => cases here

theorem innerInduction {motive : TypeExpr → Prop}
    (step : ∀ type : TypeExpr, (∀ part ∈ type.inner, motive part) → motive type) (type : TypeExpr) :
    motive type :=
  step type fun part _ => innerInduction step part
termination_by sizeOf type
decreasing_by exact sizeOf_inner_lt ‹_›

end SchemaTypes.TypeExpr
