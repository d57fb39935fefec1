import SchemaTypes.Proofs.Distinct

namespace SchemaTypes

namespace TypeExpr

mutual

def references : TypeExpr → List String
  | reference name => [name]
  | list item => references item
  | tuple elements _ rest => referencesOfAll elements ++ referencesOfOption rest
  | object fields index => referencesOfFields fields ++ referencesOfOption index
  | union arms => referencesOfAll arms
  | intersection parts => referencesOfAll parts
  | _ => []

def referencesOfAll : List TypeExpr → List String
  | [] => []
  | type :: types => references type ++ referencesOfAll types

def referencesOfOption : Option TypeExpr → List String
  | none => []
  | some type => references type

def referencesOfFields : List (Field TypeExpr) → List String
  | [] => []
  | ⟨_, content, _, _⟩ :: fields => references content ++ referencesOfFields fields

end

theorem mem_referencesOfAll {name : String} {types : List TypeExpr} :
    name ∈ referencesOfAll types ↔ ∃ type ∈ types, name ∈ type.references := by
  induction types with
  | nil => simp [referencesOfAll]
  | cons type types ih => simp [referencesOfAll, ih]

theorem mem_referencesOfFields {name : String} {fields : List (Field TypeExpr)} :
    name ∈ referencesOfFields fields ↔ ∃ field ∈ fields, name ∈ field.content.references := by
  induction fields with
  | nil => simp [referencesOfFields]
  | cons field fields ih => simp [referencesOfFields, ih]

theorem mem_references_of_arm {name : String} {type arm : TypeExpr} (here : arm ∈ type.arms)
    (mentioned : name ∈ arm.references) : name ∈ type.references := by
  cases type with
  | union arms => exact mem_referencesOfAll.mpr ⟨arm, here, mentioned⟩
  | _ =>
    obtain rfl := List.mem_singleton.mp here
    exact mentioned

theorem mem_references_of_part {name : String} {type part : TypeExpr} (here : part ∈ type.parts)
    (mentioned : name ∈ part.references) : name ∈ type.references := by
  cases type with
  | intersection parts => exact mem_referencesOfAll.mpr ⟨part, here, mentioned⟩
  | _ =>
    obtain rfl := List.mem_singleton.mp here
    exact mentioned

theorem mem_references_unionOf {name : String} {types : List TypeExpr}
    (mentioned : name ∈ (unionOf types).references) : ∃ type ∈ types, name ∈ type.references := by
  have found : ∃ arm ∈ distinct (types.flatMap arms), name ∈ arm.references := by
    unfold unionOf at mentioned
    split at mentioned
    · simp [references] at mentioned
    · rename_i arm alone
      exact ⟨arm, by simp [alone], mentioned⟩
    · exact mem_referencesOfAll.mp mentioned
  obtain ⟨arm, kept, inArm⟩ := found
  obtain ⟨type, inside, here⟩ := List.mem_flatMap.mp (distinct_subset _ kept)
  exact ⟨type, inside, mem_references_of_arm here inArm⟩

theorem mem_references_intersectionOf {name : String} {types : List TypeExpr}
    (mentioned : name ∈ (intersectionOf types).references) :
    ∃ type ∈ types, name ∈ type.references := by
  have found : ∃ part ∈ types.flatMap parts, name ∈ part.references := by
    unfold intersectionOf at mentioned
    split at mentioned
    · simp [references] at mentioned
    · rename_i part alone
      exact ⟨part, by simp [alone], mentioned⟩
    · exact mem_referencesOfAll.mp mentioned
  obtain ⟨part, kept, inPart⟩ := found
  obtain ⟨type, inside, here⟩ := List.mem_flatMap.mp kept
  exact ⟨type, inside, mem_references_of_part here inPart⟩

end TypeExpr

def Declaration.references : Declaration → List String
  | interface _ _ fields index => (TypeExpr.object fields index).references
  | typeAlias _ _ type => type.references
  | enumeration _ _ _ => []

end SchemaTypes
