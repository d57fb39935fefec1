import SchemaTypes.Proofs.Namespace

namespace SchemaTypes

namespace TypeExpr

mutual

theorem references_canonical (type : TypeExpr) : type.canonical.references = type.references := by
  cases type with
  | list item => exact references_canonical item
  | tuple elements required rest =>
    rw [canonical, references, references, references_canonicalAll elements,
      references_canonicalOption rest]
  | object fields index =>
    rw [canonical, references, references, references_canonicalFields fields,
      references_canonicalOption index]
  | union arms => exact references_canonicalAll arms
  | intersection parts => exact references_canonicalAll parts
  | _ => rfl
termination_by structural type

theorem references_canonicalAll (types : List TypeExpr) :
    referencesOfAll (canonicalAll types) = referencesOfAll types := by
  cases types with
  | nil => rfl
  | cons type types =>
    rw [canonicalAll, referencesOfAll, referencesOfAll, references_canonical type,
      references_canonicalAll types]
termination_by structural types

theorem references_canonicalOption (type : Option TypeExpr) :
    referencesOfOption (canonicalOption type) = referencesOfOption type := by
  cases type with
  | none => rfl
  | some type => exact references_canonical type
termination_by structural type

theorem references_canonicalFields (fields : List (Field TypeExpr)) :
    referencesOfFields (canonicalFields fields) = referencesOfFields fields := by
  cases fields with
  | nil => rfl
  | cons field fields =>
    obtain ⟨name, content, required, docs⟩ := field
    rw [canonicalFields, referencesOfFields, referencesOfFields, references_canonical content,
      references_canonicalFields fields]
termination_by structural fields

end

theorem references_same {type other : TypeExpr} (same : type.canonical = other.canonical) :
    type.references = other.references := by
  rw [← references_canonical type, same, references_canonical]

variable {name : String}

theorem exists_arm {type : TypeExpr} (mentioned : name ∈ type.references) :
    ∃ arm ∈ type.arms, name ∈ arm.references := by
  cases type with
  | union arms => exact mem_referencesOfAll.mp mentioned
  | _ => exact ⟨_, List.mem_singleton_self _, mentioned⟩

theorem exists_part {type : TypeExpr} (mentioned : name ∈ type.references) :
    ∃ part ∈ type.parts, name ∈ part.references := by
  cases type with
  | intersection parts => exact mem_referencesOfAll.mp mentioned
  | _ => exact ⟨_, List.mem_singleton_self _, mentioned⟩

/-- Of the arms that are the same, one is kept, and it mentions what the others do. -/
theorem references_unionOf {types : List TypeExpr} :
    name ∈ (unionOf types).references ↔ ∃ type ∈ types, name ∈ type.references := by
  constructor
  · exact mem_references_unionOf
  · rintro ⟨type, inside, mentioned⟩
    obtain ⟨arm, here, inArm⟩ := exists_arm mentioned
    obtain ⟨kept, left, same⟩ := exists_distinct (List.mem_flatMap.mpr ⟨type, inside, here⟩)
    have inKept : name ∈ kept.references := by
      rw [references_same same]
      exact inArm
    unfold unionOf
    split
    · rename_i none
      rw [none] at left
      cases left
    · rename_i alone
      rw [alone, List.mem_singleton] at left
      rwa [← left]
    · exact mem_referencesOfAll.mpr ⟨kept, left, inKept⟩

theorem references_intersectionOf {types : List TypeExpr} :
    name ∈ (intersectionOf types).references ↔ ∃ type ∈ types, name ∈ type.references := by
  constructor
  · exact mem_references_intersectionOf
  · rintro ⟨type, inside, mentioned⟩
    obtain ⟨part, here, inPart⟩ := exists_part mentioned
    have kept : part ∈ types.flatMap parts := List.mem_flatMap.mpr ⟨type, inside, here⟩
    unfold intersectionOf
    split
    · rename_i none
      rw [none] at kept
      cases kept
    · rename_i alone
      rw [alone, List.mem_singleton] at kept
      rwa [← kept]
    · exact mem_referencesOfAll.mpr ⟨part, kept, inPart⟩

end TypeExpr

open TypeExpr

variable {name : String}

theorem references_copies {item : TypeExpr} {count : Nat} :
    name ∈ referencesOfAll (List.replicate count item) ↔ count ≠ 0 ∧ name ∈ item.references := by
  rw [mem_referencesOfAll]
  simp

theorem references_listFrom {item : TypeExpr} {least : Nat} :
    name ∈ (listFrom item least).references ↔ name ∈ item.references := by
  unfold listFrom
  split
  · exact Iff.rfl
  · simp [references, referencesOfOption, references_copies]

theorem references_boundedList {item : TypeExpr} {least : Nat} {most : Option Nat} :
    name ∈ (boundedList item least most).references ↔
      ¬(most = some 0 ∧ least = 0) ∧ name ∈ item.references := by
  unfold boundedList
  split
  · simp [references_listFrom]
  · rename_i most
    split
    · rename_i contradictory
      have filled : ¬(most = 0 ∧ least = 0) := by omega
      simp [references, filled]
    · rename_i consistent
      split
      · have empty : most = 0 ↔ most = 0 ∧ least = 0 := by omega
        simp only [references, referencesOfOption, List.append_nil, references_copies,
          Option.some.injEq, ← empty, ne_eq]
      · rename_i long
        have filled : ¬(most = 0 ∧ least = 0) := by
          rw [maxSpelledElements] at long
          omega
        simp [references_listFrom, filled]

theorem references_merged {merge : List TypeExpr → TypeExpr}
    (merged : ∀ types, name ∈ (merge types).references ↔ ∃ type ∈ types, name ∈ type.references)
    (arms : Option (List TypeExpr)) :
    (∃ type ∈ (arms.map merge).toList, name ∈ type.references) ↔
      name ∈ (arms.getD []).flatMap references := by
  cases arms with
  | none => simp
  | some types => simp [merged]

theorem references_combined {all any one : Option (List TypeExpr)} {typed : Option TypeExpr} :
    name ∈ (combined all any one typed).references ↔
      name ∈ (all.getD []).flatMap references ++ (any.getD []).flatMap references ++
        (one.getD []).flatMap references ++ referencesOfOption typed := by
  have own : (∃ type ∈ typed.toList, name ∈ type.references) ↔ name ∈ referencesOfOption typed := by
    cases typed <;> simp [referencesOfOption]
  rw [combined, references_intersectionOf]
  simp only [List.mem_append, or_and_right, exists_or, own,
    references_merged (fun _ => references_intersectionOf),
    references_merged (fun _ => references_unionOf)]

end SchemaTypes
