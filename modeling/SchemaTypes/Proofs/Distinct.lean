import SchemaTypes.TypeExpr.Combine

namespace SchemaTypes.TypeExpr

theorem canonicalAll_eq (types : List TypeExpr) : canonicalAll types = types.map canonical := by
  induction types with
  | nil => rfl
  | cons type types ih => simp [canonicalAll, ih]

theorem canonicalOption_eq (type : Option TypeExpr) : canonicalOption type = type.map canonical := by
  cases type <;> rfl

theorem canonicalFields_eq (fields : List (Field TypeExpr)) :
    canonicalFields fields =
      fields.map fun field => { field with content := field.content.canonical } := by
  induction fields with
  | nil => rfl
  | cons field fields ih => simp [canonicalFields, ih]

theorem distinct_subset (types : List TypeExpr) : distinct types ⊆ types := by
  induction types with
  | nil => simp [distinct_nil]
  | cons type types ih =>
    rw [distinct_cons]
    intro other inside
    rcases List.mem_cons.mp inside with rfl | kept
    · exact List.mem_cons_self
    · exact List.mem_cons_of_mem type (ih (List.mem_filter.mp kept).1)

theorem exists_distinct {types : List TypeExpr} {type : TypeExpr} (inside : type ∈ types) :
    ∃ kept ∈ distinct types, kept.canonical = type.canonical := by
  induction types with
  | nil => cases inside
  | cons first types ih =>
    rw [distinct_cons]
    by_cases same : first.canonical = type.canonical
    · exact ⟨first, List.mem_cons_self, same⟩
    · rcases List.mem_cons.mp inside with rfl | later
      · exact absurd rfl same
      · obtain ⟨kept, here, equal⟩ := ih later
        refine ⟨kept, List.mem_cons_of_mem first (List.mem_filter.mpr ⟨here, ?_⟩), equal⟩
        rw [TypeExpr.same, equal]
        simpa using same

end SchemaTypes.TypeExpr
