import SchemaTypes.Proofs.Faults
import SchemaTypes.Proofs.Payloads

namespace SchemaTypes

namespace Json

theorem sizeOf_part?_lt {token : String} {value part : Json} (step : value.part? token = some part) :
    sizeOf part < sizeOf value := by
  cases value with
  | object members =>
    have smaller := sizeOf_lookup_lt step
    simp only [object.sizeOf_spec]
    omega
  | array elements =>
    obtain ⟨position, _, here⟩ := Option.bind_eq_some_iff.mp step
    have smaller := List.sizeOf_lt_of_mem (List.mem_of_getElem? here)
    simp only [array.sizeOf_spec]
    omega
  | _ => cases step

theorem tokenInduction {motive : Json → Prop}
    (step : ∀ value, (∀ token part, value.part? token = some part → motive part) → motive value)
    (value : Json) : motive value :=
  step value fun _ part _ => tokenInduction step part
termination_by sizeOf value
decreasing_by exact sizeOf_part?_lt ‹_›

variable {check : List (String × Json) → Bool} {value : Json}

theorem everyObject_of_part? (whole : value.everyObject check = true) {token : String} {part : Json}
    (step : value.part? token = some part) : part.everyObject check = true := by
  cases value with
  | object members => exact everyObject_of_lookup whole step
  | array elements =>
    obtain ⟨position, _, here⟩ := Option.bind_eq_some_iff.mp step
    exact everyObject_array.mp whole part (List.mem_of_getElem? here)
  | _ => cases step

theorem everyObject_of_parts
    (apart : ∀ members, value = .object members → (members.map (·.1)).Nodup)
    (here : ∀ members, value = .object members → check members = true)
    (parts : ∀ token part, value.part? token = some part → part.everyObject check = true) :
    value.everyObject check = true := by
  cases value with
  | object members =>
    rw [everyObject_object]
    refine ⟨here members rfl, fun member inside => ?_⟩
    exact parts member.1 member.2 (lookup_of_mem (apart members rfl) inside)
  | array elements =>
    rw [everyObject_array]
    intro element inside
    obtain ⟨position, found⟩ := List.getElem?_of_mem inside
    apply parts (Nat.repr position)
    rw [part?, elementIndex?_repr, Option.bind_some, found]
  | _ => rfl

theorem keys_nodup {members : List (String × Json)}
    (distinct : (object members).hasDistinctKeys = true) : (members.map (·.1)).Nodup :=
  of_decide_eq_true (everyObject_object.mp distinct).1

theorem everyObject_iff_select? (distinct : value.hasDistinctKeys = true) :
    value.everyObject check = true ↔
      ∀ pointer members, value.select? pointer = some (.object members) → check members = true := by
  constructor
  · intro whole pointer members found
    clear distinct
    induction pointer generalizing value with
    | nil =>
      cases found
      exact (everyObject_object.mp whole).1
    | cons token pointer ih =>
      obtain ⟨part, step, reached⟩ := Option.bind_eq_some_iff.mp found
      exact ih (everyObject_of_part? whole step) reached
  · intro checked
    induction value using tokenInduction with
    | step value ih =>
      apply everyObject_of_parts
      · rintro members rfl
        exact keys_nodup distinct
      · rintro members rfl
        exact checked [] members rfl
      · intro token part step
        apply ih token part step (everyObject_of_part? distinct step)
        intro pointer members found
        apply checked (token :: pointer)
        rw [select?, step]
        exact found

theorem select?_of_hasPart {part : Json} (distinct : value.hasDistinctKeys = true)
    (step : HasPart value part) : ∃ pointer, value.select? pointer = some part := by
  cases step with
  | @arm members key arms _ _ given inside =>
    obtain ⟨position, here⟩ := List.getElem?_of_mem inside
    refine ⟨[key] ++ [Nat.repr position], ?_⟩
    rw [select?_append, select?_member given, Option.bind_some, select?_element here]
  | @property members named member given inside =>
    refine ⟨["properties"] ++ [member.1], ?_⟩
    have found := lookup_of_mem (table_nodup distinct given) inside
    rw [select?_append, select?_member given, Option.bind_some, select?_member found]
  | @single members key _ _ given => exact ⟨[key], select?_member given⟩
  | @positional members parts _ given inside =>
    obtain ⟨position, here⟩ := List.getElem?_of_mem inside
    refine ⟨["items"] ++ [Nat.repr position], ?_⟩
    rw [select?_append, select?_member given, Option.bind_some, select?_element here]

theorem select?_of_hasNode {members : List (String × Json)} (distinct : value.hasDistinctKeys = true)
    (node : HasNode value members) : ∃ pointer, value.select? pointer = some (.object members) := by
  induction node with
  | here => exact ⟨[], rfl⟩
  | deeper step _ ih =>
    obtain ⟨front, outer⟩ := select?_of_hasPart distinct step
    obtain ⟨back, inner⟩ := ih (everyObject_of_part distinct step)
    refine ⟨front ++ back, ?_⟩
    rw [select?_append, outer, Option.bind_some, inner]

theorem annotatedNode_nodup {members : List (String × Json)} (distinct : (members.map (·.1)).Nodup) :
    ((annotatedNode members).map (·.1)).Nodup := by
  rw [← keys_annotateMembers] at distinct
  unfold annotatedNode
  cases hint? members with
  | none => exact distinct
  | some hint => exact putMember_nodup distinct

/-- One step after annotation leads to a part from before, annotated, or to a hint that was written. -/
theorem part?_of_annotate {token : String} {found : Json}
    (step : value.annotate.part? token = some found) :
    (∃ hint, found = .string hint) ∨ ∃ part, value.part? token = some part ∧ found = part.annotate := by
  cases value with
  | object members =>
    by_cases hinting : token = hintKey
    · subst hinting
      cases called : hint? members with
      | some hint =>
        have written := (annotatedNode_hinted called).1
        exact Or.inl ⟨hint, Option.some.inj (step.symm.trans written)⟩
      | none =>
        rw [annotate, part?, ← annotatedNode, (annotatedNode_unhinted called).1] at step
        obtain ⟨part, inside, rfl⟩ := Option.map_eq_some_iff.mp step
        exact Or.inr ⟨part, inside, rfl⟩
    · rw [annotate, part?, ← annotatedNode, lookup_annotatedNode hinting] at step
      obtain ⟨part, inside, rfl⟩ := Option.map_eq_some_iff.mp step
      exact Or.inr ⟨part, inside, rfl⟩
  | array elements =>
    rw [part?_annotate (by simp)] at step
    obtain ⟨part, inside, rfl⟩ := Option.map_eq_some_iff.mp step
    exact Or.inr ⟨part, inside, rfl⟩
  | _ => cases step

theorem hasDistinctKeys_annotate (distinct : value.hasDistinctKeys = true) :
    value.annotate.hasDistinctKeys = true := by
  induction value using tokenInduction with
  | step value ih =>
    have apart : ∀ members, value.annotate = .object members → (members.map (·.1)).Nodup := by
      intro members same
      obtain ⟨sources, rfl, rfl⟩ := annotate_eq_object same
      exact annotatedNode_nodup (keys_nodup distinct)
    apply everyObject_of_parts apart
    · exact fun members same => decide_eq_true (apart members same)
    · intro token found step
      rcases part?_of_annotate step with ⟨hint, rfl⟩ | ⟨part, inside, rfl⟩
      · rfl
      · exact ih token part inside (everyObject_of_part? distinct inside)

theorem select?_annotate_iff {pointer : Pointer} {annotated : List (String × Json)} :
    value.annotate.select? pointer = some (.object annotated) ↔
      ∃ members, value.select? pointer = some (.object members) ∧ ¬value.Overwritten pointer ∧
        annotated = annotatedNode members := by
  constructor
  · intro reached
    have kept : ¬value.Overwritten pointer := by
      intro overwritten
      obtain ⟨hint, other⟩ := string_of_overwritten overwritten reached
      cases other
    rw [select?_annotate_of kept, Option.map_eq_some_iff] at reached
    obtain ⟨found, inside, same⟩ := reached
    obtain ⟨members, rfl, rfl⟩ := annotate_eq_object same
    exact ⟨members, inside, kept, rfl⟩
  · rintro ⟨members, found, kept, rfl⟩
    rw [select?_annotate_of kept, found]
    rfl

end Json

end SchemaTypes
