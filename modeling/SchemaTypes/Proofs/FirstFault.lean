import SchemaTypes.Proofs.DraftEffects
import SchemaTypes.Proofs.Visits

/-!
Which schemas are refused, and for which fault: those with a fault in a visited node at a keyword that
is consulted there, and for the first such fault in the order of typing.
-/

namespace SchemaTypes

namespace Draft

variable {Content Other : Type}

/-- Whatever names are taken, the draft is refused for the first of these faults if there are any. -/
def Fails (draft : Draft Content) (faults : List Malformed) : Prop :=
  ∀ taken malformed, (draft taken).outcome = .error malformed ↔ faults.head? = some malformed

theorem error_map_iff {Error : Type} {result : Except Error Content} {make : Content → Other}
    {error : Error} : result.map make = .error error ↔ result = .error error := by
  cases result <;> simp [Except.map]

theorem fails_pure (content : Content) : (pure content : Draft Content).Fails [] := by
  intro taken malformed
  simp [pure, done]

theorem fails_refuse (fault : Fault) :
    (refuse fault : Draft Content).Fails [⟨[fault.keyword], fault⟩] := by
  intro taken malformed
  simp [refuse]

theorem fails_warn : warn.Fails [] := by
  intro taken malformed
  simp [warn]

theorem fails_map {draft : Draft Content} {faults : List Malformed} (make : Content → Other)
    (fails : draft.Fails faults) : (make <$> draft).Fails faults := by
  intro taken malformed
  rw [← fails taken malformed]
  exact error_map_iff

theorem fails_effect {draft : Draft Content} {faults : List Malformed} :
    draft.effect.Fails faults ↔ draft.Fails faults := by
  unfold Fails
  apply forall₂_congr
  intro taken malformed
  have same : (draft.effect taken).outcome = .error malformed ↔
      (draft taken).outcome = .error malformed := error_map_iff
  rw [same]

theorem fails_bind {draft : Draft Content} {next : Content → Draft Other}
    {faults later : List Malformed} (fails : draft.Fails faults)
    (fails' : ∀ content, (next content).Fails later) : (draft >>= next).Fails (faults ++ later) := by
  intro taken malformed
  have first := fails taken
  simp only [bind, andThen]
  cases here : (draft taken).outcome with
  | error other =>
    have head : faults.head? = some other := (first other).mp here
    simp [List.head?_append, head]
  | ok drawn =>
    have nothing : faults = [] := by
      rw [← List.head?_eq_none_iff, Option.eq_none_iff_forall_ne_some]
      intro other head
      rw [← first other, here] at head
      cases head
    rw [nothing, List.nil_append, ← fails' drawn.1 (taken ++ drawn.2.map Declaration.name) malformed]
    exact error_map_iff

theorem fails_within {tokens : Pointer} {draft : Draft Content} {faults : List Malformed}
    (fails : draft.Fails faults) :
    (draft.within tokens).Fails (faults.map (Malformed.within tokens)) := by
  intro taken malformed
  rw [List.head?_map, Option.map_eq_some_iff]
  simp only [← fails taken, within]
  cases (draft taken).outcome <;> simp [Except.mapError, Malformed.within]

theorem fails_inTurn {Source : Type} {draft : Source → Draft Unit} {faults : Source → List Malformed}
    {sources : List Source} (fails : ∀ source ∈ sources, (draft source).Fails (faults source)) :
    (inTurn (sources.map draft)).Fails (sources.flatMap faults) := by
  induction sources with
  | nil => exact fails_pure ()
  | cons source sources ih =>
    have first := fails source List.mem_cons_self
    have others := ih fun other inside => fails other (List.mem_cons_of_mem source inside)
    exact fails_bind first fun _ => others

end Draft

open Draft

variable {ignoreBounds : Bool}

theorem fails_declare {schema : Json} (base : String)
    (fails : ((Schema.ofJson schema).body ignoreBounds).Fails (faultsInOrder ignoreBounds schema)) :
    (declare base (Schema.ofJson schema) ((Schema.ofJson schema).body ignoreBounds)).Fails
      (faultsInOrder ignoreBounds schema) := by
  have drafted : ∀ name, (declarationDraft name (Schema.ofJson schema)
      ((Schema.ofJson schema).body ignoreBounds)).Fails (faultsInOrder ignoreBounds schema) := by
    intro name
    unfold declarationDraft
    split
    · rename_i named given
      rw [faultsInOrder_eq, events_of_enumMembers given]
      exact fails_pure _
    · exact fails_map _ fails
  intro taken malformed
  rw [← drafted (freshName base taken) (taken ++ [freshName base taken]) malformed]
  exact error_map_iff

theorem fails_place {schema : Json}
    (fails : ((Schema.ofJson schema).body ignoreBounds).Fails (faultsInOrder ignoreBounds schema)) :
    (place (Schema.ofJson schema) ((Schema.ofJson schema).body ignoreBounds)).Fails
      (faultsInOrder ignoreBounds schema) := by
  unfold place
  split
  · exact fails_declare _ fails
  · exact fails

theorem fails_body (schema : Json) :
    ((Schema.ofJson schema).body ignoreBounds).Fails (faultsInOrder ignoreBounds schema) := by
  induction schema using partInduction with
  | step schema ih =>
    rw [← fails_effect, does_body schema, faultsInOrder_eq]
    apply fails_inTurn
    intro event inside
    cases event with
    | wrong fault => exact fails_refuse fault
    | foreign => exact fails_warn
    | visit tokens part =>
      have below := ih part (hasPart_of_visit inside)
      exact fails_effect.mpr (fails_within (fails_place below))

/--
A schema is refused just if a visited node in it has a value of the wrong shape for a keyword that is
consulted at the node, and the fault reported is the first of all these in the order of typing.
-/
theorem refused_at_first_fault (schema : Json) (suggested : String) (ignoreBounds : Bool) :
    ((∃ malformed,
        ((Schema.ofJson schema).declarations suggested ignoreBounds).outcome = .error malformed) ↔
      ∃ place members fault, Visits ignoreBounds schema place (.object members) ∧
        Faulty members fault) ∧
      (∀ malformed,
        ((Schema.ofJson schema).declarations suggested ignoreBounds).outcome = .error malformed ↔
          (faultsInOrder ignoreBounds schema).head? = some malformed) ∧
      ∀ malformed, malformed ∈ faultsInOrder ignoreBounds schema ↔
        ∃ place members, Visits ignoreBounds schema place (.object members) ∧
          Faulty members malformed.fault ∧
          malformed.pointer = place ++ [malformed.fault.keyword] := by
  have first : ∀ malformed,
      ((Schema.ofJson schema).declarations suggested ignoreBounds).outcome = .error malformed ↔
        (faultsInOrder ignoreBounds schema).head? = some malformed := by
    intro malformed
    rw [← fails_declare (rootBase (Schema.ofJson schema) suggested) (fails_body schema) [] malformed]
    exact error_map_iff
  refine ⟨?_, first, fun malformed => mem_faultsInOrder⟩
  simp only [first]
  constructor
  · rintro ⟨malformed, head⟩
    obtain ⟨place, members, visits, faulty, _⟩ := mem_faultsInOrder.mp (List.mem_of_head? head)
    exact ⟨place, members, malformed.fault, visits, faulty⟩
  · rintro ⟨place, members, fault, visits, faulty⟩
    have inside : ⟨place ++ [fault.keyword], fault⟩ ∈ faultsInOrder ignoreBounds schema :=
      mem_faultsInOrder.mpr ⟨place, members, visits, faulty, rfl⟩
    rw [← Option.isSome_iff_exists, List.isSome_head?]
    simpa using List.ne_nil_of_mem inside

def strayRest : Json :=
  .object [("type", .string "array"),
    ("additionalItems", .object [("type", .number (.integer 5))])]

/-- Without positional elements nothing follows them, and `additionalItems` is never looked into. -/
theorem strayRest_accepted :
    (∃ members inner, strayRest = .object members ∧ Unfixed members ∧
        "array" ∈ effectiveNames members ∧ members.lookup "maxItems" = none ∧
        members.lookup "additionalItems" = some (.object inner) ∧ Faulty inner .typeNotNames) ∧
      ((Schema.ofJson strayRest).declarations "" false).outcome =
        .ok ([.typeAlias "Root" none (.list .unknown)], []) := by
  refine ⟨⟨_, _, rfl, ⟨rfl, rfl, rfl⟩, ?_, rfl, rfl, ⟨⟨rfl, rfl, rfl⟩, _, rfl, ?_⟩⟩, ?_⟩
  · decide
  · simp [Fault.Misshapes]
  · rfl

end SchemaTypes
