import SchemaTypes.Proofs.Events

/-!
What typing comes across in a whole schema. The trace of a schema has the events of all that is visited
in it, each at its place, and what is in a part directly after the part. The faults in order and the
visits in order are read off the trace.
-/

namespace SchemaTypes

/-- The values visited in a schema and their places: the schema itself, and parts of visited nodes. -/
inductive Visits (ignoreBounds : Bool) (schema : Json) : Pointer → Json → Prop
  | root : Visits ignoreBounds schema [] schema
  | part {place tokens : Pointer} {members : List (String × Json)} {part : Json}
      (parent : Visits ignoreBounds schema place (.object members))
      (step : VisitsPart ignoreBounds members tokens part) :
      Visits ignoreBounds schema (place ++ tokens) part

/-- All events in a schema at their places, in the order in which typing comes across them. -/
def trace (ignoreBounds : Bool) (schema : Json) : List (Pointer × Event) :=
  (events ignoreBounds schema).attach.flatMap fun event =>
    ([], event.1) ::
      match _ : event.1 with
      | .visit tokens part =>
        (trace ignoreBounds part).map fun later => (tokens ++ later.1, later.2)
      | _ => []
termination_by sizeOf schema
decreasing_by
  rename_i here
  exact sizeOf_hasPart_lt (hasPart_of_visit (here ▸ event.2))

def Event.later (ignoreBounds : Bool) : Event → List (Pointer × Event)
  | .visit tokens part => (trace ignoreBounds part).map fun later => (tokens ++ later.1, later.2)
  | _ => []

theorem trace_eq (ignoreBounds : Bool) (schema : Json) :
    trace ignoreBounds schema =
      (events ignoreBounds schema).flatMap fun event => ([], event) :: event.later ignoreBounds := by
  rw [trace, List.flatMap_subtype (g := fun event => ([], event) :: event.later ignoreBounds),
    List.unattach_attach]
  intro event inside
  cases event <;> rfl

section

variable {ignoreBounds : Bool}

theorem Visits.inside {members : List (String × Json)} {tokens place : Pointer} {part value : Json}
    (step : VisitsPart ignoreBounds members tokens part)
    (visits : Visits ignoreBounds part place value) :
    Visits ignoreBounds (.object members) (tokens ++ place) value := by
  induction visits with
  | root =>
    have visited := Visits.part .root step
    rwa [List.nil_append, ← List.append_nil tokens] at visited
  | part _ step' ih =>
    rw [← List.append_assoc]
    exact .part ih step'

theorem visits_cases {schema value : Json} {place : Pointer}
    (visits : Visits ignoreBounds schema place value) :
    (place = [] ∧ value = schema) ∨
      ∃ members tokens part later, schema = .object members ∧
        VisitsPart ignoreBounds members tokens part ∧ Visits ignoreBounds part later value ∧
        place = tokens ++ later := by
  induction visits with
  | root => exact Or.inl ⟨rfl, rfl⟩
  | @part place tokens members part parent step ih =>
    rcases ih with ⟨rfl, rfl⟩ | ⟨outer, first, middle, later, rfl, step', visits, rfl⟩
    · exact Or.inr ⟨members, tokens, part, [], rfl, step, .root, by simp⟩
    · exact Or.inr ⟨outer, first, middle, later ++ tokens, rfl, step', .part visits step,
        List.append_assoc first later tokens⟩

theorem hasNode_of_visits {schema value : Json} {place : Pointer} {members : List (String × Json)}
    (visits : Visits ignoreBounds schema place value) (node : HasNode value members) :
    HasNode schema members := by
  induction visits with
  | root => exact node
  | part _ step ih => exact ih (.deeper (hasPart_of_visitsPart step) node)

theorem mem_trace {schema : Json} {place : Pointer} {event : Event} :
    (place, event) ∈ trace ignoreBounds schema ↔
      ∃ value, Visits ignoreBounds schema place value ∧ event ∈ events ignoreBounds value := by
  induction schema using partInduction generalizing place with
  | step schema ih =>
    rw [trace_eq, List.mem_flatMap]
    constructor
    · rintro ⟨first, inside, listed⟩
      rcases List.mem_cons.mp listed with same | listed
      · cases same
        exact ⟨schema, .root, inside⟩
      · cases first with
        | visit tokens part =>
          obtain ⟨⟨later, other⟩, traced, same⟩ := List.mem_map.mp listed
          cases same
          obtain ⟨members, rfl, step⟩ := visit_mem_events.mp inside
          obtain ⟨value, visits, here⟩ := (ih part (hasPart_of_visitsPart step)).mp traced
          exact ⟨value, visits.inside step, here⟩
        | _ => cases listed
    · rintro ⟨value, visits, inside⟩
      rcases visits_cases visits with
        ⟨rfl, rfl⟩ | ⟨members, tokens, part, later, rfl, step, below, rfl⟩
      · exact ⟨event, inside, List.mem_cons_self⟩
      · have traced := (ih part (hasPart_of_visitsPart step)).mpr ⟨value, below, inside⟩
        refine ⟨.visit tokens part, visit_mem_events.mpr ⟨members, rfl, step⟩, ?_⟩
        exact List.mem_cons_of_mem _ (List.mem_map_of_mem traced)

def malformedAt? : Pointer × Event → Option Malformed
  | (place, .wrong fault) => some ⟨place ++ [fault.keyword], fault⟩
  | _ => none

def visitedAt? : Pointer × Event → Option (Pointer × Json)
  | (place, .visit tokens part) => some (place ++ tokens, part)
  | _ => none

def faultsInOrder (ignoreBounds : Bool) (schema : Json) : List Malformed :=
  (trace ignoreBounds schema).filterMap malformedAt?

/-- The values visited in a schema, in order: itself, and then each part before what is in the part. -/
def visitsInOrder (ignoreBounds : Bool) (schema : Json) : List (Pointer × Json) :=
  ([], schema) :: (trace ignoreBounds schema).filterMap visitedAt?

theorem visitsInOrder_eq_cons (schema : Json) :
    visitsInOrder ignoreBounds schema = ([], schema) :: (visitsInOrder ignoreBounds schema).tail :=
  rfl

theorem mem_faultsInOrder {schema : Json} {malformed : Malformed} :
    malformed ∈ faultsInOrder ignoreBounds schema ↔
      ∃ place members, Visits ignoreBounds schema place (.object members) ∧
        Faulty members malformed.fault ∧ malformed.pointer = place ++ [malformed.fault.keyword] := by
  rw [faultsInOrder, List.mem_filterMap]
  constructor
  · rintro ⟨⟨place, event⟩, traced, found⟩
    obtain ⟨value, visits, inside⟩ := mem_trace.mp traced
    cases event with
    | wrong fault =>
      cases found
      obtain ⟨members, rfl, faulty⟩ := wrong_mem_events.mp inside
      exact ⟨place, members, visits, faulty, rfl⟩
    | _ => cases found
  · rintro ⟨place, members, visits, faulty, same⟩
    obtain ⟨pointer, fault⟩ := malformed
    obtain rfl : pointer = place ++ [fault.keyword] := same
    refine ⟨(place, .wrong fault), mem_trace.mpr ⟨_, visits, ?_⟩, rfl⟩
    exact wrong_mem_events.mpr ⟨members, rfl, faulty⟩

theorem mem_visitsInOrder {schema value : Json} {place : Pointer} :
    (place, value) ∈ visitsInOrder ignoreBounds schema ↔ Visits ignoreBounds schema place value := by
  rw [visitsInOrder, List.mem_cons, List.mem_filterMap]
  constructor
  · rintro (same | ⟨⟨outer, event⟩, traced, found⟩)
    · cases same
      exact .root
    · obtain ⟨node, visits, inside⟩ := mem_trace.mp traced
      cases event with
      | visit tokens part =>
        cases found
        obtain ⟨members, rfl, step⟩ := visit_mem_events.mp inside
        exact .part visits step
      | _ => cases found
  · intro visits
    cases visits with
    | root => exact Or.inl rfl
    | @part outer tokens members _ parent step =>
      refine Or.inr ⟨(outer, .visit tokens value), mem_trace.mpr ⟨_, parent, ?_⟩, rfl⟩
      exact visit_mem_events.mpr ⟨members, rfl, step⟩

def Malformed.within (tokens : Pointer) (malformed : Malformed) : Malformed :=
  { malformed with pointer := tokens ++ malformed.pointer }

def Event.faults (ignoreBounds : Bool) : Event → List Malformed
  | .wrong fault => [⟨[fault.keyword], fault⟩]
  | .foreign => []
  | .visit tokens part => (faultsInOrder ignoreBounds part).map (Malformed.within tokens)

def Event.visits (ignoreBounds : Bool) : Event → List (Pointer × Json)
  | .visit tokens part =>
    (visitsInOrder ignoreBounds part).map fun visit => (tokens ++ visit.1, visit.2)
  | _ => []

theorem faultsInOrder_eq (schema : Json) :
    faultsInOrder ignoreBounds schema =
      (events ignoreBounds schema).flatMap (Event.faults ignoreBounds) := by
  rw [faultsInOrder, trace_eq, List.filterMap_flatMap]
  apply List.flatMap_congr
  intro event inside
  cases event with
  | visit tokens part =>
    have moved : malformedAt? ∘ (fun later : Pointer × Event => (tokens ++ later.1, later.2)) =
        fun later => (malformedAt? later).map (Malformed.within tokens) := by
      funext later
      obtain ⟨place, event⟩ := later
      cases event <;> simp [malformedAt?, Malformed.within]
    rw [List.filterMap_cons_none rfl, Event.later, List.filterMap_map, moved, Event.faults,
      faultsInOrder, List.map_filterMap]
  | _ => rfl

theorem visitsInOrder_eq (schema : Json) :
    visitsInOrder ignoreBounds schema =
      ([], schema) :: (events ignoreBounds schema).flatMap (Event.visits ignoreBounds) := by
  rw [visitsInOrder, trace_eq, List.filterMap_flatMap]
  apply congrArg (([], schema) :: ·)
  apply List.flatMap_congr
  intro event inside
  cases event with
  | visit tokens part =>
    have moved : visitedAt? ∘ (fun later : Pointer × Event => (tokens ++ later.1, later.2)) =
        fun later => (visitedAt? later).map fun visit => (tokens ++ visit.1, visit.2) := by
      funext later
      obtain ⟨place, event⟩ := later
      cases event <;> simp [visitedAt?]
    have here : visitedAt? ([], Event.visit tokens part) = some (tokens, part) := rfl
    rw [List.filterMap_cons_some here, Event.later, List.filterMap_map, moved, Event.visits,
      visitsInOrder, List.map_cons, List.map_filterMap, List.append_nil]
  | _ => rfl

end

end SchemaTypes
