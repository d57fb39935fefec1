import Mathlib.Data.List.Nodup
import SchemaTypes.Proofs.Visits

namespace SchemaTypes

/-- Neither pointer leads through the place of the other. -/
def Pointer.Apart (pointer other : Pointer) : Prop :=
  ¬pointer <+: other ∧ ¬other <+: pointer

def Event.Apart (event other : Event) : Prop :=
  ∀ tokens part tokens' part', event = .visit tokens part → other = .visit tokens' part' →
    Pointer.Apart tokens tokens'

/-- The visits among the events begin with one of the keys, and their places are apart. -/
structure Spread (keys : List String) (events : List Event) : Prop where
  apart : events.Pairwise Event.Apart
  under : ∀ tokens part, .visit tokens part ∈ events → ∃ key ∈ keys, [key] <+: tokens

theorem spread_nil (keys : List String) : Spread keys [] where
  apart := List.Pairwise.nil
  under tokens part inside := by cases inside

theorem spread_wrong (keys : List String) (fault : Fault) : Spread keys [.wrong fault] where
  apart := List.pairwise_singleton _ _
  under tokens part inside := by simp at inside

theorem spread_visit (key : String) (part : Json) : Spread [key] [.visit [key] part] where
  apart := List.pairwise_singleton _ _
  under tokens part inside := by
    obtain ⟨rfl, rfl⟩ : tokens = [key] ∧ part = _ := by simpa using inside
    exact ⟨key, List.mem_singleton_self key, List.prefix_refl [key]⟩

theorem apart_of_keys {key other : String} {pointer pointer' : Pointer} (differ : key ≠ other)
    (first : [key] <+: pointer) (first' : [other] <+: pointer') : Pointer.Apart pointer pointer' := by
  have clash : ∀ whole : Pointer, [key] <+: whole → [other] <+: whole → False := by
    rintro whole ⟨rest, rfl⟩ ⟨rest', same⟩
    exact differ (List.head_eq_of_cons_eq same).symm
  exact ⟨fun within => clash pointer' (first.trans within) first',
    fun within => clash pointer first (first'.trans within)⟩

theorem spread_append {keys keys' : List String} {events others : List Event}
    (spread : Spread keys events) (spread' : Spread keys' others)
    (disjoint : ∀ key ∈ keys, key ∉ keys') :
    Spread (keys ++ keys') (events ++ others) where
  apart := by
    rw [List.pairwise_append]
    refine ⟨spread.apart, spread'.apart, ?_⟩
    rintro event inside other inside' tokens part tokens' part' rfl rfl
    obtain ⟨key, known, first⟩ := spread.under tokens part inside
    obtain ⟨key', known', first'⟩ := spread'.under tokens' part' inside'
    apply apart_of_keys _ first first'
    rintro rfl
    exact disjoint key known known'
  under tokens part inside := by
    rcases List.mem_append.mp inside with here | later
    · obtain ⟨key, known, first⟩ := spread.under tokens part here
      exact ⟨key, List.mem_append_left keys' known, first⟩
    · obtain ⟨key, known, first⟩ := spread'.under tokens part later
      exact ⟨key, List.mem_append_right keys known, first⟩

theorem spread_flatMap {Source : Type} {keys : Source → List String} {events : Source → List Event}
    {sources : List Source} (spread : ∀ source, Spread (keys source) (events source))
    (disjoint : sources.Pairwise fun source other => ∀ key ∈ keys source, key ∉ keys other) :
    Spread (sources.flatMap keys) (sources.flatMap events) := by
  induction sources with
  | nil => exact spread_nil []
  | cons source sources ih =>
    rw [List.pairwise_cons] at disjoint
    refine spread_append (spread source) (ih disjoint.2) ?_
    intro key here later
    obtain ⟨other, inside, there⟩ := List.mem_flatMap.mp later
    exact disjoint.1 other inside key here there

theorem spread_named {Source : Type} (key : String) (token : Source → String) (part : Source → Json)
    {sources : List Source} (distinct : (sources.map token).Nodup) :
    Spread [key] (sources.map fun source => .visit [key, token source] (part source)) where
  apart := by
    rw [List.pairwise_map]
    refine (List.pairwise_map.mp distinct).imp ?_
    rintro source other differ tokens _ tokens' _ same same'
    cases same
    cases same'
    simp [Pointer.Apart, differ, Ne.symm differ]
  under tokens value inside := by
    obtain ⟨source, _, same⟩ := List.mem_map.mp inside
    cases same
    exact ⟨key, List.mem_singleton_self key, [token source], rfl⟩

section

variable {members : List (String × Json)} {ignoreBounds : Bool}

theorem spread_keyword {fault : Fault} {read : Json → Option (List Event)} {keys : List String}
    (spread : ∀ value events, members.lookup fault.keyword = some value →
      read value = some events → Spread keys events) :
    Spread keys (keywordEvents fault read members) := by
  unfold keywordEvents
  cases found : members.lookup fault.keyword with
  | none => exact spread_nil keys
  | some value =>
    cases here : read value with
    | none => simpa [here] using spread_wrong keys fault
    | some events => simpa [here] using spread value events found here

theorem repr_injective : Function.Injective Nat.repr := by
  intro number other same
  have index := elementIndex?_repr number
  rw [same, elementIndex?_repr other] at index
  exact (Option.some.inj index).symm

theorem spread_elements (key : String) (elements : List Json) :
    Spread [key] (elementEvents key elements) := by
  have positions : (elements.zipIdx.map fun entry => Nat.repr entry.2).Nodup := by
    have numbered := List.Nodup.map repr_injective (List.nodup_range' (s := 0) (n := elements.length))
    rwa [← List.zipIdx_map_snd 0 elements, List.map_map] at numbered
  exact spread_named key (fun entry => Nat.repr entry.2) Prod.fst positions

theorem spread_arms (fault : Fault) : Spread [fault.keyword] (armEvents fault members) := by
  apply spread_keyword
  intro value events found read
  obtain ⟨arms, _, rfl⟩ := Option.map_eq_some_iff.mp read
  exact spread_elements fault.keyword arms

theorem spread_type : Spread [] (typeEvents members) := by
  apply spread_keyword
  intro value events found read
  obtain ⟨names, _, rfl⟩ := Option.map_eq_some_iff.mp read
  exact spread_nil []

theorem spread_required : Spread [] (requiredEvents members) := by
  apply spread_keyword
  intro value events found read
  obtain ⟨names, _, rfl⟩ := Option.map_eq_some_iff.mp read
  split
  · exact spread_nil []
  · exact spread_wrong [] .requiredNotNames

def NamesPropertiesOnce (members : List (String × Json)) : Prop :=
  ∀ table, members.lookup "properties" = some (.object table) → (table.map (·.1)).Nodup

theorem spread_properties (distinct : NamesPropertiesOnce members) :
    Spread ["properties"] (propertyEvents members) := by
  apply spread_keyword
  intro value events found read
  obtain ⟨table, named, rfl⟩ := Option.map_eq_some_iff.mp read
  obtain rfl := members?_eq_some.mp named
  exact spread_named "properties" Prod.fst Prod.snd (distinct table found)

theorem spread_additional : Spread ["additionalProperties"] (additionalEvents members) := by
  apply spread_keyword
  intro value events found read
  cases value with
  | boolean admits =>
    cases read
    exact spread_nil _
  | object inner =>
    cases read
    exact spread_visit "additionalProperties" (.object inner)
  | _ => cases read

theorem spread_object (distinct : NamesPropertiesOnce members) :
    Spread ["properties", "additionalProperties"] (objectEvents members) := by
  have required : Spread [] (requiredEvents members) := spread_required
  have named := spread_append required (spread_properties distinct) (by decide)
  exact spread_append named spread_additional (by decide)

theorem spread_rest (count : Nat) :
    Spread ["additionalItems"] (restEvents ignoreBounds members count) := by
  unfold restEvents
  split
  · rename_i inner _
    split
    · exact spread_nil _
    · exact spread_visit "additionalItems" (.object inner)
  · exact spread_nil _

theorem Spread.mono {keys more : List String} {events : List Event} (spread : Spread keys events)
    (known : keys ⊆ more) : Spread more events where
  apart := spread.apart
  under tokens part inside := by
    obtain ⟨key, here, first⟩ := spread.under tokens part inside
    exact ⟨key, known here, first⟩

theorem spread_items : Spread ["items", "additionalItems"] (itemEvents ignoreBounds members) := by
  apply spread_keyword
  intro value events found read
  have single := fun part => (spread_visit "items" part).mono
    (List.subset_append_left ["items"] ["additionalItems"])
  cases value with
  | array parts =>
    cases read
    exact spread_append (spread_elements "items" parts) (spread_rest parts.length) (by decide)
  | boolean admits =>
    cases read
    exact single (.boolean admits)
  | object inner =>
    cases read
    exact single (.object inner)
  | _ => cases read

def kindKeys (name : String) : List String :=
  if name = "object" then ["properties", "additionalProperties"]
  else if name = "array" then ["items", "additionalItems"]
  else []

theorem kindKeys_disjoint {name other : String} (differ : name ≠ other) :
    ∀ key ∈ kindKeys name, key ∉ kindKeys other := by
  unfold kindKeys
  grind

theorem spread_kinds (distinct : NamesPropertiesOnce members)
    (once : (effectiveNames members).Nodup) :
    Spread ((effectiveNames members).flatMap kindKeys)
      ((effectiveNames members).flatMap (kindEvents ignoreBounds members)) := by
  apply spread_flatMap
  · intro name
    unfold kindKeys kindEvents
    split
    · exact spread_object distinct
    · split
      · exact spread_items
      · exact spread_nil []
  · exact once.imp kindKeys_disjoint

theorem kindKeys_not_combining (name : String) : ∀ key ∈ combiningKeys, key ∉ kindKeys name := by
  unfold kindKeys
  split
  · decide
  · split
    · decide
    · decide

theorem spread_open (distinct : NamesPropertiesOnce members)
    (once : (effectiveNames members).Nodup) :
    Spread (combiningKeys ++ (effectiveNames members).flatMap kindKeys)
      (openEvents ignoreBounds members) := by
  have all : Spread ["allOf"] (armEvents .allOfNotArray members) := spread_arms .allOfNotArray
  have any : Spread ["anyOf"] (armEvents .anyOfNotArray members) := spread_arms .anyOfNotArray
  have one : Spread ["oneOf"] (armEvents .oneOfNotArray members) := spread_arms .oneOfNotArray
  have arms := spread_append (spread_append all any (by decide)) one (by decide)
  refine spread_append (spread_append arms spread_type (by simp)) (spread_kinds distinct once) ?_
  intro key combining inside
  obtain ⟨name, _, there⟩ := List.mem_flatMap.mp inside
  exact kindKeys_not_combining name key combining there

end

def NamesKindsOnce (schema : Json) : Prop :=
  ∀ members, HasNode schema members → ∀ names, members.lookup "type" = some (.array names) →
    (names.filterMap Json.string?).Nodup

theorem NamesKindsOnce.part {schema part : Json} (once : NamesKindsOnce schema)
    (step : HasPart schema part) : NamesKindsOnce part :=
  fun members node => once members (.deeper step node)

theorem effectiveNames_nodup {members : List (String × Json)}
    (once : NamesKindsOnce (.object members)) : (effectiveNames members).Nodup := by
  unfold effectiveNames
  cases found : members.lookup "type" with
  | none =>
    simp only
    split
    · exact List.nodup_singleton "object"
    · split
      · exact List.nodup_singleton "array"
      · exact List.nodup_nil
  | some value =>
    cases value with
    | string name => exact List.nodup_singleton name
    | array names => exact once members .here names found
    | _ => exact List.nodup_nil

theorem spread_events (ignoreBounds : Bool) {schema : Json} (distinct : schema.hasDistinctKeys = true)
    (once : NamesKindsOnce schema) : ∃ keys, Spread keys (events ignoreBounds schema) := by
  have foreign : Spread [] [Event.foreign] :=
    ⟨List.pairwise_singleton _ _, fun tokens part inside => by simp at inside⟩
  cases schema with
  | object members =>
    have tables : NamesPropertiesOnce members := fun table found => Json.table_nodup distinct found
    have values : Spread [] (enumEvents members) := by
      apply spread_keyword
      intro value events found read
      obtain ⟨elements, _, rfl⟩ := Option.map_eq_some_iff.mp read
      exact spread_nil []
    rw [events]
    unfold nodeEvents
    split
    · exact ⟨[], spread_nil []⟩
    · split
      · exact ⟨[], values⟩
      · split
        · exact ⟨[], spread_nil []⟩
        · exact ⟨_, spread_open tables (effectiveNames_nodup once)⟩
  | boolean admits => exact ⟨[], spread_nil []⟩
  | _ => exact ⟨[], foreign⟩

variable {ignoreBounds : Bool}

/-- The later place is neither this place nor one around it. -/
def StandsBefore (visit later : Pointer × Json) : Prop :=
  ¬later.1 <+: visit.1

theorem standsBefore_of_apart {tokens tokens' : Pointer} (apart : Pointer.Apart tokens tokens')
    (visit later : Pointer × Json) :
    StandsBefore (tokens ++ visit.1, visit.2) (tokens' ++ later.1, later.2) := by
  intro leads
  have outer : tokens' <+: tokens ++ visit.1 := (List.prefix_append tokens' later.1).trans leads
  rcases List.prefix_or_prefix_of_prefix outer (List.prefix_append tokens visit.1) with within | within
  · exact apart.2 within
  · exact apart.1 within

theorem mem_visits {event : Event} {visit : Pointer × Json} :
    visit ∈ event.visits ignoreBounds ↔
      ∃ tokens part inner, event = .visit tokens part ∧ inner ∈ visitsInOrder ignoreBounds part ∧
        visit = (tokens ++ inner.1, inner.2) := by
  cases event <;> simp [Event.visits, eq_comm]

/-- Visits go from a place to places inside it, and never back to a place that was passed. -/
theorem visits_ordered (ignoreBounds : Bool) {schema : Json}
    (distinct : schema.hasDistinctKeys = true) (once : NamesKindsOnce schema) :
    (visitsInOrder ignoreBounds schema).Pairwise StandsBefore := by
  induction schema using partInduction with
  | step schema ih =>
    obtain ⟨keys, spread⟩ := spread_events ignoreBounds distinct once
    rw [visitsInOrder_eq, List.pairwise_cons, List.pairwise_flatMap]
    refine ⟨?_, ?_, ?_⟩
    · intro visit below leads
      obtain ⟨event, inside, there⟩ := List.mem_flatMap.mp below
      obtain ⟨tokens, part, inner, rfl, _, rfl⟩ := mem_visits.mp there
      obtain ⟨key, _, first⟩ := spread.under tokens part inside
      have longer := (first.trans (List.prefix_append tokens inner.1)).trans leads
      simp at longer
    · intro event inside
      cases event with
      | visit tokens part =>
        have step := hasPart_of_visit inside
        have below := ih part step (Json.everyObject_of_part distinct step) (once.part step)
        rw [Event.visits, List.pairwise_map]
        exact below.imp fun before leads => before ((List.prefix_append_right_inj tokens).mp leads)
      | _ => exact List.Pairwise.nil
    · apply spread.apart.imp
      intro event other apart visit here later there
      obtain ⟨tokens, part, inner, rfl, _, rfl⟩ := mem_visits.mp here
      obtain ⟨tokens', part', inner', rfl, _, rfl⟩ := mem_visits.mp there
      exact standsBefore_of_apart (apart tokens part tokens' part' rfl rfl) inner inner'

end SchemaTypes
