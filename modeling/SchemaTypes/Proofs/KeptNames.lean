import SchemaTypes.Proofs.EventRules
import SchemaTypes.Proofs.VisitOrder

/-!
Which names the type of a node mentions: those of the types of its visited parts, but for elements that
the bounds of an array leave no room for. Parts are placed in turn, and what follows is said of each way
in which a draft is put together from drafts of parts.
-/

namespace SchemaTypes

open Draft TypeExpr

/-- The bounds of an array leave no room for the element at these tokens. -/
inductive CutsOff (ignoreBounds : Bool) (members : List (String × Json)) : Pointer → Prop
  | empty (most : mostItems ignoreBounds members = some 0)
      (least : leastItems ignoreBounds members = 0) : CutsOff ignoreBounds members ["items"]
  | beyond {position most : Nat} (bounded : mostItems ignoreBounds members = some most)
      (beyond : most ≤ position) : CutsOff ignoreBounds members ["items", Nat.repr position]

/-- The parts that events lead to, placed in turn: where each stands, its type, and what all declare. -/
inductive PlacesEach (ignoreBounds : Bool) :
    List String → List Event → List (Pointer × TypeExpr) → List Declaration → Prop
  | nil {taken : List String} : PlacesEach ignoreBounds taken [] [] []
  | foreign {taken : List String} {events : List Event} {placed : List (Pointer × TypeExpr)}
      {declared : List Declaration} (later : PlacesEach ignoreBounds taken events placed declared) :
      PlacesEach ignoreBounds taken (.foreign :: events) placed declared
  | visit {taken : List String} {tokens : Pointer} {part : Json} {type : TypeExpr}
      {events : List Event} {placed : List (Pointer × TypeExpr)} {first declared : List Declaration}
      (here : (place (Schema.ofJson part) ((Schema.ofJson part).body ignoreBounds)).Yields taken type
        first)
      (later : PlacesEach ignoreBounds (taken ++ first.map Declaration.name) events placed declared) :
      PlacesEach ignoreBounds taken (.visit tokens part :: events) ((tokens, type) :: placed)
        (first ++ declared)

def KeptIn (cut : Pointer → Prop) (placed : List (Pointer × TypeExpr)) (name : String) : Prop :=
  ∃ part ∈ placed, ¬cut part.1 ∧ name ∈ part.2.references

/-- The draft places the parts of the events, and mentions what is known and what the kept parts do. -/
def Draft.Mentions {Content : Type} (ignoreBounds : Bool) (cut : Pointer → Prop) (known : List String)
    (mentioned : Content → List String) (draft : Draft Content) (events : List Event) : Prop :=
  ∀ ⦃taken : List String⦄ ⦃content : Content⦄ ⦃declared : List Declaration⦄,
    draft.Yields taken content declared →
      ∃ placed, PlacesEach ignoreBounds taken events placed declared ∧
        ∀ name, name ∈ mentioned content ↔ name ∈ known ∨ KeptIn cut placed name

section

variable {Content Other : Type} {ignoreBounds : Bool} {cut : Pointer → Prop} {known : List String}
  {mentioned : Content → List String} {mentioned' : Other → List String} {name : String}
  {members : List (String × Json)}

theorem keptIn_nil : ¬KeptIn cut [] name := by
  rintro ⟨part, inside, _⟩
  cases inside

theorem keptIn_cons {part : Pointer × TypeExpr} {placed : List (Pointer × TypeExpr)} :
    KeptIn cut (part :: placed) name ↔
      (¬cut part.1 ∧ name ∈ part.2.references) ∨ KeptIn cut placed name := by
  simp [KeptIn]

theorem keptIn_append {placed others : List (Pointer × TypeExpr)} :
    KeptIn cut (placed ++ others) name ↔ KeptIn cut placed name ∨ KeptIn cut others name := by
  simp [KeptIn, or_and_right, exists_or]

theorem PlacesEach.append {taken : List String} {events later : List Event}
    {placed others : List (Pointer × TypeExpr)} {declared declared' : List Declaration}
    (places : PlacesEach ignoreBounds taken events placed declared)
    (places' : PlacesEach ignoreBounds (taken ++ declared.map Declaration.name) later others declared') :
    PlacesEach ignoreBounds taken (events ++ later) (placed ++ others) (declared ++ declared') := by
  induction places with
  | nil => simpa using places'
  | foreign _ ih => exact .foreign (ih places')
  | visit here _ ih =>
    rw [List.append_assoc]
    exact .visit here (ih (by simpa using places'))

theorem mentions_pure {content : Content} (same : ∀ name, name ∈ mentioned content ↔ name ∈ known) :
    (pure content : Draft Content).Mentions ignoreBounds cut known mentioned [] := by
  intro taken result declared drawn
  obtain ⟨rfl, rfl⟩ := yields_pure.mp drawn
  exact ⟨[], .nil, fun name => by simp [same, keptIn_nil]⟩

theorem mentions_refuse {fault : Fault} {events : List Event} :
    (refuse fault : Draft Content).Mentions ignoreBounds cut known mentioned events :=
  fun _ _ _ drawn => absurd drawn not_yields_refuse

theorem placesEach_visit {taken : List String} {tokens : Pointer} {part : Json} {type : TypeExpr}
    {declared : List Declaration}
    (drawn : (place (Schema.ofJson part) ((Schema.ofJson part).body ignoreBounds)).Yields taken type
      declared) : PlacesEach ignoreBounds taken [.visit tokens part] [(tokens, type)] declared := by
  rw [← List.append_nil declared]
  exact .visit drawn .nil

theorem mentions_visit {tokens : Pointer} (part : Json) (kept : ¬cut tokens) :
    ((place (Schema.ofJson part) ((Schema.ofJson part).body ignoreBounds)).within tokens).Mentions
      ignoreBounds cut [] references [.visit tokens part] := by
  intro taken type declared drawn
  refine ⟨_, placesEach_visit (yields_within.mp drawn), fun name => ?_⟩
  simp [keptIn_cons, keptIn_nil, kept]

theorem mentions_map {make : Content → Other} {draft : Draft Content} {events : List Event}
    (mentions : draft.Mentions ignoreBounds cut [] mentioned events)
    (same : ∀ content name,
      name ∈ mentioned' (make content) ↔ name ∈ known ∨ name ∈ mentioned content) :
    (make <$> draft).Mentions ignoreBounds cut known mentioned' events := by
  intro taken result declared drawn
  obtain ⟨content, inner, rfl⟩ := yields_map.mp drawn
  obtain ⟨placed, places, told⟩ := mentions inner
  exact ⟨placed, places, fun name => by simp [same, told]⟩

theorem mentions_bind_of_yields {draft : Draft Content} {next : Content → Draft Other}
    {events later : List Event} (mentions : draft.Mentions ignoreBounds cut [] mentioned events)
    (mentions' : ∀ taken content declared, draft.Yields taken content declared →
      (next content).Mentions ignoreBounds cut (known ++ mentioned content) mentioned' later) :
    (draft >>= next).Mentions ignoreBounds cut known mentioned' (events ++ later) := by
  intro taken result declared drawn
  obtain ⟨content, first, second, here, there, rfl⟩ := yields_bind.mp drawn
  obtain ⟨placed, places, told⟩ := mentions here
  obtain ⟨others, places', told'⟩ := mentions' taken content first here there
  refine ⟨placed ++ others, places.append places', fun name => ?_⟩
  simp [told', told, keptIn_append, or_assoc]

theorem placesEach_elements {key : String} {elements : List Json} {index : Nat} {taken : List String}
    {types : List TypeExpr} {declared : List Declaration}
    (drawn : (eachDraft ignoreBounds index (elements.map Schema.ofJson)).Yields taken types declared) :
    PlacesEach ignoreBounds taken
      ((elements.zipIdx index).map fun entry => .visit [key, Nat.repr entry.2] entry.1)
      ((types.zipIdx index).map fun entry => ([key, Nat.repr entry.2], entry.1)) declared := by
  induction elements generalizing index taken types declared with
  | nil =>
    obtain ⟨rfl, rfl⟩ := yields_pure.mp drawn
    exact .nil
  | cons element elements ih =>
    obtain ⟨type, first, second, here, later, rfl⟩ := yields_bind.mp drawn
    obtain ⟨others, rest, rfl⟩ := yields_map.mp later
    exact .visit (yields_within.mp here) (ih rest)

theorem mem_noMoreThan {most : Option Nat} {types : List TypeExpr} {type : TypeExpr} :
    type ∈ noMoreThan most types ↔
      ∃ position, types[position]? = some type ∧ ∀ limit, most = some limit → position < limit := by
  cases most with
  | none => simp [noMoreThan, List.mem_iff_getElem?]
  | some most =>
    rw [noMoreThan, List.mem_iff_getElem?]
    apply exists_congr
    intro position
    rw [List.getElem?_take]
    split
    · rename_i within
      simp [within]
    · rename_i beyond
      simp [beyond]

theorem mentions_elements {key : String} (most : Option Nat) (elements : List Json)
    (cuts : ∀ position, ¬cut [key, Nat.repr position] ↔ ∀ limit, most = some limit → position < limit) :
    ((eachDraft ignoreBounds 0 (elements.map Schema.ofJson)).within [key]).Mentions ignoreBounds cut []
      (fun types => (noMoreThan most types).flatMap references) (elementEvents key elements) := by
  intro taken types declared drawn
  refine ⟨_, placesEach_elements (yields_within.mp drawn), fun name => ?_⟩
  simp only [KeptIn, List.mem_flatMap, mem_noMoreThan, List.mem_map, Prod.exists,
    List.mk_mem_zipIdx_iff_getElem?, List.not_mem_nil, false_or]
  constructor
  · rintro ⟨type, ⟨position, here, within⟩, mentioned⟩
    exact ⟨_, _, ⟨type, position, here, rfl⟩, (cuts position).mpr within, mentioned⟩
  · rintro ⟨tokens, type, ⟨other, position, here, same⟩, kept, mentioned⟩
    obtain ⟨rfl, rfl⟩ := Prod.mk.inj same
    exact ⟨other, ⟨position, here, (cuts position).mp kept⟩, mentioned⟩

theorem cutsOff_items : CutsOff ignoreBounds members ["items"] ↔
    mostItems ignoreBounds members = some 0 ∧ leastItems ignoreBounds members = 0 := by
  constructor
  · intro cut
    cases cut with
    | empty most least => exact ⟨most, least⟩
  · rintro ⟨most, least⟩
    exact .empty most least

theorem cutsOff_positional {position : Nat} :
    CutsOff ignoreBounds members ["items", Nat.repr position] ↔
      ∃ most, mostItems ignoreBounds members = some most ∧ most ≤ position := by
  constructor
  · intro cut
    generalize same : Nat.repr position = token at cut
    cases cut with
    | beyond bounded beyond =>
      rw [repr_injective same]
      exact ⟨_, bounded, beyond⟩
  · rintro ⟨most, bounded, beyond⟩
    exact .beyond bounded beyond

theorem cutsOff_head {token : String} {tokens : Pointer}
    (cut : CutsOff ignoreBounds members (token :: tokens)) : token = "items" := by
  cases cut <;> rfl

theorem mentions_item (part : Json) :
    (do
      let item ←
        (place (Schema.ofJson part) ((Schema.ofJson part).body ignoreBounds)).within ["items"]
      pure (boundedList item (leastItems ignoreBounds members)
        (mostItems ignoreBounds members))).Mentions ignoreBounds (CutsOff ignoreBounds members) []
          references [.visit ["items"] part] := by
  intro taken type declared drawn
  obtain ⟨item, first, second, here, last, rfl⟩ := yields_bind.mp drawn
  obtain ⟨rfl, rfl⟩ := yields_pure.mp last
  rw [List.append_nil]
  refine ⟨_, placesEach_visit (yields_within.mp here), fun name => ?_⟩
  rw [references_boundedList, keptIn_cons, cutsOff_items]
  simp [keptIn_nil]

theorem not_cutsOff_iff {key : String} {position : Nat} :
    ¬CutsOff ignoreBounds members [key, Nat.repr position] ↔
      ∀ limit, mostUnder ignoreBounds members key = some limit → position < limit := by
  rw [mostUnder]
  split
  · rename_i same
    subst same
    simp only [cutsOff_positional, not_exists, not_and, Nat.not_le]
  · rename_i other
    exact iff_of_true (fun cut => other (cutsOff_head cut)) (by simp)

theorem mentionsRules : EventRules ignoreBounds members fun known mentioned draft events =>
    draft.Mentions ignoreBounds (CutsOff ignoreBounds members) known mentioned events where
  done := mentions_pure
  refused _ := mentions_refuse
  change := mentions_map
  next := mentions_bind_of_yields
  visit part other := mentions_visit part fun cut => other (cutsOff_head cut)
  item := mentions_item
  elements _ elements := mentions_elements _ elements fun _ => not_cutsOff_iff

/-- The type of a schema mentions what the types of its parts do, but for those that are cut. -/
theorem mentions_body (members : List (String × Json)) :
    ((Schema.ofJson (.object members)).body ignoreBounds).Mentions ignoreBounds
      (CutsOff ignoreBounds members) [] references (nodeEvents ignoreBounds members) :=
  mentionsRules.body

end

end SchemaTypes
