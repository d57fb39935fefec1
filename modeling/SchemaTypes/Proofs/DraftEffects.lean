import SchemaTypes.Proofs.EventRules

namespace SchemaTypes

namespace Draft

section

variable {Content Other : Type}

def effect (draft : Draft Content) : Draft Unit :=
  (fun _ => ()) <$> draft

def inTurn : List (Draft Unit) → Draft Unit
  | [] => pure ()
  | draft :: drafts => draft >>= fun _ => inTurn drafts

theorem effect_map (make : Content → Other) (draft : Draft Content) :
    (make <$> draft).effect = draft.effect := by
  funext taken
  simp only [effect, Functor.map, change]
  cases (draft taken).outcome <;> rfl

/-- It is enough that the next draft does the same for every content that the first may yield. -/
theorem effect_bind_of_yields {draft : Draft Content} {next : Content → Draft Other}
    {later : Draft Unit}
    (same : ∀ taken content declared, draft.Yields taken content declared →
      (next content).effect = later) :
    (draft >>= next).effect = draft.effect >>= fun _ => later := by
  funext taken
  simp only [effect, Functor.map, change, bind, andThen]
  cases here : (draft taken).outcome with
  | error malformed => rfl
  | ok drawn =>
    obtain ⟨content, declared⟩ := drawn
    rw [← same taken content declared here]
    simp only [effect, Functor.map, change, Except.map]
    cases (next content (taken ++ declared.map Declaration.name)).outcome <;> rfl

theorem inTurn_append (drafts others : List (Draft Unit)) :
    inTurn (drafts ++ others) = inTurn drafts >>= fun _ => inTurn others := by
  induction drafts with
  | nil => rw [List.nil_append, inTurn, pure_bind]
  | cons draft drafts ih => rw [List.cons_append, inTurn, inTurn, ih, bind_assoc]

end

end Draft

open Draft

/-- What an event does: refuse, warn, or what the part it leads to does in its place. -/
def Event.draft (ignoreBounds : Bool) : Event → Draft Unit
  | .wrong fault => refuse fault
  | .foreign => warn
  | .visit tokens part =>
    ((place (Schema.ofJson part) ((Schema.ofJson part).body ignoreBounds)).within tokens).effect

def Draft.Does {Content : Type} (ignoreBounds : Bool) (draft : Draft Content) (events : List Event) :
    Prop :=
  draft.effect = inTurn (events.map (Event.draft ignoreBounds))

section

variable {Content Other : Type} {ignoreBounds : Bool} {members : List (String × Json)}

theorem does_pure (content : Content) : (pure content : Draft Content).Does ignoreBounds [] :=
  rfl

theorem does_one {draft : Draft Content} {event : Event}
    (same : draft.effect = event.draft ignoreBounds) : draft.Does ignoreBounds [event] := by
  have last : (event.draft ignoreBounds >>= fun _ => pure ()) = event.draft ignoreBounds := by
    funext taken
    simp only [bind, andThen, pure, done]
    cases here : (event.draft ignoreBounds taken).outcome <;> simp [Except.map, ← here]
  rw [Does, same, List.map_singleton, inTurn, inTurn, last]

theorem does_refuse (fault : Fault) :
    (refuse fault : Draft Content).Does ignoreBounds [.wrong fault] :=
  does_one rfl

theorem does_visit (tokens : Pointer) (part : Json) :
    ((place (Schema.ofJson part) ((Schema.ofJson part).body ignoreBounds)).within tokens).Does
      ignoreBounds [.visit tokens part] :=
  does_one rfl

theorem does_map {draft : Draft Content} {events : List Event} (make : Content → Other)
    (does : draft.Does ignoreBounds events) : (make <$> draft).Does ignoreBounds events := by
  rw [Does, effect_map]
  exact does

theorem does_bind_of_yields {draft : Draft Content} {next : Content → Draft Other}
    {events later : List Event} (does : draft.Does ignoreBounds events)
    (does' : ∀ taken content declared, draft.Yields taken content declared →
      (next content).Does ignoreBounds later) :
    (draft >>= next).Does ignoreBounds (events ++ later) := by
  rw [Does, effect_bind_of_yields does', does, List.map_append, inTurn_append]

theorem does_bind {draft : Draft Content} {next : Content → Draft Other} {events later : List Event}
    (does : draft.Does ignoreBounds events)
    (does' : ∀ content, (next content).Does ignoreBounds later) :
    (draft >>= next).Does ignoreBounds (events ++ later) :=
  does_bind_of_yields does fun _ content _ _ => does' content

theorem does_each {Source : Type} {draft : Source → Draft Content} {events : Source → List Event}
    {sources : List Source}
    (does : ∀ source ∈ sources, (draft source).Does ignoreBounds (events source)) :
    (each draft sources).Does ignoreBounds (sources.flatMap events) := by
  induction sources with
  | nil => exact does_pure []
  | cons source sources ih =>
    have first := does source List.mem_cons_self
    have others := ih fun other inside => does other (List.mem_cons_of_mem source inside)
    exact does_bind first fun content => does_map _ others

theorem does_elements (key : String) (elements : List Json) :
    ((eachDraft ignoreBounds 0 (elements.map Schema.ofJson)).within [key]).Does ignoreBounds
      (elementEvents key elements) := by
  rw [eachDraft_eq_each, within_each, List.zipIdx_map, each_map, elementEvents, List.map_eq_flatMap]
  apply does_each
  intro entry _
  rw [within_within]
  exact does_visit [key, Nat.repr entry.2] entry.1

theorem doesRules : EventRules ignoreBounds members
    fun _ _ draft events => draft.Does ignoreBounds events where
  done _ := does_pure _
  refused := does_refuse
  change does _ := does_map _ does
  next := does_bind_of_yields
  visit part _ := does_visit _ part
  item part := does_bind (does_visit ["items"] part) fun _ => does_pure _
  elements := does_elements

/-- Typing a schema does what the events of the schema do in turn. -/
theorem does_body (schema : Json) :
    ((Schema.ofJson schema).body ignoreBounds).Does ignoreBounds (events ignoreBounds schema) := by
  cases schema with
  | boolean admits => cases admits <;> exact does_pure _
  | object members => exact doesRules.body
  | _ => exact does_bind (does_one rfl) fun _ => does_pure _

end

end SchemaTypes
