import Mathlib.Data.List.Forall2
import SchemaTypes.Schema.Typing

namespace SchemaTypes.Draft

variable {Content Other : Type}

/-- Under the taken names the draft succeeds with this content and these declarations of its own. -/
def Yields (draft : Draft Content) (taken : List String) (content : Content)
    (declared : List Declaration) : Prop :=
  (draft taken).outcome = .ok (content, declared)

variable {taken : List String} {declared : List Declaration}

theorem yields_pure {content result : Content} :
    (pure content : Draft Content).Yields taken result declared ↔
      result = content ∧ declared = [] := by
  simp only [Yields, pure, done, Except.ok.injEq, Prod.mk.injEq]
  constructor
  · rintro ⟨rfl, rfl⟩
    exact ⟨rfl, rfl⟩
  · rintro ⟨rfl, rfl⟩
    exact ⟨rfl, rfl⟩

theorem yields_map {make : Content → Other} {draft : Draft Content} {result : Other} :
    (make <$> draft).Yields taken result declared ↔
      ∃ content, draft.Yields taken content declared ∧ result = make content := by
  simp only [Yields, Functor.map, change]
  cases (draft taken).outcome with
  | error malformed => simp [Except.map]
  | ok drawn =>
    obtain ⟨content, inner⟩ := drawn
    simp only [Except.map, Except.ok.injEq, Prod.mk.injEq]
    constructor
    · rintro ⟨rfl, rfl⟩
      exact ⟨content, ⟨rfl, rfl⟩, rfl⟩
    · rintro ⟨_, ⟨rfl, rfl⟩, rfl⟩
      exact ⟨rfl, rfl⟩

theorem yields_bind {draft : Draft Content} {next : Content → Draft Other} {result : Other} :
    (draft >>= next).Yields taken result declared ↔
      ∃ content first second, draft.Yields taken content first ∧
        (next content).Yields (taken ++ first.map Declaration.name) result second ∧
        declared = first ++ second := by
  simp only [Yields, bind, andThen]
  cases (draft taken).outcome with
  | error malformed => simp
  | ok drawn =>
    obtain ⟨content, first⟩ := drawn
    cases here : (next content (taken ++ first.map Declaration.name)).outcome with
    | error malformed =>
      constructor
      · intro drawn
        simp [here, Except.map] at drawn
      · rintro ⟨_, _, _, same, drawn, _⟩
        cases same
        rw [here] at drawn
        cases drawn
    | ok drawn =>
      obtain ⟨result', second⟩ := drawn
      simp only [here, Except.map, Except.ok.injEq, Prod.mk.injEq]
      constructor
      · rintro ⟨rfl, rfl⟩
        exact ⟨content, first, second, ⟨rfl, rfl⟩, here, rfl⟩
      · rintro ⟨_, _, _, ⟨rfl, rfl⟩, drawn, rfl⟩
        rw [here] at drawn
        cases drawn
        exact ⟨rfl, rfl⟩

theorem yields_within {tokens : Pointer} {draft : Draft Content} {content : Content} :
    (draft.within tokens).Yields taken content declared ↔ draft.Yields taken content declared := by
  simp only [Yields, within]
  cases (draft taken).outcome <;> simp [Except.mapError]

theorem not_yields_refuse {fault : Fault} {content : Content} :
    ¬(refuse fault : Draft Content).Yields taken content declared := by
  simp [Yields, refuse]

theorem yields_warn {content : Unit} : warn.Yields taken content declared ↔ declared = [] := by
  simp [Yields, warn, eq_comm]

theorem yields_ofKeyword {default content : Content} {keyword : Keyword Content}
    (drawn : (ofKeyword default keyword).Yields taken content declared) :
    declared = [] ∧ (keyword = .absent ∧ content = default ∨ keyword = .given content) := by
  cases keyword with
  | absent =>
    obtain ⟨rfl, rfl⟩ := yields_pure.mp drawn
    exact ⟨rfl, Or.inl ⟨rfl, rfl⟩⟩
  | malformed fault => exact absurd drawn not_yields_refuse
  | given content =>
    obtain ⟨rfl, rfl⟩ := yields_pure.mp drawn
    exact ⟨rfl, Or.inr rfl⟩

/-- Somewhere in a larger draft, this draft succeeded with the content. -/
def Contributes (draft : Draft Content) (content : Content) (declared : List Declaration) : Prop :=
  ∃ taken inner, draft.Yields taken content inner ∧ inner ⊆ declared

theorem Yields.contributes {draft : Draft Content} {content : Content}
    (drawn : draft.Yields taken content declared) : draft.Contributes content declared :=
  ⟨taken, declared, drawn, List.Subset.refl declared⟩

theorem Contributes.mono {draft : Draft Content} {content : Content} {more : List Declaration}
    (drawn : draft.Contributes content declared) (within : declared ⊆ more) :
    draft.Contributes content more := by
  obtain ⟨taken, inner, yields, inside⟩ := drawn
  exact ⟨taken, inner, yields, List.Subset.trans inside within⟩

theorem contributes_map {make : Content → Other} {draft : Draft Content} {result : Other}
    (drawn : (make <$> draft).Contributes result declared) :
    ∃ content, draft.Contributes content declared ∧ result = make content := by
  obtain ⟨taken, inner, yields, inside⟩ := drawn
  obtain ⟨content, yields, same⟩ := yields_map.mp yields
  exact ⟨content, ⟨taken, inner, yields, inside⟩, same⟩

theorem contributes_bind {draft : Draft Content} {next : Content → Draft Other} {result : Other}
    (drawn : (draft >>= next).Contributes result declared) :
    ∃ content, draft.Contributes content declared ∧ (next content).Contributes result declared := by
  obtain ⟨taken, inner, yields, inside⟩ := drawn
  obtain ⟨content, first, second, here, later, rfl⟩ := yields_bind.mp yields
  refine ⟨content, here.contributes.mono ?_, later.contributes.mono ?_⟩
  · exact List.Subset.trans (List.subset_append_left first second) inside
  · exact List.Subset.trans (List.subset_append_right first second) inside

theorem contributes_pure {content result : Content}
    (drawn : (pure content : Draft Content).Contributes result declared) : result = content := by
  obtain ⟨taken, inner, yields, _⟩ := drawn
  exact (yields_pure.mp yields).1

theorem not_contributes_refuse {fault : Fault} {content : Content} :
    ¬(refuse fault : Draft Content).Contributes content declared := by
  rintro ⟨taken, inner, yields, _⟩
  exact not_yields_refuse yields

theorem contributes_within {tokens : Pointer} {draft : Draft Content} {content : Content}
    (drawn : (draft.within tokens).Contributes content declared) :
    draft.Contributes content declared := by
  obtain ⟨taken, inner, yields, inside⟩ := drawn
  exact ⟨taken, inner, yields_within.mp yields, inside⟩

def each (draft : Content → Draft Other) : List Content → Draft (List Other)
  | [] => pure []
  | first :: others => do
    let drawn ← draft first
    (drawn :: ·) <$> each draft others

theorem contributes_each {draft : Content → Draft Other} {sources : List Content}
    {results : List Other} (drawn : (each draft sources).Contributes results declared) :
    List.Forall₂ (fun source result => (draft source).Contributes result declared) sources results := by
  induction sources generalizing results with
  | nil =>
    obtain rfl := contributes_pure drawn
    exact List.Forall₂.nil
  | cons source sources ih =>
    obtain ⟨result, here, later⟩ := contributes_bind drawn
    obtain ⟨results, others, rfl⟩ := contributes_map later
    exact List.Forall₂.cons here (ih others)

theorem pure_bind (content : Content) (next : Content → Draft Other) :
    (pure content >>= next) = next content := by
  funext taken
  simp only [bind, andThen, pure, done, List.map_nil, List.append_nil, List.nil_append]
  cases here : (next content taken).outcome with
  | error malformed => rw [Except.map, ← here]
  | ok drawn => rw [Except.map, ← here]

theorem bind_assoc {Middle : Type} (draft : Draft Content) (middle : Content → Draft Middle)
    (next : Middle → Draft Other) :
    (draft >>= middle >>= next) = draft >>= fun content => middle content >>= next := by
  funext taken
  simp only [bind, andThen]
  cases (draft taken).outcome with
  | error malformed => rfl
  | ok drawn =>
    obtain ⟨content, declared⟩ := drawn
    simp only
    cases (middle content (taken ++ declared.map Declaration.name)).outcome with
    | error malformed => rfl
    | ok drawn =>
      obtain ⟨content', declared'⟩ := drawn
      simp only [Except.map, List.map_append, List.append_assoc]
      cases (next content' (taken ++ (declared.map Declaration.name ++
        declared'.map Declaration.name))).outcome <;> simp

theorem bind_pure_map (make : Content → Other) (draft : Draft Content) :
    (draft >>= fun content => pure (make content)) = make <$> draft := by
  funext taken
  simp only [bind, andThen, Functor.map, change]
  cases (draft taken).outcome with
  | error malformed => rfl
  | ok drawn => simp [pure, done, Except.map]

theorem id_map (draft : Draft Content) : id <$> draft = draft := by
  funext taken
  simp only [Functor.map, change]
  cases drawn : draft taken with
  | mk warnings outcome => cases outcome <;> rfl

instance : LawfulMonad Draft :=
  .mk' Draft id_map pure_bind bind_assoc (fun _ _ => rfl) (fun _ _ => rfl) (fun _ _ => rfl)
    bind_pure_map (fun _ _ => rfl)

theorem within_bind (tokens : Pointer) (draft : Draft Content) (next : Content → Draft Other) :
    (draft >>= next).within tokens =
      draft.within tokens >>= fun content => (next content).within tokens := by
  funext taken
  simp only [bind, andThen, within]
  cases (draft taken).outcome with
  | error malformed => rfl
  | ok drawn =>
    obtain ⟨content, declared⟩ := drawn
    simp only [Except.mapError, List.map_append]
    cases (next content (taken ++ declared.map Declaration.name)).outcome <;> rfl

theorem within_map (tokens : Pointer) (make : Content → Other) (draft : Draft Content) :
    (make <$> draft).within tokens = make <$> draft.within tokens := by
  funext taken
  simp only [Functor.map, change, within]
  cases (draft taken).outcome <;> rfl

theorem within_within (outer inner : Pointer) (draft : Draft Content) :
    (draft.within inner).within outer = draft.within (outer ++ inner) := by
  funext taken
  simp only [within, List.map_map, Function.comp_def, List.append_assoc]
  cases (draft taken).outcome <;> simp [Except.mapError]

theorem within_each {Source : Type} (tokens : Pointer) (draft : Source → Draft Content)
    (sources : List Source) :
    (each draft sources).within tokens = each (fun source => (draft source).within tokens) sources := by
  induction sources with
  | nil => rfl
  | cons source sources ih =>
    simp only [each, within_bind, within_map, ih]

theorem each_map {Source : Type} (draft : Content → Draft Other) (make : Source → Content)
    (sources : List Source) :
    each draft (sources.map make) = each (fun source => draft (make source)) sources := by
  induction sources with
  | nil => rfl
  | cons source sources ih => simp only [List.map_cons, each, ih]

end SchemaTypes.Draft
