import SchemaTypes.Proofs.Discovery
import SchemaTypes.Proofs.KeptNames
import SchemaTypes.Proofs.Selections

/-!
Which declarations are reached from the root by following references: those of all nodes but the ones
below an element that the bounds of an array leave no room for. Such an element is typed, and what is
declared in it stays, although the type of the array does not mention it.
-/

namespace SchemaTypes

open Draft TypeExpr

/-- The declaration has one of the names, or one is reached that refers to it. -/
inductive Reached (declarations : List Declaration) (names : List String) : Declaration → Prop
  | named {target : Declaration} (inside : target ∈ declarations) (mentioned : target.name ∈ names) :
      Reached declarations names target
  | through {source target : Declaration} (reached : Reached declarations names source)
      (inside : target ∈ declarations) (mentioned : target.name ∈ source.references) :
      Reached declarations names target

/-- A step of the pointer is to an element that the bounds of an array leave no room for. -/
inductive CutAway (ignoreBounds : Bool) : Json → Pointer → Prop
  | here {members : List (String × Json)} {tokens below : Pointer} {part : Json}
      (step : VisitsPart ignoreBounds members tokens part)
      (cut : CutsOff ignoreBounds members tokens) :
      CutAway ignoreBounds (.object members) (tokens ++ below)
  | inside {members : List (String × Json)} {tokens below : Pointer} {part : Json}
      (step : VisitsPart ignoreBounds members tokens part) (cut : CutAway ignoreBounds part below) :
      CutAway ignoreBounds (.object members) (tokens ++ below)

/-! Reaching among some of the declarations -/

section

variable {declarations others : List Declaration} {names more : List String} {target : Declaration}

theorem Reached.inside (reached : Reached declarations names target) : target ∈ declarations := by
  cases reached with
  | named inside _ => exact inside
  | through _ inside _ => exact inside

theorem Reached.of_names (reached : Reached declarations names target)
    (kept : ∀ declaration ∈ declarations, declaration.name ∈ names → declaration.name ∈ more) :
    Reached declarations more target := by
  induction reached with
  | named inside mentioned => exact .named inside (kept _ inside mentioned)
  | through _ inside mentioned ih => exact .through ih inside mentioned

theorem reached_congr
    (same : ∀ declaration ∈ declarations, declaration.name ∈ names ↔ declaration.name ∈ more) :
    Reached declarations names target ↔ Reached declarations more target :=
  ⟨fun reached => reached.of_names fun _ inside => (same _ inside).mp,
    fun reached => reached.of_names fun _ inside => (same _ inside).mpr⟩

theorem Reached.mono (reached : Reached declarations names target) (within : declarations ⊆ others) :
    Reached others names target := by
  induction reached with
  | named inside mentioned => exact .named (within inside) mentioned
  | through _ inside mentioned ih => exact .through ih (within inside) mentioned

/-- Among declarations that nothing outside refers to, reaching is a matter of these alone. -/
theorem reached_among (within : declarations ⊆ others)
    (apart : ∀ source ∈ others, ∀ target ∈ declarations, target.name ∈ source.references →
      source ∈ declarations) (inside : target ∈ declarations) :
    Reached others names target ↔ Reached declarations names target := by
  constructor
  · intro reached
    induction reached with
    | named _ mentioned => exact .named inside mentioned
    | through reached _ mentioned ih =>
      have source := apart _ reached.inside _ inside mentioned
      exact .through (ih source) inside mentioned
  · intro reached
    exact reached.mono within

theorem reached_none (unnamed : ∀ declaration ∈ declarations, declaration.name ∉ names) :
    ¬Reached declarations names target := by
  intro reached
  induction reached with
  | named inside mentioned => exact unnamed _ inside mentioned
  | through _ _ _ ih => exact ih

theorem reached_iff_kept {cut : Prop}
    (kept : ∀ declaration ∈ declarations,
      declaration.name ∈ names ↔ ¬cut ∧ declaration.name ∈ more) :
    Reached declarations names target ↔ ¬cut ∧ Reached declarations more target := by
  by_cases lost : cut
  · have unnamed : ∀ declaration ∈ declarations, declaration.name ∉ names :=
      fun declaration inside mentioned => ((kept declaration inside).mp mentioned).1 lost
    simp [lost, reached_none unnamed]
  · have same : ∀ declaration ∈ declarations,
        declaration.name ∈ names ↔ declaration.name ∈ more :=
      fun declaration inside => by simp [kept declaration inside, lost]
    simp [lost, reached_congr same]

theorem reached_below {root : Declaration}
    (apart : ∀ declaration ∈ declarations, declaration.name ≠ root.name)
    (inside : target ∈ declarations) :
    Reached (root :: declarations) [root.name] target ↔
      Reached declarations root.references target := by
  constructor
  · intro reached
    induction reached with
    | named _ mentioned => exact absurd (List.mem_singleton.mp mentioned) (apart _ inside)
    | @through source target reached _ mentioned ih =>
      rcases List.mem_cons.mp reached.inside with rfl | below
      · exact .named inside mentioned
      · exact .through (ih below) inside mentioned
  · intro reached
    clear inside
    induction reached with
    | named inside mentioned =>
      have root_reached : Reached (root :: declarations) [root.name] root :=
        .named List.mem_cons_self (List.mem_singleton_self _)
      exact .through root_reached (List.mem_cons_of_mem root inside) mentioned
    | through _ inside mentioned ih => exact .through ih (List.mem_cons_of_mem root inside) mentioned

end

/-! What placing parts in turn reaches -/

section

variable {ignoreBounds : Bool}

theorem references_of_forward {declarations : List Declaration} (forward : RefersForward declarations)
    {declaration : Declaration} (inside : declaration ∈ declarations) {name : String}
    (mentioned : name ∈ declaration.references) : name ∈ declarations.map Declaration.name := by
  obtain ⟨position, here⟩ := List.mem_iff_getElem?.mp inside
  obtain ⟨later, target, found, rfl, _⟩ := refersForward_getElem? forward here mentioned
  exact List.mem_map_of_mem (List.mem_of_getElem? found)

theorem unmentioned_of_distinct {sources targets : List Declaration} (forward : RefersForward sources)
    (distinct : ∀ source ∈ sources, ∀ target ∈ targets, source.name ≠ target.name)
    {source target : Declaration} (inside : source ∈ sources) (inside' : target ∈ targets) :
    target.name ∉ source.references := by
  intro mentioned
  obtain ⟨other, found, same⟩ := List.mem_map.mp (references_of_forward forward inside mentioned)
  exact distinct other found target inside' same

theorem PlacesEach.scoped {taken : List String} {events : List Event}
    {placed : List (Pointer × TypeExpr)} {declared : List Declaration}
    (places : PlacesEach ignoreBounds taken events placed declared) :
    Scoped taken [] (placed.flatMap (·.2.references)) declared := by
  induction places with
  | nil => exact scoped_nil (by simp)
  | foreign _ ih => exact ih
  | visit here _ ih =>
    have front := scopes_place (scopes_body _) here
    apply front.append (ih.weaken ?_ (List.nil_subset _))
    intro name mentioned
    rw [List.flatMap_cons, List.mem_append] at mentioned
    exact mentioned.symm

theorem PlacesEach.declares {taken : List String} {events : List Event}
    {placed : List (Pointer × TypeExpr)} {declared : List Declaration} {cut : Pointer → Prop}
    {name : String} (places : PlacesEach ignoreBounds taken events placed declared)
    (kept : KeptIn cut placed name) : name ∈ declared.map Declaration.name := by
  obtain ⟨part, inside, _, mentioned⟩ := kept
  have listed : name ∈ placed.flatMap (·.2.references) := List.mem_flatMap.mpr ⟨part, inside, mentioned⟩
  exact (places.scoped.resolved name listed).resolve_left List.not_mem_nil

theorem forall₂_imp_right {Source Content : Type} {relation other : Source → Content → Prop}
    {sources : List Source} {contents : List Content}
    (matched : List.Forall₂ relation sources contents)
    (implies : ∀ source, ∀ content ∈ contents, relation source content → other source content) :
    List.Forall₂ other sources contents := by
  induction matched with
  | nil => exact .nil
  | cons here _ ih =>
    refine .cons (implies _ _ List.mem_cons_self here) (ih ?_)
    exact fun source content inside => implies source content (List.mem_cons_of_mem _ inside)

def ReachesBelow (ignoreBounds : Bool) (part : Json) (nodes : List TitledNode) (names : List String)
    (declared : List Declaration) : Prop :=
  List.Forall₂ (fun node declaration =>
    Reached declared names declaration ↔ ¬CutAway ignoreBounds part node.pointer) nodes declared

/-- Of parts placed in turn, each is reached through the names of its own type, unless it is cut. -/
theorem reaches_placesEach {schema : Json} {cut : Pointer → Prop} {taken : List String}
    {events : List Event} {placed : List (Pointer × TypeExpr)} {declared : List Declaration}
    (places : PlacesEach ignoreBounds taken events placed declared)
    (parts : ∀ tokens part, .visit tokens part ∈ events → ∀ taken type declared,
      (place (Schema.ofJson part) ((Schema.ofJson part).body ignoreBounds)).Yields taken type declared →
        ReachesBelow ignoreBounds part ((visitsInOrder ignoreBounds part).filterMap titledVisit?)
          type.references declared)
    (lost : ∀ tokens part, .visit tokens part ∈ events → ∀ later,
      CutAway ignoreBounds schema (tokens ++ later) ↔ cut tokens ∨ CutAway ignoreBounds part later)
    {names : List String}
    (kept : ∀ declaration ∈ declared,
      declaration.name ∈ names ↔ KeptIn cut placed declaration.name) :
    ReachesBelow ignoreBounds schema
      ((events.flatMap (Event.visits ignoreBounds)).filterMap titledVisit?) names declared := by
  induction places with
  | nil => exact .nil
  | foreign _ ih =>
    exact ih (fun tokens part inside => parts tokens part (List.mem_cons_of_mem _ inside))
      (fun tokens part inside => lost tokens part (List.mem_cons_of_mem _ inside)) kept
  | @visit taken tokens part type events placed first second here later ih =>
    have front := scopes_place (scopes_body (Schema.ofJson part)) here
    have back := later.scoped
    have disjoint : ∀ declaration ∈ first, ∀ other ∈ second, declaration.name ≠ other.name := by
      intro declaration inside other inside' same
      apply back.free other.name (List.mem_map_of_mem inside')
      rw [← same]
      exact List.mem_append_right taken (List.mem_map_of_mem inside)
    have apart : ∀ source ∈ first ++ second, ∀ target ∈ first, target.name ∈ source.references →
        source ∈ first :=
      fun source inside target below mentioned => (List.mem_append.mp inside).resolve_right fun theirs =>
        unmentioned_of_distinct back.forward
          (fun other found target below => (disjoint target below other found).symm) theirs below
          mentioned
    have apart' : ∀ source ∈ first ++ second, ∀ target ∈ second, target.name ∈ source.references →
        source ∈ second :=
      fun source inside target below mentioned => (List.mem_append.mp inside).resolve_left fun theirs =>
        unmentioned_of_distinct front.forward disjoint theirs below mentioned
    have own : ∀ declaration ∈ first, declaration.name ∈ names ↔
        ¬cut tokens ∧ declaration.name ∈ type.references := by
      intro declaration inside
      rw [kept declaration (List.mem_append_left second inside), keptIn_cons]
      apply or_iff_left
      intro mentioned
      obtain ⟨other, found, same⟩ := List.mem_map.mp (later.declares mentioned)
      exact disjoint declaration inside other found same.symm
    have others : ∀ declaration ∈ second, declaration.name ∈ names ↔
        KeptIn cut placed declaration.name := by
      intro declaration inside
      rw [kept declaration (List.mem_append_right first inside), keptIn_cons]
      apply or_iff_right
      rintro ⟨_, mentioned⟩
      have resolved := (front.resolved declaration.name mentioned).resolve_left List.not_mem_nil
      obtain ⟨other, found, same⟩ := List.mem_map.mp resolved
      exact disjoint other found declaration inside same
    rw [ReachesBelow, List.flatMap_cons, List.filterMap_append, Event.visits, titledVisit?_within]
    apply List.rel_append
    · rw [List.forall₂_map_left_iff]
      apply forall₂_imp_right (parts tokens part List.mem_cons_self _ _ _ here)
      intro node declaration inside reaches
      rw [reached_among (List.subset_append_left first second) apart inside, reached_iff_kept own,
        lost tokens part List.mem_cons_self, not_or, reaches]
    · have below := ih (fun tokens part inside => parts tokens part (List.mem_cons_of_mem _ inside))
        (fun tokens part inside => lost tokens part (List.mem_cons_of_mem _ inside)) others
      apply forall₂_imp_right below
      intro node declaration inside reaches
      rw [reached_among (List.subset_append_right first second) apart' inside]
      exact reaches

/-! Which pointers lead into what is cut -/

variable {members : List (String × Json)} {tokens : Pointer} {part : Json}

theorem select?_of_visitsPart (distinct : (Json.object members).hasDistinctKeys = true)
    (step : VisitsPart ignoreBounds members tokens part) :
    (Json.object members).select? tokens = some part := by
  have two : ∀ {key token : String} {value : Json}, members.lookup key = some value →
      value.part? token = some part → (Json.object members).select? [key, token] = some part := by
    intro key token value given inside
    rw [← List.singleton_append, Json.select?_append, Json.select?_member given, Option.bind_some,
      Json.select?, inside]
    rfl
  cases step with
  | arm _ _ given here => exact two given (by simp [Json.part?, elementIndex?_repr, here])
  | property _ _ given inside => exact two given (lookup_of_mem (Json.table_nodup distinct given) inside)
  | additional _ _ given => exact Json.select?_member given
  | items _ _ given _ => exact Json.select?_member given
  | positional _ _ given here => exact two given (by simp [Json.part?, elementIndex?_repr, here])
  | rest _ _ _ more _ => exact Json.select?_member more

theorem VisitsPart.shape (step : VisitsPart ignoreBounds members tokens part) :
    (∃ key ∈ singleKeys, tokens = [key] ∧ ∀ parts, members.lookup key ≠ some (.array parts)) ∨
      ∃ key token, tokens = [key, token] ∧
        (key ∈ singleKeys → ∃ parts, members.lookup key = some (.array parts)) := by
  cases step with
  | arm _ _ given here => exact Or.inr ⟨_, _, rfl, fun _ => ⟨_, given⟩⟩
  | property => exact Or.inr ⟨_, _, rfl, fun single => absurd single (by decide)⟩
  | additional _ _ given => exact Or.inl ⟨_, by simp [singleKeys], rfl, by simp [given]⟩
  | items _ _ given schema =>
    refine Or.inl ⟨_, by simp [singleKeys], rfl, ?_⟩
    intro parts listed
    obtain rfl := Option.some.inj (given.symm.trans listed)
    exact schema trivial
  | positional _ _ given here => exact Or.inr ⟨_, _, rfl, fun _ => ⟨_, given⟩⟩
  | rest _ _ _ more _ => exact Or.inl ⟨_, by simp [singleKeys], rfl, by simp [more]⟩

/-- No two parts of a node stand one inside the other. -/
theorem VisitsPart.tokens_unique {tokens' later below : Pointer} {part' : Json}
    (step : VisitsPart ignoreBounds members tokens part)
    (step' : VisitsPart ignoreBounds members tokens' part')
    (same : tokens ++ later = tokens' ++ below) : tokens = tokens' ∧ later = below := by
  rcases step.shape with ⟨key, single, rfl, unlisted⟩ | ⟨key, token, rfl, listed⟩ <;>
    rcases step'.shape with ⟨key', single', rfl, unlisted'⟩ | ⟨key', token', rfl, listed'⟩
  · simpa using same
  · obtain rfl : key = key' := List.head_eq_of_cons_eq same
    obtain ⟨parts, found⟩ := listed' single
    exact absurd found (unlisted parts)
  · obtain rfl : key = key' := List.head_eq_of_cons_eq same
    obtain ⟨parts, found⟩ := listed single'
    exact absurd found (unlisted' parts)
  · simpa [and_assoc] using same

theorem cutAway_iff (distinct : (Json.object members).hasDistinctKeys = true)
    (step : VisitsPart ignoreBounds members tokens part) (later : Pointer) :
    CutAway ignoreBounds (.object members) (tokens ++ later) ↔
      CutsOff ignoreBounds members tokens ∨ CutAway ignoreBounds part later := by
  constructor
  · intro lost
    generalize whole : tokens ++ later = pointer at lost
    cases lost with
    | here step' cut =>
      obtain ⟨rfl, _⟩ := step.tokens_unique step' whole
      exact Or.inl cut
    | inside step' lost =>
      obtain ⟨rfl, rfl⟩ := step.tokens_unique step' whole
      have found := select?_of_visitsPart distinct step
      obtain rfl := Option.some.inj (found.symm.trans (select?_of_visitsPart distinct step'))
      exact Or.inr lost
  · rintro (cut | lost)
    · exact .here step cut
    · exact .inside step lost

theorem not_cutAway_root (schema : Json) : ¬CutAway ignoreBounds schema [] := by
  intro lost
  generalize whole : ([] : Pointer) = pointer at lost
  have filled : ∀ {members tokens part below}, VisitsPart ignoreBounds members tokens part →
      [] ≠ tokens ++ below := by
    intro members tokens part below step
    rcases step.shape with ⟨key, _, rfl, _⟩ | ⟨key, token, rfl, _⟩ <;> simp
  cases lost with
  | here step _ => exact filled step whole
  | inside step _ => exact filled step whole

theorem not_cutAway_of_unbounded {schema : Json} {pointer : Pointer}
    (unbounded : ∀ members, HasNode schema members → mostItems ignoreBounds members = none) :
    ¬CutAway ignoreBounds schema pointer := by
  intro lost
  induction lost with
  | here step cut =>
    have none := unbounded _ .here
    cases cut with
    | empty most _ => simp [none] at most
    | beyond bounded _ => simp [none] at bounded
  | inside step _ ih =>
    exact ih fun members node => unbounded members (.deeper (hasPart_of_visitsPart step) node)

/-! Whole schemas -/

theorem reaches_declare {schema : Json} {base : String} {taken : List String} {type : TypeExpr}
    {declared : List Declaration}
    (below : ∀ taken type declared,
      ((Schema.ofJson schema).body ignoreBounds).Yields taken type declared →
        ReachesBelow ignoreBounds schema (titledBelow ignoreBounds schema) type.references declared)
    (drawn : (declare base (Schema.ofJson schema)
      ((Schema.ofJson schema).body ignoreBounds)).Yields taken type declared) :
    ReachesBelow ignoreBounds schema (⟨[], base, schema⟩ :: titledBelow ignoreBounds schema)
      type.references declared := by
  obtain ⟨declaration, inner, drafted, rfl, rfl⟩ := yields_declare drawn
  have name := declarationDraft_name drafted
  have others : ReachesBelow ignoreBounds schema (titledBelow ignoreBounds schema)
        declaration.references inner ∧
      ∀ other ∈ inner, other.name ≠ declaration.name := by
    rcases yields_declarationDraft drafted with ⟨named, given, rfl, rfl⟩ | ⟨type, yields, rfl⟩
    · have nothing : titledBelow ignoreBounds schema = [] := by
        simp [titledBelow, visitsInOrder_eq, events_of_enumMembers given]
      rw [nothing]
      exact ⟨.nil, by simp⟩
    · rw [declaration_references, name]
      refine ⟨below _ _ _ yields, fun other inside same => ?_⟩
      have free := (scopes_body _ yields).free other.name (List.mem_map_of_mem inside)
      exact free (by simp [same])
  rw [references, ← name]
  refine .cons ?_ (forall₂_imp_right others.1 fun node other inside reaches => ?_)
  · have reached : Reached (declaration :: inner) [declaration.name] declaration :=
      .named List.mem_cons_self (List.mem_singleton_self _)
    simp [reached, not_cutAway_root]
  · rw [reached_below others.2 inside]
    exact reaches

theorem reaches_place {schema : Json} {taken : List String} {type : TypeExpr}
    {declared : List Declaration}
    (below : ∀ taken type declared,
      ((Schema.ofJson schema).body ignoreBounds).Yields taken type declared →
        ReachesBelow ignoreBounds schema (titledBelow ignoreBounds schema) type.references declared)
    (drawn : (place (Schema.ofJson schema)
      ((Schema.ofJson schema).body ignoreBounds)).Yields taken type declared) :
    ReachesBelow ignoreBounds schema ((visitsInOrder ignoreBounds schema).filterMap titledVisit?)
      type.references declared := by
  rw [visitsInOrder_eq_cons, List.filterMap_cons]
  unfold place at drawn
  rw [declaredBase?_eq] at drawn
  cases asked : nestedName? schema with
  | none =>
    rw [asked] at drawn
    simpa [titledVisit?, asked, titledBelow] using below _ _ _ drawn
  | some base =>
    rw [asked] at drawn
    simpa [titledVisit?, asked, titledBelow] using reaches_declare below drawn

theorem reaches_body (schema : Json) (distinct : schema.hasDistinctKeys = true) :
    ∀ taken type declared, ((Schema.ofJson schema).body ignoreBounds).Yields taken type declared →
      ReachesBelow ignoreBounds schema (titledBelow ignoreBounds schema) type.references declared := by
  induction schema using partInduction with
  | step schema ih =>
    intro taken type declared drawn
    rw [titledBelow, visitsInOrder_eq, List.tail_cons]
    cases schema with
    | object members =>
      obtain ⟨placed, places, mentions⟩ := mentions_body members drawn
      apply reaches_placesEach places
      · intro tokens part inside taken type declared drawn
        have step := hasPart_of_visitsPart (visit_mem_nodeEvents.mp inside)
        exact reaches_place (ih part step (Json.everyObject_of_part distinct step)) drawn
      · exact fun tokens part inside => cutAway_iff distinct (visit_mem_nodeEvents.mp inside)
      · intro declaration _
        rw [mentions]
        simp
    | boolean admits =>
      cases admits <;> obtain ⟨_, rfl⟩ := yields_pure.mp drawn <;> exact .nil
    | _ =>
      obtain ⟨_, first, second, warned, done, rfl⟩ := yields_bind.mp drawn
      obtain rfl := yields_warn.mp warned
      obtain ⟨_, rfl⟩ := yields_pure.mp done
      exact .nil

theorem forall_iff_of_forall₂ {Source Content : Type} {apt : Source → Prop} {good : Content → Prop}
    {sources : List Source} {contents : List Content}
    (matched : List.Forall₂ (fun source content => good content ↔ apt source) sources contents) :
    (∀ content ∈ contents, good content) ↔ ∀ source ∈ sources, apt source := by
  induction matched with
  | nil => simp
  | cons here _ ih => rw [List.forall_mem_cons, List.forall_mem_cons, here, ih]

/--
The declarations after the root's are those of the titled nodes below it, one for each in their order. One
is reached from the root's by references just if no step to its node is to an element that the bounds of
an array leave no room for; so all are reached just if no such element has a titled node in it, and in
particular if no greatest number of elements counts.
-/
theorem reached_unless_cut (schema : Json) (suggested : String) (ignoreBounds : Bool)
    (distinct : schema.hasDistinctKeys = true) {root : Declaration} {others : List Declaration}
    (succeeded : ((Schema.ofJson schema).declarations suggested ignoreBounds).outcome =
      .ok (root :: others, [])) :
    List.Forall₂ (fun node declaration => Reached (root :: others) [root.name] declaration ↔
        ¬CutAway ignoreBounds schema node.pointer) (titledBelow ignoreBounds schema) others ∧
      ((∀ declaration ∈ others, Reached (root :: others) [root.name] declaration) ↔
        ∀ node ∈ titledBelow ignoreBounds schema, ¬CutAway ignoreBounds schema node.pointer) ∧
      ((∀ members, HasNode schema members → mostItems ignoreBounds members = none) →
        ∀ declaration ∈ others, Reached (root :: others) [root.name] declaration) := by
  have drawn := declarations_yields succeeded
  have reaches := reaches_declare (reaches_body schema distinct) drawn
  have name : root.name = rootBase (Schema.ofJson schema) suggested := by
    obtain ⟨declaration, inner, drafted, _, same⟩ := yields_declare drawn
    rw [(List.cons.inj same).1, declarationDraft_name drafted, freshName_nil]
  rw [references, ← name] at reaches
  obtain ⟨_, below⟩ := List.forall₂_cons.mp reaches
  have all := forall_iff_of_forall₂ below
  refine ⟨below, all, fun unbounded => all.mpr fun node _ => not_cutAway_of_unbounded unbounded⟩

end

def takenSeat : Json :=
  .object [("title", .string "taken"), ("type", .string "string")]

def spareSeat : Json :=
  .object [("title", .string "spare"), ("type", .string "number")]

def seatPair : List (String × Json) :=
  [("items", .array [takenSeat, spareSeat]), ("maxItems", .number (.integer 1))]

def seatDeclarations : List Declaration := [
  .typeAlias "Root" none (.tuple [.reference "Taken"] 1 none), .typeAlias "Taken" none .string,
  .typeAlias "Spare" none .number]

theorem seatPair_nodes : titledBelow false (.object seatPair) =
    [⟨["items", "0"], "Taken", takenSeat⟩, ⟨["items", "1"], "Spare", spareSeat⟩] := by
  have taken : events false takenSeat = [] := rfl
  have spare : events false spareSeat = [] := rfl
  have outer : events false (.object seatPair) =
      [.visit ["items", "0"] takenSeat, .visit ["items", "1"] spareSeat] := rfl
  have first : nestedName? takenSeat = some "Taken" := by decide
  have second : nestedName? spareSeat = some "Spare" := by decide
  simp [titledBelow, visitsInOrder_eq, taken, spare, outer, Event.visits, titledVisit?, first, second]

/-- The element that is cut leaves its declaration behind. -/
theorem seatPair_leaves_orphan :
    (Json.object seatPair).hasDistinctKeys = true ∧
      ((Schema.ofJson (.object seatPair)).declarations "" false).outcome = .ok (seatDeclarations, []) ∧
      Reached seatDeclarations ["Root"] (.typeAlias "Taken" none .string) ∧
      ¬Reached seatDeclarations ["Root"] (.typeAlias "Spare" none .number) := by
  have distinct : (Json.object seatPair).hasDistinctKeys = true := by decide +kernel
  have succeeded : ((Schema.ofJson (.object seatPair)).declarations "" false).outcome =
      .ok (seatDeclarations, []) := by decide +kernel
  have each := (reached_unless_cut (.object seatPair) "" false distinct succeeded).1
  rw [seatPair_nodes, List.forall₂_cons, List.forall₂_cons] at each
  have unfixed : Unfixed seatPair := ⟨rfl, rfl, rfl⟩
  have array : "array" ∈ effectiveNames seatPair := by decide
  have step : VisitsPart false seatPair ["items", Nat.repr 0] takenSeat :=
    .positional unfixed array rfl rfl
  have step' : VisitsPart false seatPair ["items", Nat.repr 1] spareSeat :=
    .positional unfixed array rfl rfl
  refine ⟨distinct, succeeded, each.1.mpr ?_, fun reached => each.2.1.mp reached ?_⟩
  · change ¬CutAway false (.object seatPair) (["items", Nat.repr 0] ++ [])
    rw [cutAway_iff distinct step]
    rintro (cut | cut)
    · obtain ⟨most, bounded, beyond⟩ := cutsOff_positional.mp cut
      obtain rfl : 1 = most := Option.some.inj bounded
      omega
    · exact not_cutAway_root takenSeat cut
  · change CutAway false (.object seatPair) (["items", Nat.repr 1] ++ [])
    exact .here step' (.beyond rfl (Nat.le_refl 1))

end SchemaTypes