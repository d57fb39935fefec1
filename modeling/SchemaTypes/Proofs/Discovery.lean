import SchemaTypes.Proofs.DraftEffects
import SchemaTypes.Proofs.Namespace
import SchemaTypes.Proofs.VisitOrder

/-!
Which declarations typing draws up: one for the root and one for each visited node with a usable title,
in the order of the visits. Each has the first free name and carries the type of its own node.
-/

namespace SchemaTypes

open Draft

def usableName? (text : String) : Option String :=
  if (safeName text).isEmpty then none else some (safeName text)

def titleName? (schema : Json) : Option String :=
  ((schema.member? "title").bind Json.string?).bind usableName?

/-- The name asked for by a nested schema: that of its title, unless its type is given in text. -/
def nestedName? (schema : Json) : Option String :=
  if ((schema.member? "tsType").bind Json.string?).isSome then none else titleName? schema

/-- The name asked for by a root: that of its title, the suggested one, or the fallback. -/
def rootName (schema : Json) (suggested : String) : String :=
  (titleName? schema).getD ((usableName? suggested).getD fallbackRootName)

def describedAs (schema : Json) : Option String :=
  (schema.member? "description").bind Json.string?

structure TitledNode where
  pointer : Pointer
  base : String
  node : Json

def titledVisit? (visit : Pointer × Json) : Option TitledNode :=
  (nestedName? visit.2).map fun base => ⟨visit.1, base, visit.2⟩

def titledBelow (ignoreBounds : Bool) (schema : Json) : List TitledNode :=
  (visitsInOrder ignoreBounds schema).tail.filterMap titledVisit?

def declaredNodes (ignoreBounds : Bool) (suggested : String) (schema : Json) : List TitledNode :=
  ⟨[], rootName schema suggested, schema⟩ :: titledBelow ignoreBounds schema

/-- What the declaration of a node is, and the declarations that its body brings. -/
inductive Carries (ignoreBounds : Bool) (schema : Json) (taken : List String) (name : String) :
    Declaration → List Declaration → Prop
  | members {named : List (String × Json)}
      (given : (Schema.ofJson schema).head?.bind enumMembers? = some named) :
      Carries ignoreBounds schema taken name (.enumeration name (describedAs schema) named) []
  | type {type : TypeExpr} {inner : List Declaration}
      (unnamed : (Schema.ofJson schema).head?.bind enumMembers? = none)
      (drawn : ((Schema.ofJson schema).body ignoreBounds).Yields taken type inner) :
      Carries ignoreBounds schema taken name (declarationOfType name (describedAs schema) type) inner

/-- Declarations in the order of their nodes, under names that are free among those before. -/
inductive DeclaresEach (ignoreBounds : Bool) :
    List String → List TitledNode → List Declaration → Prop
  | nil {taken : List String} : DeclaresEach ignoreBounds taken [] []
  | cons {taken : List String} {node : TitledNode} {nodes : List TitledNode}
      {declaration : Declaration} {inner declarations : List Declaration}
      (named : IsFirstFree node.base taken declaration.name)
      (carries : Carries ignoreBounds node.node (taken ++ [declaration.name]) declaration.name
        declaration inner)
      (first : inner <+: declarations)
      (others : DeclaresEach ignoreBounds (taken ++ [declaration.name]) nodes declarations) :
      DeclaresEach ignoreBounds taken (node :: nodes) (declaration :: declarations)

theorem title_ofJson (schema : Json) :
    (Schema.ofJson schema).title = (schema.member? "title").bind Json.string? := by
  cases schema with
  | object members =>
    rw [Schema.title, ofJson_object]
    rfl
  | _ => rfl

theorem description_eq (schema : Json) : (Schema.ofJson schema).description = describedAs schema := by
  cases schema with
  | object members =>
    rw [Schema.description, ofJson_object]
    rfl
  | _ => rfl

theorem rootBase_eq (schema : Json) (suggested : String) :
    rootBase (Schema.ofJson schema) suggested = rootName schema suggested := by
  rw [rootBase, rootName, titleName?, title_ofJson]
  cases (schema.member? "title").bind Json.string? with
  | none => cases here : (safeName suggested).isEmpty <;> simp [usableName?, here]
  | some title =>
    cases usable : (safeName title).isEmpty <;> cases here : (safeName suggested).isEmpty <;>
      simp [usableName?, usable, here, Option.filter]

theorem declaredBase?_eq (schema : Json) :
    declaredBase? (Schema.ofJson schema) = nestedName? schema := by
  cases schema with
  | object members =>
    rw [declaredBase?, ofJson_object]
    change (if (stringMember "tsType" members).isSome = true then none
      else ((stringMember "title" members).map safeName).filter fun name => !name.isEmpty) =
        (if (stringMember "tsType" members).isSome = true then none
          else (stringMember "title" members).bind usableName?)
    apply congrArg (ite _ none)
    cases stringMember "title" members with
    | none => rfl
    | some title =>
      cases usable : (safeName title).isEmpty <;> simp [usableName?, usable, Option.filter]
  | _ => rfl

section

variable {ignoreBounds : Bool}

theorem DeclaresEach.append {taken : List String} {nodes later : List TitledNode}
    {declarations others : List Declaration}
    (declares : DeclaresEach ignoreBounds taken nodes declarations)
    (declares' : DeclaresEach ignoreBounds (taken ++ declarations.map Declaration.name) later others) :
    DeclaresEach ignoreBounds taken (nodes ++ later) (declarations ++ others) := by
  induction declares with
  | nil => simpa using declares'
  | cons named carries first _ ih =>
    refine .cons named carries (first.trans (List.prefix_append _ others)) (ih ?_)
    simpa using declares'

theorem DeclaresEach.within {taken : List String} {nodes : List TitledNode}
    {declarations : List Declaration} (tokens : Pointer)
    (declares : DeclaresEach ignoreBounds taken nodes declarations) :
    DeclaresEach ignoreBounds taken
      (nodes.map fun node => { node with pointer := tokens ++ node.pointer }) declarations := by
  induction declares with
  | nil => exact .nil
  | cons named carries first _ ih => exact .cons named carries first ih

theorem carries_of_yields {schema : Json} {taken : List String} {name : String}
    {declaration : Declaration} {inner : List Declaration}
    (drawn : (declarationDraft name (Schema.ofJson schema)
      ((Schema.ofJson schema).body ignoreBounds)).Yields taken declaration inner) :
    Carries ignoreBounds schema taken name declaration inner := by
  unfold declarationDraft at drawn
  rw [description_eq] at drawn
  split at drawn
  · rename_i named given
    obtain ⟨rfl, rfl⟩ := yields_pure.mp drawn
    exact .members given
  · rename_i unnamed
    obtain ⟨type, yields, rfl⟩ := yields_map.mp drawn
    exact .type unnamed yields

def DeclaresBelow (ignoreBounds : Bool) (schema : Json) : Prop :=
  ∀ taken type declared, ((Schema.ofJson schema).body ignoreBounds).Yields taken type declared →
    DeclaresEach ignoreBounds taken (titledBelow ignoreBounds schema) declared

theorem declaresEach_declare {schema : Json} {base : String} {taken : List String} {type : TypeExpr}
    {declared : List Declaration} (below : DeclaresBelow ignoreBounds schema)
    (drawn : (declare base (Schema.ofJson schema)
      ((Schema.ofJson schema).body ignoreBounds)).Yields taken type declared) (pointer : Pointer) :
    DeclaresEach ignoreBounds taken (⟨pointer, base, schema⟩ :: titledBelow ignoreBounds schema)
      declared := by
  obtain ⟨declaration, inner, drafted, _, rfl⟩ := yields_declare drawn
  have name : declaration.name = freshName base taken := declarationDraft_name drafted
  have carries := carries_of_yields drafted
  have others : DeclaresEach ignoreBounds (taken ++ [freshName base taken])
      (titledBelow ignoreBounds schema) inner := by
    cases carries with
    | members given =>
      have nothing : titledBelow ignoreBounds schema = [] := by
        simp [titledBelow, visitsInOrder_eq, events_of_enumMembers given]
      rw [nothing]
      exact .nil
    | type _ yields => exact below _ _ _ yields
  rw [← name] at carries others
  refine .cons ?_ carries (List.prefix_refl inner) others
  rw [name]
  exact freshName_isFirstFree base taken

theorem declaresEach_place {schema : Json} {taken : List String} {type : TypeExpr}
    {declared : List Declaration} (below : DeclaresBelow ignoreBounds schema)
    (drawn : (place (Schema.ofJson schema)
      ((Schema.ofJson schema).body ignoreBounds)).Yields taken type declared) :
    DeclaresEach ignoreBounds taken ((visitsInOrder ignoreBounds schema).filterMap titledVisit?)
      declared := by
  rw [visitsInOrder_eq_cons, List.filterMap_cons]
  unfold place at drawn
  rw [declaredBase?_eq] at drawn
  cases asked : nestedName? schema with
  | none =>
    rw [asked] at drawn
    simpa [titledVisit?, asked, titledBelow] using below _ _ _ drawn
  | some base =>
    rw [asked] at drawn
    simpa [titledVisit?, asked, titledBelow] using declaresEach_declare below drawn []

theorem titledVisit?_within (tokens : Pointer) (visits : List (Pointer × Json)) :
    (visits.map fun visit => (tokens ++ visit.1, visit.2)).filterMap titledVisit? =
      (visits.filterMap titledVisit?).map fun node =>
        { node with pointer := tokens ++ node.pointer } := by
  rw [List.filterMap_map, List.map_filterMap]
  apply List.filterMap_congr
  intro visit inside
  simp [titledVisit?, Function.comp_def]

theorem declaresEach_inTurn {events : List Event}
    (each : ∀ event ∈ events, ∀ taken declared,
      (event.draft ignoreBounds).Yields taken () declared →
        DeclaresEach ignoreBounds taken ((event.visits ignoreBounds).filterMap titledVisit?) declared)
    {taken : List String} {declared : List Declaration}
    (drawn : (inTurn (events.map (Event.draft ignoreBounds))).Yields taken () declared) :
    DeclaresEach ignoreBounds taken
      ((events.flatMap (Event.visits ignoreBounds)).filterMap titledVisit?) declared := by
  induction events generalizing taken declared with
  | nil =>
    obtain ⟨_, rfl⟩ := yields_pure.mp drawn
    exact .nil
  | cons event events ih =>
    rw [List.forall_mem_cons] at each
    obtain ⟨_, first, second, here, later, rfl⟩ := yields_bind.mp drawn
    rw [List.flatMap_cons, List.filterMap_append]
    exact (each.1 taken first here).append (ih each.2 later)

theorem declaresBelow (schema : Json) : DeclaresBelow ignoreBounds schema := by
  induction schema using partInduction with
  | step schema ih =>
    intro taken type declared drawn
    have effect : ((Schema.ofJson schema).body ignoreBounds).effect.Yields taken () declared :=
      yields_map.mpr ⟨type, drawn, rfl⟩
    rw [does_body schema] at effect
    rw [titledBelow, visitsInOrder_eq, List.tail_cons]
    refine declaresEach_inTurn ?_ effect
    intro event inside taken declared drawn
    cases event with
    | wrong fault => exact absurd drawn not_yields_refuse
    | foreign =>
      obtain rfl := yields_warn.mp drawn
      exact .nil
    | visit tokens part =>
      obtain ⟨type, placed, _⟩ := yields_map.mp drawn
      rw [Event.visits, titledVisit?_within]
      exact (declaresEach_place (ih part (hasPart_of_visit inside)) (yields_within.mp placed)).within
        tokens

theorem DeclaresEach.length_eq {taken : List String} {nodes : List TitledNode}
    {declarations : List Declaration} (declares : DeclaresEach ignoreBounds taken nodes declarations) :
    declarations.length = nodes.length := by
  induction declares with
  | nil => rfl
  | cons _ _ _ _ ih => rw [List.length_cons, List.length_cons, ih]

theorem DeclaresEach.at {taken : List String} {nodes : List TitledNode}
    {declarations : List Declaration} (declares : DeclaresEach ignoreBounds taken nodes declarations)
    {position : Nat} {node : TitledNode} {declaration : Declaration}
    (here : nodes[position]? = some node) (there : declarations[position]? = some declaration) :
    IsFirstFree node.base (taken ++ (declarations.take position).map Declaration.name)
        declaration.name ∧
      ∃ inner,
        Carries ignoreBounds node.node
          (taken ++ (declarations.take (position + 1)).map Declaration.name) declaration.name
          declaration inner ∧
        inner <+: declarations.drop (position + 1) := by
  induction declares generalizing position with
  | nil => cases here
  | @cons taken first nodes head inner declarations named carries follows _ ih =>
    cases position with
    | zero =>
      cases here
      cases there
      exact ⟨by simpa using named, inner, by simpa using carries, follows⟩
    | succ position =>
      have found := ih here there
      simpa using found

theorem titledVisit?_eq_some {visit : Pointer × Json} {node : TitledNode} :
    titledVisit? visit = some node ↔
      visit = (node.pointer, node.node) ∧ nestedName? node.node = some node.base := by
  obtain ⟨place, value⟩ := visit
  obtain ⟨pointer, base, inner⟩ := node
  simp only [titledVisit?, Option.map_eq_some_iff, TitledNode.mk.injEq, Prod.mk.injEq]
  constructor
  · rintro ⟨_, asked, rfl, rfl, rfl⟩
    exact ⟨⟨rfl, rfl⟩, asked⟩
  · rintro ⟨⟨rfl, rfl⟩, asked⟩
    exact ⟨base, asked, rfl, rfl, rfl⟩

theorem declaredNodes_ordered {schema : Json} (suggested : String)
    (distinct : schema.hasDistinctKeys = true) (once : NamesKindsOnce schema) :
    (declaredNodes ignoreBounds suggested schema).Pairwise fun node later =>
      ¬later.pointer <+: node.pointer := by
  have ordered := visits_ordered ignoreBounds distinct once
  rw [visitsInOrder_eq_cons, List.pairwise_cons] at ordered
  rw [declaredNodes, List.pairwise_cons]
  constructor
  · intro node inside
    obtain ⟨visit, below, titled⟩ := List.mem_filterMap.mp inside
    obtain ⟨rfl, _⟩ := titledVisit?_eq_some.mp titled
    exact ordered.1 _ below
  · apply ordered.2.filterMap
    intro visit later before node titled node' titled'
    obtain ⟨rfl, _⟩ := titledVisit?_eq_some.mp titled
    obtain ⟨rfl, _⟩ := titledVisit?_eq_some.mp titled'
    exact before

theorem mem_titledBelow {schema : Json} (distinct : schema.hasDistinctKeys = true)
    (once : NamesKindsOnce schema) {node : TitledNode} :
    node ∈ titledBelow ignoreBounds schema ↔
      node.pointer ≠ [] ∧ Visits ignoreBounds schema node.pointer node.node ∧
        nestedName? node.node = some node.base := by
  have ordered := visits_ordered ignoreBounds distinct once
  rw [visitsInOrder_eq_cons, List.pairwise_cons] at ordered
  rw [← mem_visitsInOrder, visitsInOrder_eq_cons, List.mem_cons, titledBelow, List.mem_filterMap]
  simp only [titledVisit?_eq_some]
  constructor
  · rintro ⟨visit, below, rfl, asked⟩
    have inside := ordered.1 _ below
    refine ⟨?_, Or.inr below, asked⟩
    intro outermost
    simp [StandsBefore, outermost] at inside
  · rintro ⟨inner, visited, asked⟩
    rcases visited with root | below
    · exact absurd (congrArg Prod.fst root) inner
    · exact ⟨_, below, rfl, asked⟩

theorem declaresEach_of_declarations {schema : Json} {suggested : String}
    {declarations : List Declaration}
    (succeeded : ((Schema.ofJson schema).declarations suggested ignoreBounds).outcome =
      .ok (declarations, [])) :
    DeclaresEach ignoreBounds [] (declaredNodes ignoreBounds suggested schema) declarations := by
  have drawn := declarations_yields succeeded
  rw [rootBase_eq] at drawn
  exact declaresEach_declare (declaresBelow schema) drawn []

/--
A schema that is typed has one declaration for the root and for each titled node that is visited in it,
in the order of the visits. A declaration has the first name that is free among those before it, and it
carries the description and the type of its node; what its body declares follows it.
-/
theorem declared_in_discovery_order (schema : Json) (suggested : String) (ignoreBounds : Bool)
    (distinct : schema.hasDistinctKeys = true) (once : NamesKindsOnce schema)
    {declarations : List Declaration}
    (succeeded : ((Schema.ofJson schema).declarations suggested ignoreBounds).outcome =
      .ok (declarations, [])) :
    (declaredNodes ignoreBounds suggested schema).head? =
        some ⟨[], rootName schema suggested, schema⟩ ∧
      (∀ node, node ∈ (declaredNodes ignoreBounds suggested schema).tail ↔
        node.pointer ≠ [] ∧ Visits ignoreBounds schema node.pointer node.node ∧
          nestedName? node.node = some node.base) ∧
      (declaredNodes ignoreBounds suggested schema).Pairwise
        (fun node later => ¬later.pointer <+: node.pointer) ∧
      declarations.length = (declaredNodes ignoreBounds suggested schema).length ∧
      ∀ (position : Nat) node declaration,
        (declaredNodes ignoreBounds suggested schema)[position]? = some node →
        declarations[position]? = some declaration →
          IsFirstFree node.base ((declarations.take position).map Declaration.name)
              declaration.name ∧
            ∃ inner,
              Carries ignoreBounds node.node
                ((declarations.take (position + 1)).map Declaration.name) declaration.name
                declaration inner ∧
              inner <+: declarations.drop (position + 1) := by
  have declares := declaresEach_of_declarations succeeded
  refine ⟨rfl, fun node => mem_titledBelow distinct once, declaredNodes_ordered suggested distinct once,
    declares.length_eq, ?_⟩
  intro position node declaration here there
  simpa using declares.at here there

end

def echo : Json :=
  .object [("title", .string "a")]

def echoes : Json :=
  .object [("title", .string "a1"), ("properties", .object [("z", echo)])]

/-- A title that comes again, and between two of it one that looks like its numbered form. -/
def echoedTitles : Json :=
  .object [("title", .string "a"), ("properties", .object [("x", echo), ("y", echoes)])]

def echoedDeclarations : List Declaration := [
  .interface "A" none [⟨"x", .reference "A1", false, none⟩, ⟨"y", .reference "A11", false, none⟩]
    (some .unknown),
  .typeAlias "A1" none .unknown,
  .interface "A11" none [⟨"z", .reference "A2", false, none⟩] (some .unknown),
  .typeAlias "A2" none .unknown]

theorem echoedTitles_nodes :
    declaredNodes false "" echoedTitles = [⟨[], "A", echoedTitles⟩, ⟨["properties", "x"], "A", echo⟩,
      ⟨["properties", "y"], "A1", echoes⟩, ⟨["properties", "y", "properties", "z"], "A", echo⟩] := by
  have leaf : events false echo = [] := rfl
  have inner : events false echoes = [.visit ["properties", "z"] echo] := rfl
  have outer : events false echoedTitles =
      [.visit ["properties", "x"] echo, .visit ["properties", "y"] echoes] := rfl
  have root : rootName echoedTitles "" = "A" := by decide
  have first : nestedName? echo = some "A" := by decide
  have second : nestedName? echoes = some "A1" := by decide
  simp [declaredNodes, titledBelow, visitsInOrder_eq, leaf, inner, outer, root, Event.visits,
    titledVisit?, first, second]

/-- The second `a` takes `A1`, so that `a1` and the third `a` go on to the next free numbers. -/
theorem echoedTitles_named :
    echoedTitles.hasDistinctKeys = true ∧ NamesKindsOnce echoedTitles ∧
      ((Schema.ofJson echoedTitles).declarations "" false).outcome = .ok (echoedDeclarations, []) ∧
      IsFirstFree "A" ["A"] "A1" ∧ IsFirstFree "A1" ["A", "A1"] "A11" ∧
      IsFirstFree "A" ["A", "A1", "A11"] "A2" ∧
      ∃ inner, Carries false echoes ["A", "A1", "A11"] "A11"
        (.interface "A11" none [⟨"z", .reference "A2", false, none⟩] (some .unknown)) inner ∧
        inner <+: [.typeAlias "A2" none .unknown] := by
  have distinct : echoedTitles.hasDistinctKeys = true := rfl
  have once : NamesKindsOnce echoedTitles := by
    intro members node names found
    have untyped : echoedTitles.everyNode (fun members => !hasMember "type" members) = true := by
      decide
    simpa [hasMember, found] using Json.check_of_everyNode untyped node
  have succeeded : ((Schema.ofJson echoedTitles).declarations "" false).outcome =
      .ok (echoedDeclarations, []) := rfl
  have each := (declared_in_discovery_order echoedTitles "" false distinct once succeeded).2.2.2.2
  rw [echoedTitles_nodes] at each
  have second := each 1 _ _ rfl rfl
  have third := each 2 _ _ rfl rfl
  have fourth := each 3 _ _ rfl rfl
  exact ⟨distinct, once, succeeded, second.1, third.1, fourth.1, third.2⟩

end SchemaTypes
