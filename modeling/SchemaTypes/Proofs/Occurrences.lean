import SchemaTypes.Marker
import SchemaTypes.Proofs.Invariants
import SchemaTypes.Proofs.TypeParts

namespace SchemaTypes

namespace TypeExpr

inductive Occurs (part : TypeExpr) : TypeExpr → Prop
  | here : Occurs part part
  | deeper {type below : TypeExpr} (inside : below ∈ type.inner) (occurs : Occurs part below) :
      Occurs part type

variable {Property : TypeExpr → Prop}

def Deeply (Property : TypeExpr → Prop) (type : TypeExpr) : Prop :=
  ∀ part : TypeExpr, part.Occurs type → Property part

theorem deeply_of_inner {type : TypeExpr} (here : Property type)
    (each : ∀ part ∈ type.inner, Deeply Property part) : Deeply Property type := by
  intro part occurs
  cases occurs with
  | here => exact here
  | deeper inside occurs => exact each _ inside part occurs

theorem deeply_of_bare {type : TypeExpr} (here : Property type) (bare : type.inner = []) :
    Deeply Property type := by
  apply deeply_of_inner here
  rw [bare]
  exact List.forall_mem_nil _

theorem Deeply.inner {type part : TypeExpr} (deeply : Deeply Property type) (inside : part ∈ type.inner) :
    Deeply Property part :=
  fun below occurs => deeply below (.deeper inside occurs)

theorem Deeply.arm {type arm : TypeExpr} (deeply : Deeply Property type) (inside : arm ∈ type.arms) :
    Deeply Property arm := by
  cases type with
  | union arms => exact deeply.inner inside
  | _ =>
    obtain rfl := List.mem_singleton.mp inside
    exact deeply

theorem Deeply.part {type part : TypeExpr} (deeply : Deeply Property type) (inside : part ∈ type.parts) :
    Deeply Property part := by
  cases type with
  | intersection parts => exact deeply.inner inside
  | _ =>
    obtain rfl := List.mem_singleton.mp inside
    exact deeply

theorem two_le_length {types : List TypeExpr} (filled : types ≠ []) (several : ∀ type, types ≠ [type]) :
    2 ≤ types.length := by
  match types with
  | [] => exact absurd rfl filled
  | [type] => exact absurd rfl (several type)
  | _ :: _ :: types => simp

theorem deeply_unionOf {types : List TypeExpr} (each : ∀ type ∈ types, Deeply Property type)
    (nothing : Property never)
    (several : 2 ≤ (distinct (types.flatMap arms)).length →
      Property (union (distinct (types.flatMap arms)))) : Deeply Property (unionOf types) := by
  have merged : ∀ arm ∈ distinct (types.flatMap arms), Deeply Property arm := by
    intro arm kept
    obtain ⟨type, inside, here⟩ := List.mem_flatMap.mp (distinct_subset _ kept)
    exact (each type inside).arm here
  unfold unionOf
  split
  · exact deeply_of_bare nothing rfl
  · rename_i arm alone
    exact merged arm (by simp [alone])
  · rename_i filled more
    exact deeply_of_inner (several (two_le_length filled more)) merged

theorem deeply_intersectionOf {types : List TypeExpr} (each : ∀ type ∈ types, Deeply Property type)
    (nothing : Property unknown)
    (several : 2 ≤ (types.flatMap parts).length → Property (intersection (types.flatMap parts))) :
    Deeply Property (intersectionOf types) := by
  have merged : ∀ part ∈ types.flatMap parts, Deeply Property part := by
    intro part kept
    obtain ⟨type, inside, here⟩ := List.mem_flatMap.mp kept
    exact (each type inside).part here
  unfold intersectionOf
  split
  · exact deeply_of_bare nothing rfl
  · rename_i part alone
    exact merged part (by simp [alone])
  · rename_i filled more
    exact deeply_of_inner (several (two_le_length filled more)) merged

end TypeExpr

def Declaration.Contains (part : TypeExpr) : Declaration → Prop
  | interface _ _ fields index => part.Occurs (.object fields index)
  | typeAlias _ _ type => part.Occurs type
  | enumeration _ _ _ => False

open TypeExpr

/-- What is needed of a property of types for typing to come to types that have it throughout. -/
structure DeepRules (ignoreBounds : Bool) (environment : List Declaration) (apt : Schema → Prop)
    (Property : TypeExpr → Prop) : Prop where
  plain : ∀ type ∈ [unknown, never, null, boolean, number, string], Property type
  literal : ∀ value, Property (.literal value)
  reference : ∀ name, Property (.reference name)
  verbatim : ∀ schema text, apt schema → schema.head?.bind (·.verbatim) = some text →
    Property (.verbatim text)
  list : ∀ item, Property (.list item)
  tuple : ∀ elements required rest, required ≤ elements.length → Property (.tuple elements required rest)
  object : ∀ schema fields index, apt schema →
    schema.DraftsObject ignoreBounds environment fields index → Property (.object fields index)
  union : ∀ types : List TypeExpr, (∀ type ∈ types, Deeply Property type) →
    2 ≤ (distinct (types.flatMap arms)).length → Property (.union (distinct (types.flatMap arms)))
  intersection : ∀ types : List TypeExpr, (∀ type ∈ types, Deeply Property type) →
    2 ≤ (types.flatMap parts).length → Property (.intersection (types.flatMap parts))

theorem DeepRules.invariant {ignoreBounds : Bool} {environment : List Declaration} {apt : Schema → Prop}
    {Property : TypeExpr → Prop} (rules : DeepRules ignoreBounds environment apt Property) :
    TypingInvariant ignoreBounds environment apt (Deeply Property) where
  unknown := deeply_of_bare (rules.plain _ (by simp)) rfl
  never := deeply_of_bare (rules.plain _ (by simp)) rfl
  null := deeply_of_bare (rules.plain _ (by simp)) rfl
  boolean := deeply_of_bare (rules.plain _ (by simp)) rfl
  number := deeply_of_bare (rules.plain _ (by simp)) rfl
  string := deeply_of_bare (rules.plain _ (by simp)) rfl
  literal value := deeply_of_bare (rules.literal value) rfl
  reference name _ := deeply_of_bare (rules.reference name) rfl
  verbatim schema text here given := deeply_of_bare (rules.verbatim schema text here given) rfl
  list item holds := by
    refine deeply_of_inner (rules.list item) fun part inside => ?_
    obtain rfl := List.mem_singleton.mp inside
    exact holds
  tuple elements required rest enough holds holds' := by
    refine deeply_of_inner (rules.tuple elements required rest enough) fun part inside => ?_
    rcases List.mem_append.mp inside with spelled | after
    · exact holds part spelled
    · exact holds' part (Option.mem_toList.mp after)
  object schema fields index here drafted holds holds' := by
    refine deeply_of_inner (rules.object schema fields index here drafted) fun part inside => ?_
    rcases List.mem_append.mp inside with named | indexed
    · obtain ⟨field, given, rfl⟩ := List.mem_map.mp named
      exact holds field given
    · exact holds' part (Option.mem_toList.mp indexed)
  union types each := deeply_unionOf each (rules.plain _ (by simp)) (rules.union types each)
  intersection types each :=
    deeply_intersectionOf each (rules.plain _ (by simp)) (rules.intersection types each)

/-- What an object node drafts for its members, where the environment has all declarations. -/
def DraftedFor (ignoreBounds : Bool) (environment : List Declaration) (members : List (String × Json))
    (fields : List (Field TypeExpr)) (index : Option TypeExpr) : Prop :=
  (objectDraft ignoreBounds (readHead members).required (Schema.propertiesOf members)
    (Schema.additionalPropertiesOf members)).Contributes (.object fields index) environment

/-- A text is the hint of a node in the value, and an object was drafted for one. -/
def IsSourced (ignoreBounds : Bool) (environment : List Declaration) (value : Json) : TypeExpr → Prop
  | .verbatim text => ∃ members, HasNode value members ∧ stringMember hintKey members = some text
  | .object fields index =>
    ∃ members, HasNode value members ∧ DraftedFor ignoreBounds environment members fields index
  | _ => True

section

variable {ignoreBounds : Bool} {environment : List Declaration} {value : Json}

def Sourced (ignoreBounds : Bool) (environment : List Declaration) (value : Json) (type : TypeExpr) :
    Prop :=
  ∀ part : TypeExpr, part.Occurs type → IsSourced ignoreBounds environment value part

structure SchemaSourced (ignoreBounds : Bool) (environment : List Declaration) (value : Json)
    (schema : Schema) : Prop where
  hinted : ∀ text, schema.head?.bind (·.verbatim) = some text →
    IsSourced ignoreBounds environment value (.verbatim text)
  drafted : ∀ fields index, schema.DraftsObject ignoreBounds environment fields index →
    IsSourced ignoreBounds environment value (.object fields index)

/-- Typing takes its texts and its objects from the schemas that it types. -/
theorem sourced_invariant : TypingInvariant ignoreBounds environment
    (SchemaSourced ignoreBounds environment value) (Sourced ignoreBounds environment value) := by
  have rules : DeepRules ignoreBounds environment (SchemaSourced ignoreBounds environment value)
      (IsSourced ignoreBounds environment value) := {
    plain := by simp [IsSourced]
    literal _ := trivial
    reference _ := trivial
    verbatim schema text here given := here.hinted text given
    list _ := trivial
    tuple _ _ _ _ := trivial
    object schema fields index here drafted := here.drafted fields index drafted
    union _ _ _ := trivial
    intersection _ _ _ := trivial }
  exact rules.invariant

theorem throughout_sourced : (Schema.ofJson value).Throughout
    (SchemaSourced ignoreBounds environment value) := by
  apply throughout_ofJson
  · intro schema bare
    refine ⟨fun text given => ?_, fun fields index drafted => ?_⟩
    · rw [bare] at given
      cases given
    · cases schema with
      | node => cases bare
      | _ => exact drafted.elim
  · intro members node
    rw [ofJson_object]
    exact ⟨fun text given => ⟨members, node, given⟩, fun fields index drafted => ⟨members, node, drafted⟩⟩

theorem sourced_of_contains {suggested : String}
    (drawn : ((Schema.ofJson value).declarations suggested ignoreBounds).outcome =
      .ok (environment, []))
    {declaration : Declaration} (inside : declaration ∈ environment) {part : TypeExpr}
    (contains : declaration.Contains part) : IsSourced ignoreBounds environment value part := by
  have holds := declarations_hold sourced_invariant throughout_sourced drawn declaration inside
  cases declaration with
  | interface => exact holds part contains
  | typeAlias => exact holds part contains
  | enumeration => exact contains.elim

end

theorem hint_of_contains {value : Json} {suggested : String} {ignoreBounds : Bool}
    {declarations : List Declaration}
    (drawn : ((Schema.ofJson value).declarations suggested ignoreBounds).outcome =
      .ok (declarations, []))
    {declaration : Declaration} (inside : declaration ∈ declarations) {text : String}
    (contains : declaration.Contains (.verbatim text)) :
    ∃ members, HasNode value members ∧ stringMember hintKey members = some text :=
  sourced_of_contains drawn inside contains

theorem node_of_contains {value : Json} {suggested : String} {ignoreBounds : Bool}
    {declarations : List Declaration}
    (drawn : ((Schema.ofJson value).declarations suggested ignoreBounds).outcome =
      .ok (declarations, []))
    {declaration : Declaration} (inside : declaration ∈ declarations)
    {fields : List (Field TypeExpr)} {index : Option TypeExpr}
    (contains : declaration.Contains (.object fields index)) :
    ∃ members, HasNode value members ∧
      DraftedFor ignoreBounds declarations members fields index :=
  sourced_of_contains drawn inside contains

end SchemaTypes
