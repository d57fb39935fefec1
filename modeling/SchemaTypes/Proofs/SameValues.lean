import SchemaTypes.Proofs.Soundness

namespace SchemaTypes

open Draft TypeExpr

/-- What inhabits the first type under the first declarations inhabits the other under the second. -/
def Within (first second : List Declaration) (type other : TypeExpr) : Prop :=
  ∀ value, Inhabits first value type → Inhabits second value other

theorem forall₂_meet {Source Left Right : Type} {left : Source → Left → Prop}
    {right : Source → Right → Prop} {relation : Left → Right → Prop} {sources : List Source}
    {lefts : List Left} {rights : List Right} (here : List.Forall₂ left sources lefts)
    (there : List.Forall₂ right sources rights)
    (meet : ∀ source ∈ sources, ∀ first second, left source first → right source second →
      relation first second) : List.Forall₂ relation lefts rights := by
  induction here generalizing rights with
  | nil =>
    cases there
    exact .nil
  | cons first _ ih =>
    cases there with
    | cons second others =>
      rw [List.forall_mem_cons] at meet
      exact .cons (meet.1 _ _ first second) (ih others meet.2)

section

variable {first second : List Declaration}

theorem within_unknown {type : TypeExpr} : Within first second type .unknown :=
  fun _ _ => .unknown

def isGround : TypeExpr → Bool
  | .unknown | .never | .null | .boolean | .number | .string | .literal _ | .verbatim _ => true
  | _ => false

theorem within_ground {type : TypeExpr} (ground : isGround type = true) : Within first second type type := by
  intro value inhabits
  cases inhabits with
  | unknown => exact .unknown
  | null => exact .null
  | boolean => exact .boolean
  | number => exact .number
  | string => exact .string
  | literal same => exact .literal same
  | _ => cases ground

theorem within_unionOf {types others : List TypeExpr}
    (each : List.Forall₂ (Within first second) types others) :
    Within first second (unionOf types) (unionOf others) := by
  intro value inhabits
  obtain ⟨type, inside, inhabits⟩ := inhabits_unionOf.mp inhabits
  obtain ⟨other, there, within⟩ := exists_right_of_mem each inside
  exact inhabits_unionOf.mpr ⟨other, there, within value inhabits⟩

theorem within_intersectionOf {types others : List TypeExpr}
    (each : List.Forall₂ (Within first second) types others) :
    Within first second (intersectionOf types) (intersectionOf others) := by
  intro value inhabits
  apply inhabits_intersectionOf.mpr
  intro other there
  obtain ⟨type, inside, within⟩ := exists_left_of_mem each there
  exact within value (inhabits_intersectionOf.mp inhabits type inside)

theorem within_list {item item' : TypeExpr} (within : Within first second item item') :
    Within first second (.list item) (.list item') := by
  intro value inhabits
  cases inhabits with
  | list each => exact .list fun element inside => within element (each element inside)

theorem within_tuple {elements elements' : List TypeExpr} {rest rest' : Option TypeExpr}
    (required : Nat) (each : List.Forall₂ (Within first second) elements elements')
    (after : Option.Rel (Within first second) rest rest') :
    Within first second (.tuple elements required rest) (.tuple elements' required rest') := by
  have lengths := each.length_eq
  intro value inhabits
  cases inhabits with
  | tuple enough limited spelled beyond =>
    refine .tuple enough ?_ ?_ ?_
    · rintro rfl
      cases after
      rw [← lengths]
      exact limited rfl
    · intro position element other here there
      obtain ⟨type, place, within⟩ := exists_left_at each there
      exact within element (spelled position element type here place)
    · rintro position element other here past rfl
      cases after with
      | some within =>
        exact within element (beyond position element _ here (by omega) rfl)

structure FieldWithin (first second : List Declaration) (field other : Field TypeExpr) : Prop where
  name : field.name = other.name
  required : field.required = other.required
  content : Within first second field.content other.content

theorem within_object {fields others : List (Field TypeExpr)} {index index' : Option TypeExpr}
    (each : List.Forall₂ (FieldWithin first second) fields others)
    (rest : Option.Rel (Within first second) index index') :
    Within first second (.object fields index) (.object others index') := by
  have names : fields.map (·.name) = others.map (·.name) := by
    rw [← List.forall₂_eq_eq_eq, List.forall₂_map_left_iff, List.forall₂_map_right_iff]
    exact each.imp fun _ _ within => within.name
  intro value inhabits
  cases inhabits with
  | object present declared closed indexed =>
    refine .object ?_ ?_ ?_ ?_
    · intro other there needed
      obtain ⟨field, inside, within⟩ := exists_left_of_mem each there
      rw [← within.name]
      exact present field inside (within.required.trans needed)
    · intro other there value here
      obtain ⟨field, inside, within⟩ := exists_left_of_mem each there
      rw [← within.name] at here
      exact within.content value (declared field inside value here)
    · rintro rfl
      cases rest
      rw [← names]
      exact closed rfl
    · rintro type rfl member inside undeclared
      cases rest with
      | some within =>
        rw [← names] at undeclared
        exact within member.2 (indexed _ rfl member inside undeclared)

theorem within_copies {item item' : TypeExpr} (within : Within first second item item')
    (count required : Nat) {rest rest' : Option TypeExpr}
    (after : Option.Rel (Within first second) rest rest') :
    Within first second (.tuple (List.replicate count item) required rest)
      (.tuple (List.replicate count item') required rest') := by
  apply within_tuple required _ after
  induction count with
  | zero => exact .nil
  | succ count ih => exact .cons within ih

theorem within_boundedList {item item' : TypeExpr} (within : Within first second item item')
    (least : Nat) (most : Option Nat) :
    Within first second (boundedList item least most) (boundedList item' least most) := by
  have fromLeast : Within first second (listFrom item least) (listFrom item' least) := by
    unfold listFrom
    split
    · exact within_list within
    · exact within_copies within least least (.some within)
  unfold boundedList
  split
  · exact fromLeast
  · split
    · exact within_list within
    · split
      · exact within_copies within _ least .none
      · exact fromLeast

theorem within_positionalTuple {elements elements' : List TypeExpr} {rest rest' : Option TypeExpr}
    (least : Option Nat) (each : List.Forall₂ (Within first second) elements elements')
    (after : Option.Rel (Within first second) rest rest') :
    Within first second (positionalTuple least elements rest) (positionalTuple least elements' rest') := by
  rw [positionalTuple, positionalTuple, each.length_eq]
  exact within_tuple _ each after

theorem forall₂_toList {relation : TypeExpr → TypeExpr → Prop} {type other : Option TypeExpr}
    (related : Option.Rel relation type other) : List.Forall₂ relation type.toList other.toList := by
  cases related with
  | none => exact .nil
  | some related => exact .cons related .nil

theorem within_combined {all any one all' any' one' : Option (List TypeExpr)}
    {typed typed' : Option TypeExpr}
    (inAll : Option.Rel (List.Forall₂ (Within first second)) all all')
    (inAny : Option.Rel (List.Forall₂ (Within first second)) any any')
    (inOne : Option.Rel (List.Forall₂ (Within first second)) one one')
    (inTyped : Option.Rel (Within first second) typed typed') :
    Within first second (combined all any one typed) (combined all' any' one' typed') := by
  have joined : ∀ (join : List TypeExpr → TypeExpr) (arms arms' : Option (List TypeExpr)),
      (∀ types others, List.Forall₂ (Within first second) types others →
        Within first second (join types) (join others)) →
      Option.Rel (List.Forall₂ (Within first second)) arms arms' →
        List.Forall₂ (Within first second) (arms.map join).toList (arms'.map join).toList := by
    intro join arms arms' kept related
    cases related with
    | none => exact .nil
    | some related => exact .cons (kept _ _ related) .nil
  apply within_intersectionOf
  refine List.rel_append (List.rel_append (List.rel_append ?_ ?_) ?_) (forall₂_toList inTyped)
  · exact joined intersectionOf all all' (fun _ _ => within_intersectionOf) inAll
  · exact joined unionOf any any' (fun _ _ => within_unionOf) inAny
  · exact joined unionOf one one' (fun _ _ => within_unionOf) inOne

variable {ignoreBounds : Bool}

/-- Placed under the first and under the second declarations, the schema keeps its values. -/
def KeepsValues (ignoreBounds : Bool) (first second : List Declaration) (schema : Schema) : Prop :=
  ∀ ⦃type other⦄, Placed ignoreBounds first schema type → Placed ignoreBounds second schema other →
    Within first second type other

theorem keeps_eachDraft {schemas : List Schema} {types others : List TypeExpr}
    (keeps : ∀ schema ∈ schemas, KeepsValues ignoreBounds first second schema)
    (placed : List.Forall₂ (Placed ignoreBounds first) schemas types)
    (placed' : List.Forall₂ (Placed ignoreBounds second) schemas others) :
    List.Forall₂ (Within first second) types others :=
  forall₂_meet placed placed' fun schema inside _ _ here there => keeps schema inside here there

theorem keeps_armDrafts {key : String} {keyword : Keyword (List Schema)}
    {arms arms' : Option (List TypeExpr)}
    (keeps : ∀ schema ∈ keyword.content?.getD [], KeepsValues ignoreBounds first second schema)
    (drawn : (armDrafts ignoreBounds key keyword).Contributes arms first)
    (drawn' : (armDrafts ignoreBounds key keyword).Contributes arms' second) :
    Option.Rel (List.Forall₂ (Within first second)) arms arms' := by
  cases keyword with
  | absent =>
    rw [contributes_pure drawn, contributes_pure drawn']
    exact .none
  | malformed fault => exact absurd drawn not_contributes_refuse
  | given schemas =>
    obtain ⟨types, inner, rfl⟩ := contributes_map drawn
    obtain ⟨others, inner', rfl⟩ := contributes_map drawn'
    exact .some (keeps_eachDraft keeps (placed_eachDraft (contributes_within inner))
      (placed_eachDraft (contributes_within inner')))

theorem keeps_fieldDrafts {required : List String} {keyword : Keyword (List (String × Schema))}
    {fields others : List (Field TypeExpr)}
    (keeps : ∀ schema ∈ (keyword.content?.getD []).map (·.2),
      KeepsValues ignoreBounds first second schema)
    (drawn : (fieldDrafts ignoreBounds required keyword).Contributes fields first)
    (drawn' : (fieldDrafts ignoreBounds required keyword).Contributes others second) :
    List.Forall₂ (FieldWithin first second) fields others := by
  rcases placed_fieldDrafts drawn with ⟨rfl, rfl⟩ | ⟨named, rfl, placed⟩
  · rw [contributes_pure drawn']
    exact .nil
  · rcases placed_fieldDrafts drawn' with ⟨absent, _⟩ | ⟨named', same, placed'⟩
    · cases absent
    · cases same
      refine forall₂_meet placed placed' ?_
      rintro member inside field other ⟨name, requires, here⟩ ⟨name', requires', there⟩
      have part := keeps member.2 (List.mem_map_of_mem inside)
      exact ⟨name.trans name'.symm, requires.trans requires'.symm, part here there⟩

theorem keeps_indexDraft {keyword : Keyword Schema} {index index' : Option TypeExpr}
    (keeps : ∀ schema ∈ keyword.content?.toList, KeepsValues ignoreBounds first second schema)
    (drawn : (indexDraft ignoreBounds keyword).Contributes index first)
    (drawn' : (indexDraft ignoreBounds keyword).Contributes index' second) :
    Option.Rel (Within first second) index index' := by
  cases keyword with
  | absent =>
    rw [contributes_pure drawn, contributes_pure drawn']
    exact .some within_unknown
  | malformed fault => exact absurd drawn not_contributes_refuse
  | given schema =>
    by_cases never : schema = .always false
    · subst never
      rw [contributes_pure drawn, contributes_pure drawn']
      exact .none
    · rw [indexDraft_given never] at drawn drawn'
      obtain ⟨type, inner, rfl⟩ := contributes_map drawn
      obtain ⟨other, inner', rfl⟩ := contributes_map drawn'
      exact .some (keeps schema (List.mem_singleton_self schema) (contributes_within inner)
        (contributes_within inner'))

theorem keeps_restDraft {full : Bool} {additionalItems : Option Schema}
    {rest rest' : Option TypeExpr}
    (keeps : ∀ schema ∈ additionalItems.toList, KeepsValues ignoreBounds first second schema)
    (drawn : (restDraft ignoreBounds full additionalItems).Contributes rest first)
    (drawn' : (restDraft ignoreBounds full additionalItems).Contributes rest' second) :
    Option.Rel (Within first second) rest rest' := by
  cases additionalItems with
  | none =>
    rw [contributes_pure drawn, contributes_pure drawn']
    cases full with
    | true => exact .none
    | false => exact .some within_unknown
  | some schema =>
    by_cases never : schema = .always false
    · subst never
      rw [contributes_pure drawn, contributes_pure drawn']
      exact .none
    · rw [restDraft_given never] at drawn drawn'
      cases full with
      | true =>
        rw [contributes_pure drawn, contributes_pure drawn']
        exact .none
      | false =>
        obtain ⟨type, inner, rfl⟩ := contributes_map drawn
        obtain ⟨other, inner', rfl⟩ := contributes_map drawn'
        exact .some (keeps schema (List.mem_singleton_self schema) (contributes_within inner)
          (contributes_within inner'))

theorem same_content {Content : Type} {default content content' : Content} {keyword : Keyword Content}
    (drawn : (Draft.ofKeyword default keyword).Contributes content first)
    (drawn' : (Draft.ofKeyword default keyword).Contributes content' second) : content = content' := by
  cases keyword with
  | absent => exact (contributes_pure drawn).trans (contributes_pure drawn').symm
  | malformed fault => exact absurd drawn not_contributes_refuse
  | given content => exact (contributes_pure drawn).trans (contributes_pure drawn').symm

theorem keeps_objectDraft {required : Keyword (List String)}
    {properties : Keyword (List (String × Schema))} {additionalProperties : Keyword Schema}
    {type other : TypeExpr}
    (keeps : ∀ schema ∈ (properties.content?.getD []).map (·.2),
      KeepsValues ignoreBounds first second schema)
    (keeps' : ∀ schema ∈ additionalProperties.content?.toList,
      KeepsValues ignoreBounds first second schema)
    (drawn : (objectDraft ignoreBounds required properties additionalProperties).Contributes type first)
    (drawn' : (objectDraft ignoreBounds required properties additionalProperties).Contributes other
      second) : Within first second type other := by
  obtain ⟨names, requiring, drawn⟩ := contributes_bind drawn
  obtain ⟨names', requiring', drawn'⟩ := contributes_bind drawn'
  obtain rfl := same_content requiring requiring'
  obtain ⟨fields, fielding, drawn⟩ := contributes_bind drawn
  obtain ⟨others, fielding', drawn'⟩ := contributes_bind drawn'
  obtain ⟨index, indexing, rfl⟩ := contributes_map drawn
  obtain ⟨index', indexing', rfl⟩ := contributes_map drawn'
  exact within_object (keeps_fieldDrafts keeps fielding fielding')
    (keeps_indexDraft keeps' indexing indexing')

theorem keeps_arrayDraft {head : Head} {items : Keyword (Items Schema)}
    {additionalItems : Option Schema} {type other : TypeExpr}
    (keeps : ∀ schema ∈ (items.content?.map Items.contents).getD [],
      KeepsValues ignoreBounds first second schema)
    (keeps' : ∀ schema ∈ additionalItems.toList, KeepsValues ignoreBounds first second schema)
    (drawn : (arrayDraft ignoreBounds head items additionalItems).Contributes type first)
    (drawn' : (arrayDraft ignoreBounds head items additionalItems).Contributes other second) :
    Within first second type other := by
  -- The keyword decides the case, so the two drafts are in the same one.
  rcases placed_itemsDraft drawn with ⟨rfl, rfl⟩ | ⟨schema, item, rfl, placed, rfl⟩ |
      ⟨schemas, types, rest, rfl, placed, resting, rfl⟩
  · rw [contributes_pure drawn']
    exact within_boundedList within_unknown _ _
  · rcases placed_itemsDraft drawn' with ⟨absent, _⟩ | ⟨schema', item', same, placed', rfl⟩ |
        ⟨_, _, _, other_kind, _⟩
    · cases absent
    · cases same
      exact within_boundedList (keeps schema (List.mem_singleton_self schema) placed placed') _ _
    · cases other_kind
  · rcases placed_itemsDraft drawn' with ⟨absent, _⟩ | ⟨_, _, other_kind, _⟩ |
        ⟨schemas', types', rest', same, placed', resting', rfl⟩
    · cases absent
    · cases other_kind
    · cases same
      have each := keeps_eachDraft keeps placed placed'
      have spelled : List.Forall₂ (Within first second)
          (noMoreThan (bound ignoreBounds head.maxItems) types)
          (noMoreThan (bound ignoreBounds head.maxItems) types') := by
        cases bound ignoreBounds head.maxItems with
        | none => exact each
        | some most => exact List.forall₂_take most each
      rw [← spelled.length_eq] at resting'
      exact within_positionalTuple _ spelled (keeps_restDraft keeps' resting resting')

theorem keeps_typedPart {kinds : Keyword (List Kind)} {object array : Draft TypeExpr}
    {typed typed' : Option TypeExpr}
    (objects : ∀ type other, object.Contributes type first → object.Contributes other second →
      Within first second type other)
    (arrays : ∀ type other, array.Contributes type first → array.Contributes other second →
      Within first second type other)
    (drawn : (typedPart kinds object array).Contributes typed first)
    (drawn' : (typedPart kinds object array).Contributes typed' second) :
    Option.Rel (Within first second) typed typed' := by
  have kindly : ∀ kind type other, (kindDraft object array kind).Contributes type first →
      (kindDraft object array kind).Contributes other second → Within first second type other := by
    intro kind type other here there
    cases kind with
    | object => exact objects type other here there
    | array => exact arrays type other here there
    | _ =>
      rw [contributes_pure here, contributes_pure there]
      exact within_ground rfl
  rcases contributes_typedPart drawn with ⟨rfl, rfl⟩ | ⟨named, types, rfl, rfl, each⟩
  · rw [contributes_pure drawn']
    exact .none
  · rcases contributes_typedPart drawn' with ⟨absent, _⟩ | ⟨named', types', same, rfl, each'⟩
    · cases absent
    · cases same
      exact .some (within_unionOf (forall₂_meet each each' fun kind _ => kindly kind))

theorem within_fixedType {head : Head} {type : TypeExpr} (fixed : fixedType head = .given type) :
    Within first second type type := by
  unfold fixedType at fixed
  split at fixed
  · cases fixed
    exact within_ground rfl
  · split at fixed
    · rename_i values _
      cases fixed
      apply within_unionOf
      rw [List.forall₂_map_left_iff, List.forall₂_map_right_iff, List.forall₂_same]
      exact fun value _ => within_ground rfl
    · cases fixed
    · split at fixed
      · cases fixed
        exact within_ground rfl
      · cases fixed

theorem keeps_body {schema : Schema} {type other : TypeExpr}
    (keeps : ∀ part ∈ schema.parts, KeepsValues ignoreBounds first second part)
    (drawn : (schema.body ignoreBounds).Contributes type first)
    (drawn' : (schema.body ignoreBounds).Contributes other second) : Within first second type other := by
  cases schema with
  | always admits =>
    cases admits <;>
    · rw [contributes_pure drawn, contributes_pure drawn']
      exact within_ground rfl
  | foreign =>
    obtain ⟨_, _, drawn⟩ := contributes_bind drawn
    obtain ⟨_, _, drawn'⟩ := contributes_bind drawn'
    rw [contributes_pure drawn, contributes_pure drawn']
    exact within_unknown
  | node head allOf anyOf oneOf properties additionalProperties items additionalItems =>
    simp only [Schema.parts, List.mem_append] at keeps
    rw [body_node] at drawn drawn'
    cases fixed : fixedType head with
    | given type =>
      rw [fixed] at drawn drawn'
      rw [contributes_pure drawn, contributes_pure drawn']
      exact within_fixedType fixed
    | malformed fault =>
      rw [fixed] at drawn
      exact absurd drawn not_contributes_refuse
    | absent =>
      rw [fixed] at drawn drawn'
      obtain ⟨all, allDrawn, drawn⟩ := contributes_bind drawn
      obtain ⟨any, anyDrawn, drawn⟩ := contributes_bind drawn
      obtain ⟨one, oneDrawn, drawn⟩ := contributes_bind drawn
      obtain ⟨typed, typedDrawn, drawn⟩ := contributes_bind drawn
      obtain ⟨all', allDrawn', drawn'⟩ := contributes_bind drawn'
      obtain ⟨any', anyDrawn', drawn'⟩ := contributes_bind drawn'
      obtain ⟨one', oneDrawn', drawn'⟩ := contributes_bind drawn'
      obtain ⟨typed', typedDrawn', drawn'⟩ := contributes_bind drawn'
      rw [contributes_pure drawn, contributes_pure drawn']
      apply within_combined
      · exact keeps_armDrafts (fun part inside => keeps part (by tauto)) allDrawn allDrawn'
      · exact keeps_armDrafts (fun part inside => keeps part (by tauto)) anyDrawn anyDrawn'
      · exact keeps_armDrafts (fun part inside => keeps part (by tauto)) oneDrawn oneDrawn'
      · refine keeps_typedPart ?_ ?_ typedDrawn typedDrawn'
        · exact fun _ _ => keeps_objectDraft (fun part inside => keeps part (by tauto))
            fun part inside => keeps part (by tauto)
        · exact fun _ _ => keeps_arrayDraft (fun part inside => keeps part (by tauto))
            fun part inside => keeps part (by tauto)

theorem within_declaration {name name' : String} {taken taken' : List String} {schema : Schema}
    {body : Draft TypeExpr} {declaration declaration' : Declaration} {inner inner' : List Declaration}
    (keeps : ∀ type other, body.Contributes type first → body.Contributes other second →
      Within first second type other)
    (drafted : (declarationDraft name schema body).Yields taken declaration inner)
    (drafted' : (declarationDraft name' schema body).Yields taken' declaration' inner')
    (inside : inner ⊆ first) (inside' : inner' ⊆ second) :
    Within first second declaration.type declaration'.type := by
  cases named : schema.head?.bind enumMembers? with
  | some members =>
    rw [declarationDraft, named] at drafted drafted'
    obtain ⟨rfl, _⟩ := yields_pure.mp drafted
    obtain ⟨rfl, _⟩ := yields_pure.mp drafted'
    intro value inhabits
    cases inhabits with
    | union here same =>
      obtain ⟨member, _, rfl⟩ := List.mem_map.mp here
      exact .union here (within_ground rfl value same)
  | none =>
    rw [declarationDraft, named] at drafted drafted'
    obtain ⟨type, typed, rfl⟩ := yields_map.mp drafted
    obtain ⟨other, typed', rfl⟩ := yields_map.mp drafted'
    rw [declarationOfType_type, declarationOfType_type]
    exact keeps type other (typed.contributes.mono inside) (typed'.contributes.mono inside')

theorem within_reference {declaration other : Declaration}
    (found : declarationNamed? first declaration.name = some declaration)
    (found' : declarationNamed? second other.name = some other)
    (within : Within first second declaration.type other.type) :
    Within first second (.reference declaration.name) (.reference other.name) := by
  intro value inhabits
  cases inhabits with
  | reference here declared =>
    obtain rfl := Option.some.inj (found.symm.trans here)
    exact .reference found' (within value declared)

theorem keeps_place (distinct : (first.map Declaration.name).Nodup)
    (distinct' : (second.map Declaration.name).Nodup) {schema : Schema} {body : Draft TypeExpr}
    {type other : TypeExpr}
    (keeps : ∀ type other, body.Contributes type first → body.Contributes other second →
      Within first second type other)
    (drawn : (place schema body).Contributes type first)
    (drawn' : (place schema body).Contributes other second) : Within first second type other := by
  unfold place at drawn drawn'
  cases base : declaredBase? schema with
  | none =>
    rw [base] at drawn drawn'
    exact keeps type other drawn drawn'
  | some base' =>
    rw [base] at drawn drawn'
    obtain ⟨taken, declared, yields, inside⟩ := drawn
    obtain ⟨taken', declared', yields', inside'⟩ := drawn'
    obtain ⟨declaration, inner, drafted, rfl, rfl⟩ := yields_declare yields
    obtain ⟨declaration', inner', drafted', rfl, rfl⟩ := yields_declare yields'
    obtain ⟨here, within⟩ := List.cons_subset.mp inside
    obtain ⟨here', within'⟩ := List.cons_subset.mp inside'
    rw [← declarationDraft_name drafted, ← declarationDraft_name drafted']
    exact within_reference (declarationNamed?_of_mem distinct here)
      (declarationNamed?_of_mem distinct' here')
      (within_declaration keeps drafted drafted' within within')

/-- Any two placements of a schema have the same values, whatever else is declared beside them. -/
theorem keepsValues (distinct : (first.map Declaration.name).Nodup)
    (distinct' : (second.map Declaration.name).Nodup) (schema : Schema) :
    KeepsValues ignoreBounds first second schema := by
  induction schema using Schema.partsInduction with
  | step schema ih =>
    intro type other placed placed'
    exact keeps_place distinct distinct' (fun _ _ => keeps_body ih) placed placed'

end

/-- The value inhabits the type of the schema, wherever it may have been placed. -/
def Schema.Admits (ignoreBounds : Bool) (schema : Schema) (value : Json) : Prop :=
  ∃ environment type, (environment.map Declaration.name).Nodup ∧
    Placed ignoreBounds environment schema type ∧ Inhabits environment value type

theorem inhabits_iff_admits {ignoreBounds : Bool} {environment : List Declaration} {schema : Schema}
    {type : TypeExpr} (distinct : (environment.map Declaration.name).Nodup)
    (placed : Placed ignoreBounds environment schema type) (value : Json) :
    Inhabits environment value type ↔ schema.Admits ignoreBounds value := by
  constructor
  · exact fun inhabits => ⟨environment, type, distinct, placed, inhabits⟩
  · rintro ⟨other, type', distinct', placed', inhabits⟩
    exact keepsValues distinct' distinct schema placed' placed value inhabits

end SchemaTypes
