import SchemaTypes.Proofs.Namespace
import SchemaTypes.Proofs.SchemaNodes

/-!
What typing keeps. A property of types that the ways to compose them keep, at the nodes that a schema
is made of, holds of every type and every declaration that typing comes to.
-/

namespace SchemaTypes

/-- Whenever the draft succeeds with declarations of the environment, its content and these declarations
are as described. -/
def Draft.Ensures {Content : Type} (environment : List Declaration) (good : Content → Prop)
    (sound : Declaration → Prop) (draft : Draft Content) : Prop :=
  ∀ ⦃taken : List String⦄ ⦃content : Content⦄ ⦃declared : List Declaration⦄,
    draft.Yields taken content declared → declared ⊆ environment →
      good content ∧ ∀ declaration ∈ declared, sound declaration

namespace Draft

variable {Content Other : Type} {good : Content → Prop} {good' : Other → Prop}
  {sound : Declaration → Prop} {environment : List Declaration}

theorem ensures_pure {content : Content} (holds : good content) :
    (pure content : Draft Content).Ensures environment good sound := by
  intro taken result declared drawn _
  obtain ⟨rfl, rfl⟩ := yields_pure.mp drawn
  exact ⟨holds, by simp⟩

theorem ensures_refuse {fault : Fault} : (refuse fault : Draft Content).Ensures environment good sound :=
  fun _ _ _ drawn _ => absurd drawn not_yields_refuse

theorem ensures_warn : warn.Ensures environment (fun _ => True) sound := by
  intro taken content declared drawn _
  obtain rfl := yields_warn.mp drawn
  exact ⟨trivial, by simp⟩

theorem ensures_within {tokens : Pointer} {draft : Draft Content}
    (ensures : draft.Ensures environment good sound) :
    (draft.within tokens).Ensures environment good sound :=
  fun _ _ _ drawn => ensures (yields_within.mp drawn)

theorem ensures_map {make : Content → Other} {draft : Draft Content}
    (ensures : draft.Ensures environment good sound)
    (kept : ∀ content, good content → good' (make content)) :
    (make <$> draft).Ensures environment good' sound := by
  intro taken result declared drawn within
  obtain ⟨content, inner, rfl⟩ := yields_map.mp drawn
  exact (ensures inner within).imp_left (kept content)

theorem ensures_bind {draft : Draft Content} {next : Content → Draft Other}
    (ensures : draft.Ensures environment good sound)
    (later : ∀ content, good content → (next content).Ensures environment good' sound) :
    (draft >>= next).Ensures environment good' sound := by
  intro taken result declared drawn within
  obtain ⟨content, first, second, here, there, rfl⟩ := yields_bind.mp drawn
  obtain ⟨inFront, inBack⟩ := List.append_subset.mp within
  obtain ⟨holds, front⟩ := ensures here inFront
  obtain ⟨holds', back⟩ := later content holds there inBack
  refine ⟨holds', fun declaration inside => ?_⟩
  rcases List.mem_append.mp inside with inFirst | inSecond
  · exact front declaration inFirst
  · exact back declaration inSecond

theorem ensures_each {Source : Type} {draft : Source → Draft Content}
    {good : Source → Content → Prop} {sources : List Source}
    (ensures : ∀ source ∈ sources, (draft source).Ensures environment (good source) sound) :
    (each draft sources).Ensures environment (List.Forall₂ good sources) sound := by
  induction sources with
  | nil => exact ensures_pure List.Forall₂.nil
  | cons source sources ih =>
    rw [List.forall_mem_cons] at ensures
    apply ensures_bind ensures.1
    intro content holds
    exact ensures_map (ih ensures.2) fun contents others => List.Forall₂.cons holds others

end Draft

def Declaration.Holds (good : TypeExpr → Prop) : Declaration → Prop
  | interface _ _ fields index => good (.object fields index)
  | typeAlias _ _ type => good type
  | enumeration _ _ _ => True

/-- The schema and every schema in it, at any depth, are apt. -/
inductive Schema.Throughout (apt : Schema → Prop) : Schema → Prop
  | intro {schema : Schema} (here : apt schema)
      (below : ∀ part ∈ schema.parts, Throughout apt part) : Throughout apt schema

/-- The schema is a node that drafted an object for its members, with declarations of the environment. -/
def Schema.DraftsObject (ignoreBounds : Bool) (environment : List Declaration) (schema : Schema)
    (fields : List (Field TypeExpr)) (index : Option TypeExpr) : Prop :=
  match schema with
  | node head _ _ _ properties additionalProperties _ _ =>
    (objectDraft ignoreBounds head.required properties additionalProperties).Contributes
      (.object fields index) environment
  | _ => False

/-- A property of types that all ways to compose them keep, at schemas that are apt. -/
structure TypingInvariant (ignoreBounds : Bool) (environment : List Declaration)
    (apt : Schema → Prop) (good : TypeExpr → Prop) : Prop where
  unknown : good .unknown
  never : good .never
  null : good .null
  boolean : good .boolean
  number : good .number
  string : good .string
  literal : ∀ value, good (.literal value)
  verbatim : ∀ schema text, apt schema → schema.head?.bind (·.verbatim) = some text →
    good (.verbatim text)
  reference : ∀ name, isTypeName name.toList = true → good (.reference name)
  list : ∀ item, good item → good (.list item)
  tuple : ∀ elements required rest, required ≤ elements.length →
    (∀ element ∈ elements, good element) → (∀ type, rest = some type → good type) →
      good (.tuple elements required rest)
  object : ∀ schema fields index, apt schema →
    schema.DraftsObject ignoreBounds environment fields index →
      (∀ field ∈ fields, good field.content) → (∀ type, index = some type → good type) →
        good (.object fields index)
  union : ∀ types, (∀ type ∈ types, good type) → good (TypeExpr.unionOf types)
  intersection : ∀ types, (∀ type ∈ types, good type) → good (TypeExpr.intersectionOf types)

open Draft

theorem forall_of_forall₂ {Source Content : Type} {relation : Source → Content → Prop}
    {good : Content → Prop} {sources : List Source} {contents : List Content}
    (each : List.Forall₂ relation sources contents)
    (holds : ∀ source content, relation source content → good content) :
    ∀ content ∈ contents, good content := by
  induction each with
  | nil => simp
  | cons first _ ih => exact List.forall_mem_cons.mpr ⟨holds _ _ first, ih⟩

section

variable {apt : Schema → Prop} {good : TypeExpr → Prop} {ignoreBounds : Bool}
  {sound : Declaration → Prop} {environment : List Declaration}

def PlacedGood (environment : List Declaration) (good : TypeExpr → Prop) (sound : Declaration → Prop)
    (ignoreBounds : Bool) (schemas : List Schema) : Prop :=
  ∀ schema ∈ schemas,
    (place schema (schema.body ignoreBounds)).Ensures environment good sound

theorem ensures_eachDraft {schemas : List Schema}
    (placed : PlacedGood environment good sound ignoreBounds schemas) (index : Nat) :
    (eachDraft ignoreBounds index schemas).Ensures environment
      (fun types => ∀ type ∈ types, good type) sound := by
  rw [eachDraft_eq_each]
  have placed' : ∀ entry ∈ schemas.zipIdx index,
      ((place entry.1 (entry.1.body ignoreBounds)).within [Nat.repr entry.2]).Ensures environment
        good sound :=
    fun entry inside => ensures_within (placed entry.1 (List.fst_mem_of_mem_zipIdx inside))
  have drafts := ensures_each placed'
  intro taken types declared drawn within
  exact (drafts drawn within).imp_left fun each => forall_of_forall₂ each fun _ _ holds => holds

theorem ensures_armDrafts {key : String} {keyword : Keyword (List Schema)}
    (placed : PlacedGood environment good sound ignoreBounds (keyword.content?.getD [])) :
    (armDrafts ignoreBounds key keyword).Ensures environment
      (fun arms => ∀ types, arms = some types → ∀ type ∈ types, good type) sound := by
  cases keyword with
  | absent => exact ensures_pure (by simp)
  | malformed fault => exact ensures_refuse
  | given schemas =>
    apply ensures_map (ensures_within (ensures_eachDraft placed 0))
    rintro types holds _ ⟨⟩
    exact holds

theorem ensures_fieldDrafts {required : List String} {keyword : Keyword (List (String × Schema))}
    (placed : PlacedGood environment good sound ignoreBounds ((keyword.content?.getD []).map (·.2))) :
    (fieldDrafts ignoreBounds required keyword).Ensures environment
      (fun fields => ∀ field ∈ fields, good field.content) sound := by
  cases keyword with
  | absent => exact ensures_pure (by simp)
  | malformed fault => exact ensures_refuse
  | given named =>
    simp only [fieldDrafts, eachField_eq_each]
    have placed' : ∀ member ∈ named, (fieldDraft ignoreBounds required member).Ensures environment
        (fun field => good field.content) sound :=
      fun member inside =>
        ensures_map (ensures_within (placed member.2 (List.mem_map_of_mem inside)))
          fun type holds => holds
    have drafts := ensures_each placed'
    apply ensures_within
    intro taken fields declared drawn within
    exact (drafts drawn within).imp_left fun each => forall_of_forall₂ each fun _ _ holds => holds

theorem good_declaration {type : TypeExpr} (holds : good type) (name : String)
    (docs : Option String) : (declarationOfType name docs type).Holds good := by
  cases type <;> exact holds

/-- Everything that an apt schema is declared as in the environment is sound, once its type keeps the
property. -/
def SoundDeclarations (apt : Schema → Prop) (good : TypeExpr → Prop) (sound : Declaration → Prop)
    (environment : List Declaration) (ignoreBounds : Bool) : Prop :=
  ∀ ⦃schema base⦄, apt schema → declaredBase? schema = some base →
    ∀ ⦃taken declaration inner⦄,
      (declarationDraft (freshName base taken) schema (schema.body ignoreBounds)).Yields
        (taken ++ [freshName base taken]) declaration inner →
      inner ⊆ environment → declaration.Holds good → sound declaration

variable (invariant : TypingInvariant ignoreBounds environment apt good)

include invariant

theorem ensures_indexDraft {keyword : Keyword Schema}
    (placed : PlacedGood environment good sound ignoreBounds keyword.content?.toList) :
    (indexDraft ignoreBounds keyword).Ensures environment
      (fun index => ∀ type, index = some type → good type) sound := by
  unfold indexDraft
  split
  · apply ensures_pure
    rintro _ ⟨⟩
    exact invariant.unknown
  · exact ensures_refuse
  · exact ensures_pure (by simp)
  · rename_i schema _
    apply ensures_map (ensures_within (placed schema (by simp [Keyword.content?])))
    rintro type holds _ ⟨⟩
    exact holds

theorem ensures_restDraft {full : Bool} {additionalItems : Option Schema}
    (placed : PlacedGood environment good sound ignoreBounds additionalItems.toList) :
    (restDraft ignoreBounds full additionalItems).Ensures environment
      (fun rest => ∀ type, rest = some type → good type) sound := by
  unfold restDraft
  split
  · exact ensures_pure (by simp)
  · rename_i schema _
    split
    · exact ensures_pure (by simp)
    · apply ensures_map (ensures_within (placed schema (by simp)))
      rintro type holds _ ⟨⟩
      exact holds
  · apply ensures_pure
    split
    · simp
    · rintro _ ⟨⟩
      exact invariant.unknown

theorem good_listFrom {item : TypeExpr} (holds : good item) (least : Nat) :
    good (listFrom item least) := by
  unfold listFrom
  split
  · exact invariant.list item holds
  · apply invariant.tuple
    · exact Nat.le_of_eq List.length_replicate.symm
    · intro element inside
      rw [List.eq_of_mem_replicate inside]
      exact holds
    · rintro _ ⟨⟩
      exact holds

theorem good_boundedList {item : TypeExpr} (holds : good item) (least : Nat) (most : Option Nat) :
    good (boundedList item least most) := by
  unfold boundedList
  split
  · exact good_listFrom invariant holds least
  · rename_i most
    split
    · exact invariant.list item holds
    · rename_i enough
      split
      · apply invariant.tuple
        · rw [List.length_replicate]
          omega
        · intro element inside
          rw [List.eq_of_mem_replicate inside]
          exact holds
        · simp
      · exact good_listFrom invariant holds least

theorem ensures_itemsDraft {least most : Option Nat} {restOf : Bool → Draft (Option TypeExpr)}
    {keyword : Keyword (Items Schema)}
    (placed : PlacedGood environment good sound ignoreBounds
      ((keyword.content?.map Items.contents).getD []))
    (rest : ∀ full, (restOf full).Ensures environment
      (fun rest => ∀ type, rest = some type → good type) sound) :
    (itemsDraft ignoreBounds least most restOf keyword).Ensures environment good sound := by
  unfold itemsDraft
  split
  · exact ensures_pure (good_boundedList invariant invariant.unknown _ most)
  · exact ensures_refuse
  · rename_i schema
    have part := placed schema (by simp [Keyword.content?, Items.contents])
    refine ensures_bind (ensures_within part) fun item holds => ensures_pure ?_
    exact good_boundedList invariant holds _ most
  · rename_i schemas
    apply ensures_bind (ensures_within (ensures_eachDraft placed 0))
    intro types holds
    refine ensures_bind (rest _) fun after holds' => ensures_pure ?_
    apply invariant.tuple
    · exact Nat.min_le_right _ _
    · intro element inside
      cases most with
      | none => exact holds element inside
      | some most => exact holds element (List.mem_of_mem_take inside)
    · exact holds'

theorem ensures_kindDraft {object array : Draft TypeExpr}
    (objects : object.Ensures environment good sound)
    (arrays : array.Ensures environment good sound) (kind : Kind) :
    (kindDraft object array kind).Ensures environment good sound := by
  cases kind with
  | string => exact ensures_pure invariant.string
  | number => exact ensures_pure invariant.number
  | integer => exact ensures_pure invariant.number
  | boolean => exact ensures_pure invariant.boolean
  | null => exact ensures_pure invariant.null
  | object => exact objects
  | array => exact arrays
  | other => exact ensures_pure invariant.unknown

theorem ensures_typedPart {kinds : Keyword (List Kind)} {object array : Draft TypeExpr}
    (objects : object.Ensures environment good sound)
    (arrays : array.Ensures environment good sound) :
    (typedPart kinds object array).Ensures environment
      (fun typed => ∀ type, typed = some type → good type) sound := by
  cases kinds with
  | absent => exact ensures_pure (by simp)
  | malformed fault => exact ensures_refuse
  | given kinds =>
    simp only [typedPart, kindDrafts_eq_each]
    have drafted : ∀ kind ∈ kinds,
        (kindDraft object array kind).Ensures environment good sound :=
      fun kind _ => ensures_kindDraft invariant objects arrays kind
    apply ensures_map (ensures_each drafted)
    rintro types each _ ⟨⟩
    exact invariant.union types (forall_of_forall₂ each fun _ _ holds => holds)

theorem ensures_objectDraft {required : Keyword (List String)}
    {properties : Keyword (List (String × Schema))} {additionalProperties : Keyword Schema}
    (placed : PlacedGood environment good sound ignoreBounds ((properties.content?.getD []).map (·.2)))
    (placed' : PlacedGood environment good sound ignoreBounds additionalProperties.content?.toList)
    (drafted : ∀ fields index,
      (objectDraft ignoreBounds required properties additionalProperties).Contributes
        (.object fields index) environment →
      (∀ field ∈ fields, good field.content) → (∀ type, index = some type → good type) →
        good (.object fields index)) :
    (objectDraft ignoreBounds required properties additionalProperties).Ensures environment good
      sound := by
  intro taken type declared drawn within
  have requiring : (Draft.ofKeyword [] required).Ensures environment (fun _ => True) sound := by
    intro taken names declared drawn _
    obtain ⟨rfl, _⟩ := yields_ofKeyword drawn
    exact ⟨trivial, by simp⟩
  have parts : (objectDraft ignoreBounds required properties additionalProperties).Ensures environment
      (fun type => ∃ fields index, type = .object fields index ∧
        (∀ field ∈ fields, good field.content) ∧ ∀ type, index = some type → good type) sound := by
    refine ensures_bind requiring fun names _ => ?_
    refine ensures_bind (ensures_fieldDrafts placed) fun fields inFields => ?_
    apply ensures_map (ensures_indexDraft invariant placed')
    exact fun index inIndex => ⟨fields, index, rfl, inFields, inIndex⟩
  obtain ⟨⟨fields, index, rfl, inFields, inIndex⟩, sounds⟩ := parts drawn within
  exact ⟨drafted fields index ⟨taken, declared, drawn, within⟩ inFields inIndex, sounds⟩

theorem good_combined {all any one : Option (List TypeExpr)} {typed : Option TypeExpr}
    (inAll : ∀ types, all = some types → ∀ type ∈ types, good type)
    (inAny : ∀ types, any = some types → ∀ type ∈ types, good type)
    (inOne : ∀ types, one = some types → ∀ type ∈ types, good type)
    (inTyped : ∀ type, typed = some type → good type) : good (combined all any one typed) := by
  apply invariant.intersection
  intro type inside
  simp only [List.mem_append, Option.mem_toList, Option.map_eq_some_iff] at inside
  rcases inside with ((⟨types, given, rfl⟩ | ⟨types, given, rfl⟩) | ⟨types, given, rfl⟩) | given
  · exact invariant.intersection types (inAll types given)
  · exact invariant.union types (inAny types given)
  · exact invariant.union types (inOne types given)
  · exact inTyped type given

theorem good_fixedType {schema : Schema} {head : Head} (here : apt schema)
    (own : schema.head? = some head) {type : TypeExpr} (fixed : fixedType head = .given type) :
    good type := by
  unfold fixedType at fixed
  split at fixed
  · rename_i text verbatim
    cases fixed
    exact invariant.verbatim schema text here (by rw [own, Option.bind_some, verbatim])
  · split at fixed
    · rename_i values _
      cases fixed
      apply invariant.union
      intro type inside
      obtain ⟨value, _, rfl⟩ := List.mem_map.mp inside
      exact invariant.literal value
    · cases fixed
    · split at fixed
      · rename_i value _
        cases fixed
        exact invariant.literal value
      · cases fixed

theorem ensures_declare {base : String} {schema : Schema} {body : Draft TypeExpr}
    (proper : isTypeName base.toList = true) (ensures : body.Ensures environment good sound)
    (declares : ∀ ⦃taken declaration inner⦄,
      (declarationDraft (freshName base taken) schema body).Yields (taken ++ [freshName base taken])
        declaration inner →
      inner ⊆ environment → declaration.Holds good → sound declaration) :
    (declare base schema body).Ensures environment good sound := by
  intro taken type declared drawn within
  obtain ⟨declaration, inner, drafted, rfl, rfl⟩ := yields_declare drawn
  refine ⟨invariant.reference _ (freshName_isTypeName proper taken), ?_⟩
  have inside : inner ⊆ environment := List.subset_of_cons_subset within
  rw [List.forall_mem_cons]
  rcases yields_declarationDraft drafted with ⟨members, _, rfl, rfl⟩ | ⟨type, typed, rfl⟩
  · exact ⟨declares drafted inside trivial, by simp⟩
  · obtain ⟨holds, sounds⟩ := ensures typed inside
    exact ⟨declares drafted inside (good_declaration holds _ _), sounds⟩

theorem ensures_place (declares : SoundDeclarations apt good sound environment ignoreBounds)
    {schema : Schema} (here : apt schema)
    (ensures : (schema.body ignoreBounds).Ensures environment good sound) :
    (place schema (schema.body ignoreBounds)).Ensures environment good sound := by
  unfold place
  split
  · rename_i base found
    exact ensures_declare invariant (declaredBase_isTypeName found) ensures (declares here found)
  · exact ensures

theorem ensures_body (declares : SoundDeclarations apt good sound environment ignoreBounds)
    {schema : Schema} (throughout : schema.Throughout apt) :
    (schema.body ignoreBounds).Ensures environment good sound := by
  induction throughout with
  | @intro schema here below ih =>
    have placed : PlacedGood environment good sound ignoreBounds schema.parts := by
      intro part inside
      obtain ⟨apart, _⟩ := below part inside
      exact ensures_place invariant declares apart (ih part inside)
    cases schema with
    | always admits =>
      cases admits with
      | true => exact ensures_pure invariant.unknown
      | false => exact ensures_pure invariant.never
    | foreign => exact ensures_bind ensures_warn fun _ _ => ensures_pure invariant.unknown
    | node head allOf anyOf oneOf properties additionalProperties items additionalItems =>
      simp only [PlacedGood, Schema.parts, List.mem_append] at placed
      rw [body_node]
      split
      · rename_i type fixed
        exact ensures_pure (good_fixedType invariant here rfl fixed)
      · exact ensures_refuse
      · refine ensures_bind (ensures_armDrafts fun part inside => placed part (by tauto))
          fun all inAll => ?_
        refine ensures_bind (ensures_armDrafts fun part inside => placed part (by tauto))
          fun any inAny => ?_
        refine ensures_bind (ensures_armDrafts fun part inside => placed part (by tauto))
          fun one inOne => ?_
        have object : (objectDraft ignoreBounds head.required properties
            additionalProperties).Ensures environment good sound :=
          ensures_objectDraft invariant (fun part inside => placed part (by tauto))
            (fun part inside => placed part (by tauto))
            fun fields index => invariant.object _ fields index here
        have array : (arrayDraft ignoreBounds head items additionalItems).Ensures environment
            good sound :=
          ensures_itemsDraft invariant (fun part inside => placed part (by tauto)) fun full =>
            ensures_restDraft invariant fun part inside => placed part (by tauto)
        refine ensures_bind (ensures_typedPart invariant object array) fun typed inTyped => ?_
        exact ensures_pure (good_combined invariant inAll inAny inOne inTyped)

theorem declarations_sound {schema : Schema} (throughout : schema.Throughout apt) {suggested : String}
    (drawn : (schema.declarations suggested ignoreBounds).outcome = .ok (environment, []))
    (declares : SoundDeclarations apt good sound environment ignoreBounds)
    (root : ∀ ⦃taken declaration inner⦄,
      (declarationDraft (freshName (rootBase schema suggested) taken) schema
        (schema.body ignoreBounds)).Yields (taken ++ [freshName (rootBase schema suggested) taken])
        declaration inner →
      inner ⊆ environment → declaration.Holds good → sound declaration) :
    ∀ declaration ∈ environment, sound declaration := by
  have body : (schema.body ignoreBounds).Ensures environment good sound :=
    ensures_body invariant declares throughout
  have whole : (declare (rootBase schema suggested) schema (schema.body ignoreBounds)).Ensures
      environment good sound :=
    ensures_declare invariant (rootBase_isTypeName schema suggested) body root
  exact (whole (declarations_yields drawn) (List.Subset.refl environment)).2

theorem declarations_hold {schema : Schema} (throughout : schema.Throughout apt) {suggested : String}
    (drawn : (schema.declarations suggested ignoreBounds).outcome = .ok (environment, [])) :
    ∀ declaration ∈ environment, declaration.Holds good :=
  declarations_sound invariant throughout drawn (fun _ _ _ _ _ _ _ _ _ holds => holds)
    fun _ _ _ _ _ holds => holds

end

theorem content?_eq_some {Content : Type} {keyword : Keyword Content} {content : Content}
    (given : keyword.content? = some content) : keyword = .given content := by
  cases keyword with
  | given content =>
    cases given
    rfl
  | _ => cases given

theorem mem_content?_getD {Content : Type} {keyword : Keyword (List Content)} {content : Content}
    (inside : content ∈ keyword.content?.getD []) :
    ∃ contents, keyword = .given contents ∧ content ∈ contents := by
  cases here : keyword.content? with
  | none => simp [here] at inside
  | some contents =>
    rw [here] at inside
    exact ⟨contents, content?_eq_some here, inside⟩

theorem hasPart_of_part {value : Json} {part : Schema} (inside : part ∈ (Schema.ofJson value).parts) :
    ∃ source, HasPart value source ∧ Schema.ofJson source = part := by
  cases value with
  | object members =>
    have arm : ∀ key ∈ combiningKeys, ∀ fault,
        part ∈ (Schema.armsOf key fault members).content?.getD [] →
          ∃ source, HasPart (.object members) source ∧ Schema.ofJson source = part := by
      intro key combining fault inside
      obtain ⟨schemas, given, inside⟩ := mem_content?_getD inside
      obtain ⟨arms, found, rfl⟩ := armsOf_eq_given given
      obtain ⟨source, there, rfl⟩ := List.mem_map.mp inside
      exact ⟨source, .arm combining found there, rfl⟩
    rw [ofJson_object] at inside
    simp only [Schema.parts, List.mem_append] at inside
    rcases inside with (((((inAll | inAny) | inOne) | named) | additional) | listed) | rest
    · exact arm "allOf" (by decide) _ inAll
    · exact arm "anyOf" (by decide) _ inAny
    · exact arm "oneOf" (by decide) _ inOne
    · obtain ⟨member, inside, rfl⟩ := List.mem_map.mp named
      obtain ⟨table, given, inside⟩ := mem_content?_getD inside
      obtain ⟨named, found, rfl⟩ := propertiesOf_eq_given given
      obtain ⟨source, there, rfl⟩ := List.mem_map.mp inside
      exact ⟨source.2, .property found there, rfl⟩
    · have given := content?_eq_some (Option.mem_toList.mp additional)
      obtain ⟨source, found, rfl⟩ := additionalPropertiesOf_eq_given given
      exact ⟨source, .single (by decide) found, rfl⟩
    · cases here : (Schema.itemsOf members).content? with
      | none => simp [here] at listed
      | some items =>
        have given := content?_eq_some here
        rw [here] at listed
        cases items with
        | every schema =>
          obtain rfl := List.mem_singleton.mp listed
          obtain ⟨source, found, rfl⟩ := itemsOf_eq_every given
          exact ⟨source, .single (by decide) found, rfl⟩
        | positional schemas =>
          obtain ⟨sources, found, rfl⟩ := itemsOf_eq_positional given
          obtain ⟨source, there, rfl⟩ := List.mem_map.mp listed
          exact ⟨source, .positional found there, rfl⟩
    · obtain ⟨source, found, read⟩ := Option.bind_eq_some_iff.mp (Option.mem_toList.mp rest)
      exact ⟨source, .single (by decide) found, ofJson_restrictionOf? read⟩
  | _ => exact absurd inside List.not_mem_nil

theorem throughout_ofJson {apt : Schema → Prop} (bare : ∀ schema, schema.head? = none → apt schema)
    {value : Json} (nodes : ∀ members, HasNode value members → apt (Schema.ofJson (.object members))) :
    (Schema.ofJson value).Throughout apt := by
  induction value using partInduction with
  | step value ih =>
    constructor
    · cases value with
      | object members => exact nodes members .here
      | _ => exact bare _ rfl
    · intro part inside
      obtain ⟨source, step, rfl⟩ := hasPart_of_part inside
      exact ih source step fun members node => nodes members (.deeper step node)

/-- The schema was declared so, under a name made from the base and with declarations of the environment. -/
def DeclaredAs (ignoreBounds : Bool) (environment : List Declaration) (base : String) (schema : Schema)
    (declaration : Declaration) : Prop :=
  ∃ taken inner,
    (declarationDraft (freshName base taken) schema (schema.body ignoreBounds)).Yields
      (taken ++ [freshName base taken]) declaration inner ∧ inner ⊆ environment

theorem DeclaredAs.name {ignoreBounds : Bool} {environment : List Declaration} {base : String}
    {schema : Schema} {declaration : Declaration}
    (declared : DeclaredAs ignoreBounds environment base schema declaration) :
    ∃ taken, declaration.name = freshName base taken := by
  obtain ⟨taken, _, drafted, _⟩ := declared
  exact ⟨taken, declarationDraft_name drafted⟩

theorem trivial_invariant (ignoreBounds : Bool) (environment : List Declaration)
    (apt : Schema → Prop) : TypingInvariant ignoreBounds environment apt fun _ => True where
  unknown := trivial
  never := trivial
  null := trivial
  boolean := trivial
  number := trivial
  string := trivial
  literal _ := trivial
  verbatim _ _ _ _ := trivial
  reference _ _ := trivial
  list _ _ := trivial
  tuple _ _ _ _ _ _ := trivial
  object _ _ _ _ _ _ _ := trivial
  union _ _ := trivial
  intersection _ _ := trivial

theorem declaration_origin {value : Json} {suggested : String} {ignoreBounds : Bool}
    {declarations : List Declaration}
    (drawn : ((Schema.ofJson value).declarations suggested ignoreBounds).outcome =
      .ok (declarations, [])) :
    ∀ declaration ∈ declarations,
      DeclaredAs ignoreBounds declarations (rootBase (Schema.ofJson value) suggested)
          (Schema.ofJson value) declaration ∨
        ∃ members base, HasNode value members ∧
          declaredBase? (Schema.ofJson (.object members)) = some base ∧
          DeclaredAs ignoreBounds declarations base (Schema.ofJson (.object members)) declaration := by
  let placeable schema := ∀ base, declaredBase? schema = some base →
    ∃ members, HasNode value members ∧ schema = Schema.ofJson (.object members)
  have throughout : (Schema.ofJson value).Throughout placeable := by
    apply throughout_ofJson
    · intro schema bare base found
      rw [declaredBase?, bare] at found
      cases found
    · exact fun members node base found => ⟨members, node, rfl⟩
  refine declarations_sound (trivial_invariant ignoreBounds declarations placeable) throughout drawn
    ?_ ?_
  · intro schema base here found taken declaration inner drafted within _
    obtain ⟨members, node, rfl⟩ := here base found
    exact Or.inr ⟨members, base, node, found, taken, inner, drafted, within⟩
  · intro taken declaration inner drafted within _
    exact Or.inl ⟨taken, inner, drafted, within⟩

end SchemaTypes
