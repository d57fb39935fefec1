import SchemaTypes.Proofs.Agreement
import SchemaTypes.Proofs.Namespace
import SchemaTypes.Proofs.Undescribed

/-!
Typing a schema with and without descriptions. Both drafts go in step: they report the same, declare
under the same names, and what they come to agrees.
-/

namespace SchemaTypes

open TypeExpr

/-- Both drafts fail alike, or they succeed and agree. -/
def Draft.InStep (permitted : Option String → Bool) {Content : Type}
    (agree : Content → Content → Prop) (draft other : Draft Content) : Prop :=
  ∀ taken,
    (draft taken).warnings = (other taken).warnings ∧
    ((∃ malformed, (draft taken).outcome = .error malformed ∧
        (other taken).outcome = .error malformed) ∨
      ∃ content content' declared declared', (draft taken).outcome = .ok (content, declared) ∧
        (other taken).outcome = .ok (content', declared') ∧ agree content content' ∧
        AgreeDeclarations permitted declared declared')

variable {permitted : Option String → Bool}

namespace Draft

variable {Content Other : Type} {agree : Content → Content → Prop} {agree' : Other → Other → Prop}

theorem inStep_pure {content content' : Content} (same : agree content content') :
    (pure content : Draft Content).InStep permitted agree (pure content') :=
  fun _ => ⟨rfl, Or.inr ⟨content, content', [], [], rfl, rfl, same, List.Forall₂.nil⟩⟩

theorem inStep_refuse {fault : Fault} :
    (refuse fault : Draft Content).InStep permitted agree (refuse fault) :=
  fun _ => ⟨rfl, Or.inl ⟨_, rfl, rfl⟩⟩

theorem inStep_warn : warn.InStep permitted (fun _ _ => True) warn :=
  fun _ => ⟨rfl, Or.inr ⟨(), (), [], [], rfl, rfl, trivial, List.Forall₂.nil⟩⟩

theorem inStep_map {make make' : Content → Other} {draft other : Draft Content}
    (step : draft.InStep permitted agree other)
    (kept : ∀ content content', agree content content' → agree' (make content) (make' content')) :
    (make <$> draft).InStep permitted agree' (make' <$> other) := by
  intro taken
  obtain ⟨warned, failed | succeeded⟩ := step taken
  · obtain ⟨malformed, here, there⟩ := failed
    refine ⟨warned, Or.inl ⟨malformed, ?_, ?_⟩⟩
    · simp [Functor.map, change, here, Except.map]
    · simp [Functor.map, change, there, Except.map]
  · obtain ⟨content, content', declared, declared', here, there, same, declaring⟩ := succeeded
    refine ⟨warned, Or.inr ⟨make content, make' content', declared, declared', ?_, ?_,
      kept content content' same, declaring⟩⟩
    · simp [Functor.map, change, here, Except.map]
    · simp [Functor.map, change, there, Except.map]

theorem inStep_bind {draft other : Draft Content} {next next' : Content → Draft Other}
    (step : draft.InStep permitted agree other)
    (later : ∀ content content', agree content content' →
      (next content).InStep permitted agree' (next' content')) :
    (draft >>= next).InStep permitted agree' (other >>= next') := by
  intro taken
  obtain ⟨warned, failed | succeeded⟩ := step taken
  · obtain ⟨malformed, here, there⟩ := failed
    simp only [bind, andThen, here, there]
    exact ⟨warned, Or.inl ⟨malformed, rfl, rfl⟩⟩
  · obtain ⟨content, content', declared, declared', here, there, same, declaring⟩ := succeeded
    simp only [bind, andThen, here, there, ← names_of_agree declaring, warned]
    obtain ⟨warned', failed | succeeded⟩ :=
      later content content' same (taken ++ declared.map Declaration.name)
    · obtain ⟨malformed, here', there'⟩ := failed
      exact ⟨by rw [warned'], Or.inl ⟨malformed, by rw [here']; rfl, by rw [there']; rfl⟩⟩
    · obtain ⟨result, result', after, after', here', there', same', declaring'⟩ := succeeded
      refine ⟨by rw [warned'], Or.inr ⟨result, result', declared ++ after, declared' ++ after', ?_, ?_,
        same', List.rel_append declaring declaring'⟩⟩
      · rw [here']
        rfl
      · rw [there']
        rfl

theorem inStep_within {tokens : Pointer} {draft other : Draft Content}
    (step : draft.InStep permitted agree other) :
    (draft.within tokens).InStep permitted agree (other.within tokens) := by
  intro taken
  obtain ⟨warned, failed | succeeded⟩ := step taken
  · obtain ⟨malformed, here, there⟩ := failed
    simp only [within, here, there, warned]
    exact ⟨trivial, Or.inl ⟨_, rfl, rfl⟩⟩
  · obtain ⟨content, content', declared, declared', here, there, same, declaring⟩ := succeeded
    simp only [within, here, there, warned]
    exact ⟨trivial, Or.inr ⟨content, content', declared, declared', rfl, rfl, same, declaring⟩⟩

end Draft

open Draft

theorem isTypeName_plain {name : String} (proper : isTypeName name.toList = true) :
    name.toList.all isPlain = true := by
  rw [isTypeName, Bool.and_eq_true] at proper
  exact isIdentifier_plain proper.1

theorem inStep_declare {base : String} {schema other : Schema} {body body' : Draft TypeExpr}
    (proper : isTypeName base.toList = true)
    (named : other.head?.bind enumMembers? = schema.head?.bind enumMembers?)
    (described : other.description = blankDocs schema.description)
    (permits : permitted schema.description = true)
    (step : body.InStep permitted (AgreeType permitted) body') :
    (declare base schema body).InStep permitted (AgreeType permitted) (declare base other body') := by
  have drafted : ∀ name : String, isTypeName name.toList = true →
      (declarationDraft name schema body).InStep permitted (AgreeDeclaration permitted)
        (declarationDraft name other body') := by
    intro name proper
    have plain := isTypeName_plain proper
    unfold declarationDraft
    rw [named, described]
    split
    · refine inStep_pure ⟨rfl, ?_, ?_, fun _ => rfl⟩
      · rw [Declaration.isPlainText, Bool.and_eq_true]
        exact ⟨plain, rfl⟩
      · rw [Declaration.permits, Bool.and_eq_true]
        exact ⟨permits, rfl⟩
    · exact inStep_map step fun type type' agree => agree_declarationOfType agree plain permits
  intro taken
  have fresh := freshName_isTypeName proper taken
  obtain ⟨warned, failed | succeeded⟩ :=
    drafted (freshName base taken) fresh (taken ++ [freshName base taken])
  · obtain ⟨malformed, here, there⟩ := failed
    simp only [declare, here, there, warned]
    exact ⟨trivial, Or.inl ⟨malformed, rfl, rfl⟩⟩
  · obtain ⟨declaration, declaration', inner, inner', here, there, agree, declaring⟩ := succeeded
    simp only [declare, here, there, warned]
    refine ⟨trivial, Or.inr ⟨_, _, declaration :: inner, declaration' :: inner', rfl, rfl, ?_,
      List.Forall₂.cons agree declaring⟩⟩
    exact agree_reference (isTypeName_plain fresh)

section

variable {ignoreBounds : Bool}

def BodyInStep (permitted : Option String → Bool) (ignoreBounds : Bool) (value : Json) : Prop :=
  ((Schema.ofJson value).body ignoreBounds).InStep permitted (AgreeType permitted)
    ((Schema.ofJson value.undescribed).body ignoreBounds)

structure PlacedInStep (permitted : Option String → Bool) (ignoreBounds : Bool) (value : Json) :
    Prop where
  permits : permitted (Schema.ofJson value).description = true
  step : (place (Schema.ofJson value) ((Schema.ofJson value).body ignoreBounds)).InStep permitted
    (AgreeType permitted)
    (place (Schema.ofJson value.undescribed) ((Schema.ofJson value.undescribed).body ignoreBounds))

theorem ofJson_undescribed (members : List (String × Json)) :
    (Schema.ofJson (Json.object members).undescribed).head? =
      some { readHead members with description := blankDocs (readHead members).description } := by
  rw [Json.undescribed, ofJson_object, Schema.head?, readHead_undescribed]

theorem description_ofJson (value : Json) :
    (Schema.ofJson value.undescribed).description = blankDocs (Schema.ofJson value).description := by
  cases value with
  | object members =>
    rw [Schema.description, ofJson_undescribed, Schema.description, ofJson_object]
    rfl
  | _ => rfl

theorem enumMembers?_ofJson (value : Json) :
    (Schema.ofJson value.undescribed).head?.bind enumMembers? =
      (Schema.ofJson value).head?.bind enumMembers? := by
  cases value with
  | object members =>
    rw [ofJson_undescribed, ofJson_object]
    rfl
  | _ => rfl

theorem declaredBase?_ofJson (value : Json) :
    declaredBase? (Schema.ofJson value.undescribed) = declaredBase? (Schema.ofJson value) := by
  cases value with
  | object members =>
    rw [declaredBase?, ofJson_undescribed, declaredBase?, ofJson_object]
    rfl
  | _ => rfl

theorem inStep_place {value : Json} (permits : permitted (Schema.ofJson value).description = true)
    (step : BodyInStep permitted ignoreBounds value) : PlacedInStep permitted ignoreBounds value := by
  refine ⟨permits, ?_⟩
  unfold place
  rw [declaredBase?_ofJson]
  split
  · rename_i base found
    exact inStep_declare (declaredBase_isTypeName found) (enumMembers?_ofJson value)
      (description_ofJson value) permits step
  · exact step

theorem inStep_eachDraft {elements : List Json}
    (step : ∀ element ∈ elements, PlacedInStep permitted ignoreBounds element) (index : Nat) :
    (eachDraft ignoreBounds index (elements.map Schema.ofJson)).InStep permitted (AgreeAll permitted)
      (eachDraft ignoreBounds index ((elements.map Json.undescribed).map Schema.ofJson)) := by
  induction elements generalizing index with
  | nil => exact inStep_pure List.Forall₂.nil
  | cons element elements ih =>
    rw [List.forall_mem_cons] at step
    apply inStep_bind (inStep_within step.1.step)
    intro type other agree
    exact inStep_map (ih step.2 (index + 1)) fun types others agree' => List.Forall₂.cons agree agree'

theorem inStep_eachField {named : List (String × Json)}
    (step : ∀ member ∈ named, PlacedInStep permitted ignoreBounds member.2) (required : List String) :
    (eachField ignoreBounds required
      (named.map fun member => (member.1, Schema.ofJson member.2))).InStep permitted
      (AgreeFields permitted)
      (eachField ignoreBounds required
        ((Json.undescribedNamed named).map fun member => (member.1, Schema.ofJson member.2))) := by
  induction named with
  | nil => exact inStep_pure List.Forall₂.nil
  | cons member named ih =>
    rw [List.forall_mem_cons] at step
    apply inStep_bind (inStep_within step.1.step)
    intro type other agree
    refine inStep_map (ih step.2) fun fields others agree' => List.Forall₂.cons ?_ agree'
    exact ⟨rfl, rfl, step.1.permits, description_ofJson member.2, agree⟩

variable {members : List (String × Json)}

theorem inStep_armDrafts {key : String} (fault : Fault) (combining : key ∈ combiningKeys)
    (step : ∀ arms, members.lookup key = some (.array arms) →
      ∀ arm ∈ arms, PlacedInStep permitted ignoreBounds arm) :
    (armDrafts ignoreBounds key (Schema.armsOf key fault members)).InStep permitted
      (Option.Rel (AgreeAll permitted))
      (armDrafts ignoreBounds key (Schema.armsOf key fault (Json.undescribedMembers members))) := by
  have others : ∀ key ∈ combiningKeys, key ∉ ["enum", "const", "description", "properties"] := by decide
  have other := others key combining
  rw [Schema.armsOf, Schema.armsOf, readKeyword, readKeyword, Json.lookup_undescribed key other]
  cases found : members.lookup key with
  | none => exact inStep_pure .none
  | some value =>
    cases value with
    | array arms =>
      have drawn := inStep_eachDraft (step arms found) 0
      rw [← Json.undescribedElements_eq] at drawn
      exact inStep_map (inStep_within drawn) fun types others agree => .some agree
    | _ => exact inStep_refuse

theorem inStep_fieldDrafts
    (step : ∀ named, members.lookup "properties" = some (.object named) →
      ∀ member ∈ named, PlacedInStep permitted ignoreBounds member.2) (required : List String) :
    (fieldDrafts ignoreBounds required (Schema.propertiesOf members)).InStep permitted
      (AgreeFields permitted)
      (fieldDrafts ignoreBounds required
        (Schema.propertiesOf (Json.undescribedMembers members))) := by
  rw [Schema.propertiesOf, Schema.propertiesOf, readKeyword, readKeyword,
    Json.lookup_undescribedMembers]
  cases found : members.lookup "properties" with
  | none => exact inStep_pure List.Forall₂.nil
  | some value =>
    cases value with
    | object named => exact inStep_within (inStep_eachField (step named found) required)
    | _ => exact inStep_refuse

theorem ofJson_object_ne (members : List (String × Json)) (admits : Bool) :
    Schema.ofJson (.object members) ≠ .always admits := by
  rw [ofJson_object]
  intro same
  cases same

theorem single?_object (members : List (String × Json)) :
    Schema.single? (.object members) = some (Schema.ofJson (.object members)) := by
  rw [Schema.single?, ofJson_object]

theorem restrictionOf?_object (members : List (String × Json)) :
    Schema.restrictionOf? (.object members) = some (Schema.ofJson (.object members)) := by
  rw [Schema.restrictionOf?, ofJson_object]

theorem inStep_indexDraft
    (step : ∀ part, members.lookup "additionalProperties" = some part →
      PlacedInStep permitted ignoreBounds part) :
    (indexDraft ignoreBounds (Schema.additionalPropertiesOf members)).InStep permitted
      (AgreeOption permitted)
      (indexDraft ignoreBounds
        (Schema.additionalPropertiesOf (Json.undescribedMembers members))) := by
  rw [Schema.additionalPropertiesOf, Schema.additionalPropertiesOf, readKeyword, readKeyword,
    Json.lookup_undescribed "additionalProperties" (by decide)]
  cases found : members.lookup "additionalProperties" with
  | none => exact inStep_pure (.some (.of_equal rfl rfl))
  | some value =>
    have part := step value found
    cases value with
    | boolean admits =>
      cases admits with
      | false => exact inStep_pure .none
      | true => exact inStep_map (inStep_within part.step) fun type other agree => .some agree
    | object inner =>
      simp only [Option.map_some, Json.undescribed, single?_object, Keyword.ofShape,
        indexDraft_given (ofJson_object_ne _ false)]
      exact inStep_map (inStep_within part.step) fun type other agree => .some agree
    | _ => exact inStep_refuse

theorem inStep_restDraft
    (step : ∀ part, members.lookup "additionalItems" = some part →
      PlacedInStep permitted ignoreBounds part)
    (full : Bool) :
    (restDraft ignoreBounds full (Schema.additionalItemsOf members)).InStep permitted
      (AgreeOption permitted)
      (restDraft ignoreBounds full
        (Schema.additionalItemsOf (Json.undescribedMembers members))) := by
  have unrestricted : (restDraft ignoreBounds full none).InStep permitted (AgreeOption permitted)
      (restDraft ignoreBounds full none) := by
    cases full with
    | false => exact inStep_pure (.some (.of_equal rfl rfl))
    | true => exact inStep_pure .none
  rw [Schema.additionalItemsOf, Schema.additionalItemsOf,
    Json.lookup_undescribed "additionalItems" (by decide)]
  cases found : members.lookup "additionalItems" with
  | none => exact unrestricted
  | some value =>
    have part := step value found
    cases value with
    | boolean admits =>
      cases admits with
      | false => exact inStep_pure .none
      | true => exact unrestricted
    | object inner =>
      simp only [Option.map_some, Option.bind_some, Json.undescribed, restrictionOf?_object,
        restDraft_given (ofJson_object_ne _ false)]
      cases full with
      | false => exact inStep_map (inStep_within part.step) fun type other agree => .some agree
      | true => exact inStep_pure .none
    | _ => exact unrestricted

theorem itemsOf?_object (members : List (String × Json)) :
    Schema.itemsOf? (.object members) = some (.every (Schema.ofJson (.object members))) := by
  rw [Schema.itemsOf?, single?_object]
  rfl

theorem inStep_itemsDraft {least most : Option Nat} {restOf restOf' : Bool → Draft (Option TypeExpr)}
    (single : ∀ part, members.lookup "items" = some part → PlacedInStep permitted ignoreBounds part)
    (positional : ∀ parts, members.lookup "items" = some (.array parts) →
      ∀ part ∈ parts, PlacedInStep permitted ignoreBounds part)
    (rest : ∀ full, (restOf full).InStep permitted (AgreeOption permitted) (restOf' full)) :
    (itemsDraft ignoreBounds least most restOf (Schema.itemsOf members)).InStep permitted
      (AgreeType permitted)
      (itemsDraft ignoreBounds least most restOf'
        (Schema.itemsOf (Json.undescribedMembers members))) := by
  rw [Schema.itemsOf, Schema.itemsOf, readKeyword, readKeyword,
    Json.lookup_undescribed "items" (by decide)]
  cases found : members.lookup "items" with
  | none => exact inStep_pure (agree_boundedList (.of_equal rfl rfl) _ most)
  | some value =>
    have part := single value found
    cases value with
    | boolean admits =>
      refine inStep_bind (inStep_within part.step) fun type other agree => inStep_pure ?_
      exact agree_boundedList agree _ most
    | object inner =>
      simp only [Option.map_some, Json.undescribed, itemsOf?_object, Keyword.ofShape]
      refine inStep_bind (inStep_within part.step) fun type other agree => inStep_pure ?_
      exact agree_boundedList agree _ most
    | array parts =>
      have drawn := inStep_eachDraft (positional parts found) 0
      rw [← Json.undescribedElements_eq] at drawn
      apply inStep_bind (inStep_within drawn)
      intro types others agree
      have kept := agree_noMoreThan agree most
      have lengths := kept.length_eq
      simp only [positionalTuple, lengths]
      refine inStep_bind (rest _) fun rest other agree' => inStep_pure ?_
      exact agree_tuple kept agree' _
    | _ => exact inStep_refuse

theorem inStep_kindDraft {object object' array array' : Draft TypeExpr}
    (objects : object.InStep permitted (AgreeType permitted) object')
    (arrays : array.InStep permitted (AgreeType permitted) array') (kind : Kind) :
    (kindDraft object array kind).InStep permitted (AgreeType permitted)
      (kindDraft object' array' kind) := by
  cases kind with
  | object => exact objects
  | array => exact arrays
  | _ => exact inStep_pure (.of_equal rfl rfl)

theorem inStep_typedPart {object object' array array' : Draft TypeExpr}
    (objects : object.InStep permitted (AgreeType permitted) object')
    (arrays : array.InStep permitted (AgreeType permitted) array')
    (kinds : Keyword (List Kind)) :
    (typedPart kinds object array).InStep permitted (AgreeOption permitted)
      (typedPart kinds object' array') := by
  have drafts : ∀ kinds : List Kind,
      (kindDrafts object array kinds).InStep permitted (AgreeAll permitted)
      (kindDrafts object' array' kinds) := by
    intro kinds
    induction kinds with
    | nil => exact inStep_pure List.Forall₂.nil
    | cons kind kinds ih =>
      apply inStep_bind (inStep_kindDraft objects arrays kind)
      intro type other agree
      exact inStep_map ih fun types others agree' => List.Forall₂.cons agree agree'
  cases kinds with
  | absent => exact inStep_pure .none
  | malformed fault => exact inStep_refuse
  | given kinds => exact inStep_map (drafts kinds) fun types others agree => .some (agree_unionOf agree)

theorem inStep_objectDraft {required : Keyword (List String)}
    (table : ∀ named, members.lookup "properties" = some (.object named) →
      ∀ member ∈ named, PlacedInStep permitted ignoreBounds member.2)
    (step : ∀ part, members.lookup "additionalProperties" = some part →
      PlacedInStep permitted ignoreBounds part) :
    (objectDraft ignoreBounds required (Schema.propertiesOf members)
      (Schema.additionalPropertiesOf members)).InStep permitted (AgreeType permitted)
        (objectDraft ignoreBounds required (Schema.propertiesOf (Json.undescribedMembers members))
          (Schema.additionalPropertiesOf (Json.undescribedMembers members))) := by
  have names : (Draft.ofKeyword [] required).InStep permitted Eq (Draft.ofKeyword [] required) := by
    cases required with
    | absent => exact inStep_pure rfl
    | malformed fault => exact inStep_refuse
    | given names => exact inStep_pure rfl
  apply inStep_bind names
  rintro names _ rfl
  apply inStep_bind (inStep_fieldDrafts table names)
  intro fields others agree
  exact inStep_map (inStep_indexDraft step) fun index other agree' => agree_object agree agree'

theorem agree_combined {all all' any any' one one' : Option (List TypeExpr)}
    {typed typed' : Option TypeExpr} (inAll : Option.Rel (AgreeAll permitted) all all')
    (inAny : Option.Rel (AgreeAll permitted) any any')
    (inOne : Option.Rel (AgreeAll permitted) one one')
    (inTyped : AgreeOption permitted typed typed') :
    AgreeType permitted (combined all any one typed) (combined all' any' one' typed') := by
  have listed : ∀ {arms arms' : Option (List TypeExpr)} {make : List TypeExpr → TypeExpr},
      (∀ {types others}, AgreeAll permitted types others →
        AgreeType permitted (make types) (make others)) →
      Option.Rel (AgreeAll permitted) arms arms' →
        AgreeAll permitted (arms.map make).toList (arms'.map make).toList := by
    intro arms arms' make kept agree
    cases agree with
    | none => exact List.Forall₂.nil
    | some agree => exact List.Forall₂.cons (kept agree) List.Forall₂.nil
  have last : AgreeAll permitted typed.toList typed'.toList := by
    cases inTyped with
    | none => exact List.Forall₂.nil
    | some agree => exact List.Forall₂.cons agree List.Forall₂.nil
  exact agree_intersectionOf (List.rel_append (List.rel_append (List.rel_append
    (listed agree_intersectionOf inAll) (listed agree_unionOf inAny)) (listed agree_unionOf inOne)) last)

theorem isPresent_undescribed {Content : Type} {key : String} {fault : Fault}
    {shape : Json → Option Content} :
    (readKeyword key (fun value => .ofShape fault (shape value))
      (Json.undescribedMembers members)).isPresent =
        (readKeyword key (fun value => .ofShape fault (shape value)) members).isPresent := by
  unfold readKeyword
  rw [Json.lookup_undescribedMembers]
  have present : ∀ value, (Keyword.ofShape fault (shape value)).isPresent = true := by
    intro value
    cases shape value <;> rfl
  cases members.lookup key with
  | none => rfl
  | some value => exact (present _).trans (present _).symm

theorem agree_fixedType {type : TypeExpr}
    (plain : ∀ text, stringMember "tsType" members = some text → text.toList.all isPlain = true)
    (fixed : fixedType (readHead members) = .given type) : AgreeType permitted type type := by
  unfold fixedType at fixed
  split at fixed
  · rename_i text verbatim
    cases fixed
    exact agree_verbatim (plain text verbatim)
  · split at fixed
    · rename_i values _
      cases fixed
      refine agree_unionOf (List.forall₂_same.mpr fun type inside => ?_)
      obtain ⟨value, _, rfl⟩ := List.mem_map.mp inside
      exact .of_equal rfl rfl
    · cases fixed
    · split at fixed
      · cases fixed
        exact .of_equal rfl rfl
      · cases fixed

structure WritableNodes (permitted : Option String → Bool) (value : Json) : Prop where
  absent : permitted none = true
  described : ∀ members, HasNode value members → permitted (stringMember "description" members) = true
  hinted : ∀ members, HasNode value members →
    ∀ text, stringMember "tsType" members = some text → text.toList.all isPlain = true

theorem WritableNodes.part {value part : Json} (nodes : WritableNodes permitted value)
    (step : HasPart value part) : WritableNodes permitted part where
  absent := nodes.absent
  described members node := nodes.described members (.deeper step node)
  hinted members node := nodes.hinted members (.deeper step node)

theorem WritableNodes.description {value : Json} (nodes : WritableNodes permitted value) :
    permitted (Schema.ofJson value).description = true := by
  cases value with
  | object members =>
    rw [Schema.description, ofJson_object]
    exact nodes.described members .here
  | _ => exact nodes.absent

theorem inStep_body (value : Json) (nodes : WritableNodes permitted value) :
    BodyInStep permitted ignoreBounds value := by
  induction value using partInduction with
  | step value ih =>
    have parts : ∀ part, HasPart value part → PlacedInStep permitted ignoreBounds part :=
      fun part step => inStep_place (nodes.part step).description (ih part step (nodes.part step))
    cases value with
    | boolean admits => cases admits <;> exact inStep_pure (.of_equal rfl rfl)
    | object members =>
      have arms : ∀ key ∈ combiningKeys, ∀ arms, members.lookup key = some (.array arms) →
          ∀ arm ∈ arms, PlacedInStep permitted ignoreBounds arm :=
        fun key combining arms found arm inside => parts arm (.arm combining found inside)
      have singles : ∀ key ∈ singleKeys, ∀ part, members.lookup key = some part →
          PlacedInStep permitted ignoreBounds part :=
        fun key reading part found => parts part (.single reading found)
      rw [BodyInStep, Json.undescribed, ofJson_object, ofJson_object, body_node, body_node,
        readHead_undescribed]
      have fixed : fixedType { readHead members with
          description := blankDocs (readHead members).description } = fixedType (readHead members) := rfl
      rw [fixed]
      split
      · rename_i type given
        exact inStep_pure (agree_fixedType (nodes.hinted members .here) given)
      · exact inStep_refuse
      · have combining : ∀ key ∈ ["allOf", "anyOf", "oneOf"], key ∈ combiningKeys :=
          fun _ inside => inside
        refine inStep_bind (inStep_armDrafts _ (combining "allOf" (by simp))
          (arms "allOf" (combining "allOf" (by simp)))) fun all all' inAll => ?_
        refine inStep_bind (inStep_armDrafts _ (combining "anyOf" (by simp))
          (arms "anyOf" (combining "anyOf" (by simp)))) fun any any' inAny => ?_
        refine inStep_bind (inStep_armDrafts _ (combining "oneOf" (by simp))
          (arms "oneOf" (combining "oneOf" (by simp)))) fun one one' inOne => ?_
        refine inStep_bind ?_ fun typed typed' inTyped =>
          inStep_pure (agree_combined inAll inAny inOne inTyped)
        have named : (Schema.propertiesOf (Json.undescribedMembers members)).isPresent =
            (Schema.propertiesOf members).isPresent := isPresent_undescribed
        have additional : (Schema.additionalPropertiesOf (Json.undescribedMembers members)).isPresent =
            (Schema.additionalPropertiesOf members).isPresent := isPresent_undescribed
        have listed : (Schema.itemsOf (Json.undescribedMembers members)).isPresent =
            (Schema.itemsOf members).isPresent := isPresent_undescribed
        rw [ownDraft, ownDraft, named, additional, listed]
        refine inStep_typedPart ?_ ?_ _
        · refine inStep_objectDraft ?_ (singles "additionalProperties" (by simp [singleKeys]))
          exact fun named found member inside => parts member.2 (.property found inside)
        · refine inStep_itemsDraft (singles "items" (by simp [singleKeys])) ?_ fun full => ?_
          · exact fun rules found part inside => parts part (.positional found inside)
          · exact inStep_restDraft (singles "additionalItems" (by simp [singleKeys])) full
    | _ => exact inStep_bind inStep_warn fun _ _ _ => inStep_pure (.of_equal rfl rfl)

end

end SchemaTypes
