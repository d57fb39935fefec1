import SchemaTypes.Proofs.Names
import SchemaTypes.Proofs.References
import SchemaTypes.Proofs.SchemaParts
import SchemaTypes.Proofs.TypingSteps
import SchemaTypes.Schema.Reading

/-!
The declarations of a schema are a closed namespace: their names are distinct and proper, and each
declaration refers only to later ones. A draft keeps this relative to the names taken before it, so
the invariant passes from the parts of a schema to the whole.
-/

namespace SchemaTypes

def RefersForward : List Declaration → Prop
  | [] => True
  | declaration :: others =>
    (∀ name ∈ declaration.references, name ∈ others.map Declaration.name) ∧ RefersForward others

theorem refersForward_append {first second : List Declaration} (forward : RefersForward first)
    (forward' : RefersForward second) : RefersForward (first ++ second) := by
  induction first with
  | nil => exact forward'
  | cons declaration first ih =>
    obtain ⟨resolved, forward⟩ := forward
    refine ⟨fun name mentioned => ?_, ih forward⟩
    have inFirst := resolved name mentioned
    simp only [List.append_eq, List.map_append, List.mem_append]
    exact Or.inl inFirst

/-- What declarations drafted under taken names keep, for references that may also mean known names. -/
structure Scoped (taken known references : List String) (declared : List Declaration) : Prop where
  distinct : (declared.map Declaration.name).Nodup
  free : ∀ name ∈ declared.map Declaration.name, name ∉ taken
  proper : ∀ name ∈ declared.map Declaration.name, isTypeName name.toList = true
  forward : RefersForward declared
  resolved : ∀ name ∈ references, name ∈ known ∨ name ∈ declared.map Declaration.name

theorem scoped_nil {taken known references : List String}
    (resolved : ∀ name ∈ references, name ∈ known) : Scoped taken known references [] where
  distinct := List.nodup_nil
  free := by simp
  proper := by simp
  forward := trivial
  resolved name mentioned := Or.inl (resolved name mentioned)

theorem Scoped.append {taken known middle references : List String}
    {first second : List Declaration} (front : Scoped taken known middle first)
    (back : Scoped (taken ++ first.map Declaration.name) (known ++ middle) references second) :
    Scoped taken known references (first ++ second) where
  distinct := by
    rw [List.map_append, List.nodup_append]
    refine ⟨front.distinct, back.distinct, ?_⟩
    rintro name inFirst other inSecond rfl
    exact back.free name inSecond (List.mem_append_right taken inFirst)
  free := by
    rw [List.map_append]
    intro name inside isTaken
    rcases List.mem_append.mp inside with inFirst | inSecond
    · exact front.free name inFirst isTaken
    · exact back.free name inSecond (List.mem_append_left _ isTaken)
  proper := by
    rw [List.map_append]
    intro name inside
    rcases List.mem_append.mp inside with inFirst | inSecond
    · exact front.proper name inFirst
    · exact back.proper name inSecond
  forward := refersForward_append front.forward back.forward
  resolved := by
    intro name mentioned
    rw [List.map_append, List.mem_append]
    rcases back.resolved name mentioned with isKnown | inSecond
    · rcases List.mem_append.mp isKnown with isKnown | inMiddle
      · exact Or.inl isKnown
      · rcases front.resolved name inMiddle with isKnown | inFirst
        · exact Or.inl isKnown
        · exact Or.inr (Or.inl inFirst)
    · exact Or.inr (Or.inr inSecond)

theorem Scoped.weaken {taken known more references fewer : List String}
    {declared : List Declaration} (whole : Scoped taken known references declared)
    (wider : ∀ name ∈ fewer, name ∈ references ∨ name ∈ more) (kept : known ⊆ more) :
    Scoped taken more fewer declared where
  distinct := whole.distinct
  free := whole.free
  proper := whole.proper
  forward := whole.forward
  resolved := by
    intro name mentioned
    rcases wider name mentioned with inReferences | isKnown
    · rcases whole.resolved name inReferences with isKnown | inDeclared
      · exact Or.inl (kept isKnown)
      · exact Or.inr inDeclared
    · exact Or.inl isKnown

/-- Every success of the draft is scoped, for the names that its content mentions. -/
def Draft.Scopes {Content : Type} (known : List String) (mentioned : Content → List String)
    (draft : Draft Content) : Prop :=
  ∀ ⦃taken : List String⦄ ⦃content : Content⦄ ⦃declared : List Declaration⦄,
    draft.Yields taken content declared → Scoped taken known (mentioned content) declared

namespace Draft

variable {Content Other : Type} {known : List String} {mentioned : Content → List String}
  {mentioned' : Other → List String}

theorem scopes_pure {content : Content} (resolved : ∀ name ∈ mentioned content, name ∈ known) :
    (pure content : Draft Content).Scopes known mentioned := by
  intro taken result declared drawn
  obtain ⟨rfl, rfl⟩ := yields_pure.mp drawn
  exact scoped_nil resolved

theorem scopes_refuse {fault : Fault} : (refuse fault : Draft Content).Scopes known mentioned :=
  fun _ _ _ drawn => absurd drawn not_yields_refuse

theorem scopes_warn : warn.Scopes known fun _ => [] := by
  intro taken content declared drawn
  obtain rfl := yields_warn.mp drawn
  exact scoped_nil (by simp)

theorem scopes_within {tokens : Pointer} {draft : Draft Content}
    (scopes : draft.Scopes known mentioned) : (draft.within tokens).Scopes known mentioned :=
  fun _ _ _ drawn => scopes (yields_within.mp drawn)

theorem scopes_map {make : Content → Other} {draft : Draft Content}
    (scopes : draft.Scopes known mentioned)
    (kept : ∀ content, ∀ name ∈ mentioned' (make content), name ∈ mentioned content ∨ name ∈ known) :
    (make <$> draft).Scopes known mentioned' := by
  intro taken result declared drawn
  obtain ⟨content, inner, rfl⟩ := yields_map.mp drawn
  exact (scopes inner).weaken (kept content) (List.Subset.refl known)

theorem scopes_bind {draft : Draft Content} {next : Content → Draft Other}
    (scopes : draft.Scopes known mentioned)
    (scopes' : ∀ content, (next content).Scopes (known ++ mentioned content) mentioned') :
    (draft >>= next).Scopes known mentioned' := by
  intro taken result declared drawn
  obtain ⟨content, first, second, here, later, rfl⟩ := yields_bind.mp drawn
  exact (scopes here).append (scopes' content later)

theorem scopes_known {draft : Draft Content} {more : List String}
    (scopes : draft.Scopes known mentioned) (kept : known ⊆ more) : draft.Scopes more mentioned :=
  fun _ _ _ drawn => (scopes drawn).weaken (fun _ => Or.inl) kept

theorem scopes_each {Source : Type} {draft : Source → Draft Content} {sources : List Source}
    (scopes : ∀ source ∈ sources, (draft source).Scopes [] mentioned) :
    (each draft sources).Scopes [] (·.flatMap mentioned) := by
  induction sources with
  | nil => exact scopes_pure (by simp)
  | cons source sources ih =>
    have first := scopes source List.mem_cons_self
    have others := ih fun other inside => scopes other (List.mem_cons_of_mem source inside)
    apply scopes_bind first
    intro content
    apply scopes_map (scopes_known others (List.nil_subset _))
    intro contents name inside
    rw [List.flatMap_cons, List.mem_append] at inside
    exact inside.symm

end Draft

open Draft TypeExpr

theorem declaration_references (name : String) (docs : Option String) (type : TypeExpr) :
    (declarationOfType name docs type).references = type.references := by
  cases type <;> rfl

theorem scopes_declare {base : String} {schema : Schema} {body : Draft TypeExpr}
    (proper : isTypeName base.toList = true) (scopes : body.Scopes [] references) :
    (declare base schema body).Scopes [] references := by
  intro taken type declared drawn
  obtain ⟨declaration, inner, drafted, rfl, rfl⟩ := yields_declare drawn
  have named := declarationDraft_name drafted
  have within : Scoped (taken ++ [freshName base taken]) [] declaration.references inner := by
    rcases yields_declarationDraft drafted with ⟨_, _, rfl, rfl⟩ | ⟨type, typed, rfl⟩
    · exact scoped_nil (by simp [Declaration.references])
    · rw [declaration_references]
      exact scopes typed
  have apart : ∀ name ∈ inner.map Declaration.name, name ∉ taken ∧ name ≠ freshName base taken := by
    intro name inside
    have free := within.free name inside
    simpa using free
  refine ⟨?_, ?_, ?_, ⟨fun name mentioned => ?_, within.forward⟩, ?_⟩
  · rw [List.map_cons, List.nodup_cons, named]
    exact ⟨fun inside => (apart _ inside).2 rfl, within.distinct⟩
  · intro name inside
    rcases List.mem_cons.mp inside with rfl | inside
    · rw [named]
      exact freshName_not_mem base taken
    · exact (apart name inside).1
  · intro name inside
    rcases List.mem_cons.mp inside with rfl | inside
    · rw [named]
      exact freshName_isTypeName proper taken
    · exact within.proper name inside
  · exact (within.resolved name mentioned).resolve_left (List.not_mem_nil)
  · intro name mentioned
    obtain rfl := List.mem_singleton.mp mentioned
    rw [List.map_cons, named]
    exact Or.inr List.mem_cons_self

theorem declaredBase_isTypeName {schema : Schema} {base : String}
    (found : declaredBase? schema = some base) : isTypeName base.toList = true := by
  obtain ⟨head, _, found⟩ := Option.bind_eq_some_iff.mp found
  split at found
  · cases found
  · obtain ⟨titled, usable⟩ := Option.filter_eq_some_iff.mp found
    obtain ⟨title, _, rfl⟩ := Option.map_eq_some_iff.mp titled
    exact safeName_isTypeName (by simpa using usable)

theorem scopes_place {schema : Schema} {body : Draft TypeExpr} (scopes : body.Scopes [] references) :
    (place schema body).Scopes [] references := by
  unfold place
  split
  · rename_i base found
    exact scopes_declare (declaredBase_isTypeName found) scopes
  · exact scopes

theorem fixedType_references {head : Head} {type : TypeExpr} (fixed : fixedType head = .given type) :
    type.references = [] := by
  unfold fixedType at fixed
  split at fixed
  · cases fixed
    rfl
  · split at fixed
    · rename_i values _
      cases fixed
      apply List.eq_nil_iff_forall_not_mem.mpr
      intro name mentioned
      obtain ⟨type, inside, mentioned⟩ := mem_references_unionOf mentioned
      obtain ⟨value, _, rfl⟩ := List.mem_map.mp inside
      exact absurd mentioned List.not_mem_nil
    · cases fixed
    · split at fixed
      · cases fixed
        rfl
      · cases fixed

section

variable {ignoreBounds : Bool}

def PlacedInScope (ignoreBounds : Bool) (schemas : List Schema) : Prop :=
  ∀ schema ∈ schemas, (place schema (schema.body ignoreBounds)).Scopes [] references

theorem scopes_eachDraft {schemas : List Schema} (placed : PlacedInScope ignoreBounds schemas)
    (index : Nat) : (eachDraft ignoreBounds index schemas).Scopes [] (·.flatMap references) := by
  rw [eachDraft_eq_each]
  refine scopes_each fun entry inside => scopes_within (placed entry.1 ?_)
  exact List.fst_mem_of_mem_zipIdx inside

theorem scopes_armDrafts {key : String} {keyword : Keyword (List Schema)}
    (placed : PlacedInScope ignoreBounds (keyword.content?.getD [])) :
    (armDrafts ignoreBounds key keyword).Scopes [] (fun arms => (arms.getD []).flatMap references) := by
  cases keyword with
  | absent => exact scopes_pure (by simp)
  | malformed fault => exact scopes_refuse
  | given schemas =>
    apply scopes_map (scopes_within (scopes_eachDraft placed 0))
    intro types name mentioned
    exact Or.inl mentioned

theorem scopes_fieldDrafts {required : List String} {keyword : Keyword (List (String × Schema))}
    (placed : PlacedInScope ignoreBounds ((keyword.content?.getD []).map (·.2))) :
    (fieldDrafts ignoreBounds required keyword).Scopes [] (·.flatMap (·.content.references)) := by
  cases keyword with
  | absent => exact scopes_pure (by simp)
  | malformed fault => exact scopes_refuse
  | given members =>
    simp only [fieldDrafts, eachField_eq_each]
    refine scopes_within (scopes_each fun member inside => ?_)
    have part := placed member.2 (List.mem_map_of_mem inside)
    apply scopes_map (scopes_within part)
    intro type name mentioned
    exact Or.inl mentioned

theorem scopes_indexDraft {keyword : Keyword Schema}
    (placed : PlacedInScope ignoreBounds keyword.content?.toList) :
    (indexDraft ignoreBounds keyword).Scopes [] referencesOfOption := by
  unfold indexDraft
  split
  · exact scopes_pure (by simp [referencesOfOption, references])
  · exact scopes_refuse
  · exact scopes_pure (by simp [referencesOfOption])
  · rename_i schema _
    apply scopes_map (scopes_within (placed schema (by simp [Keyword.content?])))
    intro type name mentioned
    exact Or.inl mentioned

theorem scopes_restDraft {full : Bool} {additionalItems : Option Schema}
    (placed : PlacedInScope ignoreBounds additionalItems.toList) :
    (restDraft ignoreBounds full additionalItems).Scopes [] referencesOfOption := by
  unfold restDraft
  split
  · exact scopes_pure (by simp [referencesOfOption])
  · rename_i schema _
    split
    · exact scopes_pure (by simp [referencesOfOption])
    · apply scopes_map (scopes_within (placed schema (by simp)))
      intro type name mentioned
      exact Or.inl mentioned
  · exact scopes_pure (by split <;> simp [referencesOfOption, references])

theorem mem_references_boundedList {item : TypeExpr} {least : Nat} {most : Option Nat} {name : String}
    (mentioned : name ∈ (boundedList item least most).references) : name ∈ item.references := by
  have copies : ∀ count,
      name ∈ referencesOfAll (List.replicate count item) → name ∈ item.references := by
    intro count inside
    obtain ⟨type, copied, inside⟩ := mem_referencesOfAll.mp inside
    rwa [List.eq_of_mem_replicate copied] at inside
  have fromLeast : ∀ count, name ∈ (listFrom item count).references → name ∈ item.references := by
    intro count inside
    unfold listFrom at inside
    split at inside
    · exact inside
    · rcases List.mem_append.mp inside with inside | inside
      · exact copies count inside
      · exact inside
  unfold boundedList at mentioned
  split at mentioned
  · exact fromLeast least mentioned
  · split at mentioned
    · exact mentioned
    · split at mentioned
      · rcases List.mem_append.mp mentioned with inside | inside
        · exact copies _ inside
        · exact absurd inside List.not_mem_nil
      · exact fromLeast least mentioned

theorem noMoreThan_subset (most : Option Nat) (types : List TypeExpr) :
    noMoreThan most types ⊆ types := by
  cases most with
  | none => exact List.Subset.refl types
  | some most => exact List.take_subset most types

theorem scopes_itemsDraft {least most : Option Nat} {restOf : Bool → Draft (Option TypeExpr)}
    {keyword : Keyword (Items Schema)}
    (placed : PlacedInScope ignoreBounds ((keyword.content?.map Items.contents).getD []))
    (rest : ∀ full, (restOf full).Scopes [] referencesOfOption) :
    (itemsDraft ignoreBounds least most restOf keyword).Scopes [] references := by
  unfold itemsDraft
  split
  · apply scopes_pure
    intro name mentioned
    exact absurd (mem_references_boundedList mentioned) List.not_mem_nil
  · exact scopes_refuse
  · rename_i schema
    have part := placed schema (by simp [Keyword.content?, Items.contents])
    refine scopes_bind (scopes_within part) fun item => scopes_pure fun name mentioned => ?_
    exact mem_references_boundedList mentioned
  · rename_i schemas
    apply scopes_bind (scopes_within (scopes_eachDraft placed 0))
    intro types
    apply scopes_bind (scopes_known (rest _) (List.nil_subset _))
    intro after
    apply scopes_pure
    intro name mentioned
    rcases List.mem_append.mp mentioned with inElements | inRest
    · obtain ⟨type, kept, inType⟩ := mem_referencesOfAll.mp inElements
      refine List.mem_append_left _ (List.mem_append_right _ ?_)
      exact List.mem_flatMap.mpr ⟨type, noMoreThan_subset most types kept, inType⟩
    · exact List.mem_append_right _ inRest

theorem scopes_ofKeyword {Content : Type} {default : Content} {keyword : Keyword Content} :
    (Draft.ofKeyword default keyword).Scopes [] fun _ => [] := by
  intro taken content declared drawn
  obtain ⟨rfl, _⟩ := yields_ofKeyword drawn
  exact scoped_nil (by simp)

theorem scopes_objectDraft {required : Keyword (List String)}
    {properties : Keyword (List (String × Schema))} {additionalProperties : Keyword Schema}
    (placed : PlacedInScope ignoreBounds ((properties.content?.getD []).map (·.2)))
    (placed' : PlacedInScope ignoreBounds additionalProperties.content?.toList) :
    (objectDraft ignoreBounds required properties additionalProperties).Scopes [] references := by
  unfold objectDraft
  apply scopes_bind scopes_ofKeyword
  intro names
  apply scopes_bind (scopes_fieldDrafts placed)
  intro fields
  apply scopes_map (scopes_known (scopes_indexDraft placed') (List.nil_subset _))
  intro index name mentioned
  rcases List.mem_append.mp mentioned with inFields | inIndex
  · obtain ⟨field, inside, inField⟩ := mem_referencesOfFields.mp inFields
    exact Or.inr (List.mem_append_right _ (List.mem_flatMap.mpr ⟨field, inside, inField⟩))
  · exact Or.inl inIndex

theorem scopes_kindDraft {object array : Draft TypeExpr} (scopes : object.Scopes [] references)
    (scopes' : array.Scopes [] references) (kind : Kind) :
    (kindDraft object array kind).Scopes [] references := by
  cases kind with
  | object => exact scopes
  | array => exact scopes'
  | _ => exact scopes_pure (by simp [references])

theorem scopes_typedPart {kinds : Keyword (List Kind)} {object array : Draft TypeExpr}
    (scopes : object.Scopes [] references) (scopes' : array.Scopes [] references) :
    (typedPart kinds object array).Scopes [] referencesOfOption := by
  unfold typedPart
  split
  · exact scopes_pure (by simp [referencesOfOption])
  · exact scopes_refuse
  · rw [kindDrafts_eq_each]
    apply scopes_map (scopes_each fun kind _ => scopes_kindDraft scopes scopes' kind)
    intro types name mentioned
    obtain ⟨type, inside, inType⟩ := mem_references_unionOf mentioned
    exact Or.inl (List.mem_flatMap.mpr ⟨type, inside, inType⟩)

theorem mem_references_combined {all any one : Option (List TypeExpr)} {typed : Option TypeExpr}
    {name : String} (mentioned : name ∈ (combined all any one typed).references) :
    name ∈ (all.getD []).flatMap references ++ (any.getD []).flatMap references ++
      (one.getD []).flatMap references ++ referencesOfOption typed := by
  obtain ⟨type, inside, inType⟩ := mem_references_intersectionOf mentioned
  simp only [List.mem_append, Option.mem_toList, Option.map_eq_some_iff] at inside
  simp only [List.mem_append, List.mem_flatMap]
  rcases inside with ((⟨types, rfl, rfl⟩ | ⟨types, rfl, rfl⟩) | ⟨types, rfl, rfl⟩) | rfl
  · exact Or.inl (Or.inl (Or.inl (mem_references_intersectionOf inType)))
  · exact Or.inl (Or.inl (Or.inr (mem_references_unionOf inType)))
  · exact Or.inl (Or.inr (mem_references_unionOf inType))
  · exact Or.inr inType

/-- The body of every schema declares in scope; a part may be placed wherever it stands. -/
theorem scopes_body (schema : Schema) : (schema.body ignoreBounds).Scopes [] references := by
  induction schema using Schema.partsInduction with
  | step schema ih =>
    have placed : ∀ part ∈ schema.parts, (place part (part.body ignoreBounds)).Scopes [] references :=
      fun part inside => scopes_place (ih part inside)
    cases schema with
    | always admits =>
      cases admits <;> exact scopes_pure (by simp [references])
    | foreign =>
      exact scopes_bind scopes_warn fun _ => scopes_pure (by simp [references])
    | node head allOf anyOf oneOf properties additionalProperties items additionalItems =>
      simp only [Schema.parts, List.mem_append] at placed
      rw [body_node]
      split
      · rename_i type fixed
        exact scopes_pure (by simp [fixedType_references fixed])
      · exact scopes_refuse
      · apply scopes_bind (scopes_armDrafts fun part inside => placed part (by tauto))
        intro all
        refine scopes_bind (scopes_known (scopes_armDrafts fun part inside => placed part (by tauto))
          (List.nil_subset _)) fun any => ?_
        refine scopes_bind (scopes_known (scopes_armDrafts fun part inside => placed part (by tauto))
          (List.nil_subset _)) fun one => ?_
        have object : (objectDraft ignoreBounds head.required properties
            additionalProperties).Scopes [] references :=
          scopes_objectDraft (fun part inside => placed part (by tauto))
            fun part inside => placed part (by tauto)
        have array : (arrayDraft ignoreBounds head items additionalItems).Scopes [] references :=
          scopes_itemsDraft (fun part inside => placed part (by tauto)) fun full =>
            scopes_restDraft fun part inside => placed part (by tauto)
        refine scopes_bind (scopes_known (scopes_typedPart object array) (List.nil_subset _))
          fun typed => ?_
        exact scopes_pure fun name mentioned => mem_references_combined mentioned

end

theorem rootBase_isTypeName (schema : Schema) (suggested : String) :
    isTypeName (rootBase schema suggested).toList = true := by
  unfold rootBase
  simp only
  split
  · rename_i title found
    obtain ⟨_, usable⟩ := Option.filter_eq_some_iff.mp found
    exact safeName_isTypeName (by simpa using usable)
  · split
    · rename_i usable
      exact safeName_isTypeName (by simpa using usable)
    · decide

theorem freshName_nil (base : String) : freshName base [] = base := by
  simp [freshName]

theorem declarations_yields {schema : Schema} {suggested : String} {ignoreBounds : Bool}
    {declarations : List Declaration}
    (drawn : (schema.declarations suggested ignoreBounds).outcome = .ok (declarations, [])) :
    (declare (rootBase schema suggested) schema (schema.body ignoreBounds)).Yields []
      (.reference (rootBase schema suggested)) declarations := by
  simp only [Schema.declarations] at drawn
  cases here : (declare (rootBase schema suggested) schema (schema.body ignoreBounds) []).outcome with
  | error malformed => simp [here, Except.map] at drawn
  | ok result =>
    obtain ⟨type, declared⟩ := result
    simp only [here, Except.map, Except.ok.injEq, Prod.mk.injEq, and_true] at drawn
    subst drawn
    obtain ⟨declaration, inner, _, rfl, rfl⟩ := yields_declare here
    rw [freshName_nil] at here
    exact here

theorem declarations_scoped {schema : Schema} {suggested : String} {ignoreBounds : Bool}
    {declarations : List Declaration}
    (drawn : (schema.declarations suggested ignoreBounds).outcome = .ok (declarations, [])) :
    Scoped [] [] [rootBase schema suggested] declarations :=
  scopes_declare (rootBase_isTypeName schema suggested) (scopes_body schema) (declarations_yields drawn)

theorem refersForward_getElem? {declarations : List Declaration} (forward : RefersForward declarations)
    {position : Nat} {declaration : Declaration} (here : declarations[position]? = some declaration)
    {name : String} (mentioned : name ∈ declaration.references) :
    ∃ later target, declarations[later]? = some target ∧ target.name = name ∧ position < later := by
  induction declarations generalizing position with
  | nil => simp at here
  | cons first others ih =>
    cases position with
    | zero =>
      obtain rfl : first = declaration := by simpa using here
      obtain ⟨target, inside, named⟩ := List.mem_map.mp (forward.1 name mentioned)
      obtain ⟨later, found⟩ := List.mem_iff_getElem?.mp inside
      exact ⟨later + 1, target, by simpa using found, named, by omega⟩
    | succ position =>
      obtain ⟨later, target, found, named, after⟩ := ih forward.2 (by simpa using here)
      exact ⟨later + 1, target, by simpa using found, named, by omega⟩

theorem position_unique {declarations : List Declaration}
    (distinct : (declarations.map Declaration.name).Nodup) {first second : Nat}
    {declaration other : Declaration} (here : declarations[first]? = some declaration)
    (there : declarations[second]? = some other) (same : declaration.name = other.name) :
    first = second := by
  have inside : first < (declarations.map Declaration.name).length := by
    rw [List.length_map]
    exact (List.getElem?_eq_some_iff.mp here).1
  apply (List.getElem?_inj inside distinct).mp
  simp [here, there, same]

/--
The declarations of a schema form a closed namespace: distinct names that are proper for types, the
root's declaration first, and each name that a declaration mentions at any depth is the name of
exactly one declaration, which stands later.
-/
theorem declarations_closed (schema : Schema) (suggested : String) (ignoreBounds : Bool)
    (declarations : List Declaration)
    (drawn : (schema.declarations suggested ignoreBounds).outcome = .ok (declarations, [])) :
    (declarations.map Declaration.name).Nodup ∧
      (∀ declaration ∈ declarations, isTypeName declaration.name.toList = true) ∧
      (∃ root others, declarations = root :: others ∧ root.name = rootBase schema suggested ∧
        (declarationDraft root.name schema (schema.body ignoreBounds)).Yields [root.name] root others) ∧
      ∀ (position : Nat) (declaration : Declaration), declarations[position]? = some declaration →
        ∀ name ∈ declaration.references, ∃ (later : Nat) (target : Declaration),
          declarations[later]? = some target ∧ target.name = name ∧ position < later ∧
            ∀ (place : Nat) (other : Declaration),
              declarations[place]? = some other → other.name = name → place = later := by
  have whole := declarations_scoped drawn
  refine ⟨whole.distinct, ?_, ?_, ?_⟩
  · intro declaration inside
    exact whole.proper declaration.name (List.mem_map_of_mem inside)
  · obtain ⟨root, others, drafted, _, rfl⟩ := yields_declare (declarations_yields drawn)
    have named := declarationDraft_name drafted
    rw [freshName_nil] at named drafted
    refine ⟨root, others, rfl, named, ?_⟩
    rw [named]
    exact drafted
  · intro position declaration here name mentioned
    obtain ⟨later, target, found, named, after⟩ := refersForward_getElem? whole.forward here mentioned
    refine ⟨later, target, found, named, after, ?_⟩
    intro place other there same
    exact position_unique whole.distinct there found (same.trans named.symm)

def collidingTitles : Json :=
  .object [
    ("title", .string "Order"),
    ("properties", .object [
      ("customer", .object [("title", .string "order"), ("type", .string "null")]),
      ("billing", .object [("title", .string "Order1"), ("type", .string "string")])])]

def collidingDeclarations : List Declaration := [
  .interface "Order" none
    [⟨"customer", .reference "Order1", false, none⟩, ⟨"billing", .reference "Order11", false, none⟩]
    (some .unknown),
  .typeAlias "Order1" none .null,
  .typeAlias "Order11" none .string]

theorem collidingTitles_closed :
    ((Schema.ofJson collidingTitles).declarations "" false).outcome = .ok (collidingDeclarations, []) ∧
      (collidingDeclarations.map Declaration.name).Nodup ∧
      ∃ (later : Nat) (target : Declaration), collidingDeclarations[later]? = some target ∧
        target.name = "Order11" ∧ 0 < later ∧
          ∀ (place : Nat) (other : Declaration),
            collidingDeclarations[place]? = some other → other.name = "Order11" → place = later := by
  have drawn : ((Schema.ofJson collidingTitles).declarations "" false).outcome =
      .ok (collidingDeclarations, []) := by decide +kernel
  have closed := declarations_closed (Schema.ofJson collidingTitles) "" false collidingDeclarations drawn
  exact ⟨drawn, closed.1, closed.2.2.2 0 _ rfl "Order11" (by decide +kernel)⟩

end SchemaTypes
