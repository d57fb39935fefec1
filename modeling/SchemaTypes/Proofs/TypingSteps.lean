import SchemaTypes.Proofs.Drafts

namespace SchemaTypes

open Draft

variable {ignoreBounds : Bool} {taken : List String} {declared : List Declaration}

theorem yields_declarationDraft {name : String} {schema : Schema} {body : Draft TypeExpr}
    {declaration : Declaration}
    (drawn : (declarationDraft name schema body).Yields taken declaration declared) :
    (∃ members, schema.head?.bind enumMembers? = some members ∧
        declaration = .enumeration name schema.description members ∧ declared = []) ∨
      ∃ type, body.Yields taken type declared ∧
        declaration = declarationOfType name schema.description type := by
  unfold declarationDraft at drawn
  split at drawn
  · rename_i members named
    obtain ⟨rfl, rfl⟩ := yields_pure.mp drawn
    exact Or.inl ⟨members, named, rfl, rfl⟩
  · exact Or.inr (yields_map.mp drawn)

theorem yields_declare {base : String} {schema : Schema} {body : Draft TypeExpr} {type : TypeExpr}
    (drawn : (declare base schema body).Yields taken type declared) :
    ∃ declaration inner,
      (declarationDraft (freshName base taken) schema body).Yields (taken ++ [freshName base taken])
        declaration inner ∧
      type = .reference (freshName base taken) ∧ declared = declaration :: inner := by
  simp only [Yields, declare] at drawn
  cases here : (declarationDraft (freshName base taken) schema body
      (taken ++ [freshName base taken])).outcome with
  | error malformed => simp [here, Except.map] at drawn
  | ok result =>
    obtain ⟨declaration, inner⟩ := result
    simp only [here, Except.map, Except.ok.injEq, Prod.mk.injEq] at drawn
    exact ⟨declaration, inner, here, drawn.1.symm, drawn.2.symm⟩

theorem declarationOfType_name (name : String) (docs : Option String) (type : TypeExpr) :
    (declarationOfType name docs type).name = name := by
  cases type <;> rfl

theorem declarationDraft_name {name : String} {schema : Schema} {body : Draft TypeExpr}
    {declaration : Declaration}
    (drawn : (declarationDraft name schema body).Yields taken declaration declared) :
    declaration.name = name := by
  rcases yields_declarationDraft drawn with ⟨members, _, rfl, _⟩ | ⟨type, _, rfl⟩
  · rfl
  · exact declarationOfType_name name schema.description type

theorem kindDrafts_eq_each (object array : Draft TypeExpr) (kinds : List Kind) :
    kindDrafts object array kinds = each (kindDraft object array) kinds := by
  induction kinds with
  | nil => rfl
  | cons kind kinds ih =>
    simp only [kindDrafts, each, ih]

theorem eachDraft_eq_each (schemas : List Schema) (index : Nat) :
    eachDraft ignoreBounds index schemas =
      each (fun (entry : Schema × Nat) =>
        (place entry.1 (entry.1.body ignoreBounds)).within [Nat.repr entry.2])
        (schemas.zipIdx index) := by
  induction schemas generalizing index with
  | nil => rfl
  | cons schema schemas ih =>
    simp only [eachDraft, List.zipIdx_cons, each, ih]

def fieldDraft (ignoreBounds : Bool) (required : List String) (member : String × Schema) :
    Draft (Field TypeExpr) :=
  (fun type => ⟨member.1, type, required.contains member.1, member.2.description⟩) <$>
    (place member.2 (member.2.body ignoreBounds)).within [member.1]

theorem eachField_eq_each (required : List String) (schemas : List (String × Schema)) :
    eachField ignoreBounds required schemas = each (fieldDraft ignoreBounds required) schemas := by
  induction schemas with
  | nil => rfl
  | cons member schemas ih =>
    simp only [eachField, each, fieldDraft, bind_map_left, ih]

def objectDraft (ignoreBounds : Bool) (required : Keyword (List String))
    (properties : Keyword (List (String × Schema))) (additionalProperties : Keyword Schema) :
    Draft TypeExpr := do
  let required ← Draft.ofKeyword [] required
  let fields ← fieldDrafts ignoreBounds required properties
  .object fields <$> indexDraft ignoreBounds additionalProperties

def arrayDraft (ignoreBounds : Bool) (head : Head) (items : Keyword (Items Schema))
    (additionalItems : Option Schema) : Draft TypeExpr :=
  itemsDraft ignoreBounds (bound ignoreBounds head.minItems) (bound ignoreBounds head.maxItems)
    (fun full => restDraft ignoreBounds full additionalItems) items

def ownDraft (ignoreBounds : Bool) (head : Head) (properties : Keyword (List (String × Schema)))
    (additionalProperties : Keyword Schema) (items : Keyword (Items Schema))
    (additionalItems : Option Schema) : Draft (Option TypeExpr) :=
  typedPart
    (effectiveKinds head.kinds
      (properties.isPresent || additionalProperties.isPresent || head.required.isPresent)
      items.isPresent)
    (objectDraft ignoreBounds head.required properties additionalProperties)
    (arrayDraft ignoreBounds head items additionalItems)

def combined (all any one : Option (List TypeExpr)) (typed : Option TypeExpr) : TypeExpr :=
  TypeExpr.intersectionOf
    ((all.map TypeExpr.intersectionOf).toList ++ (any.map TypeExpr.unionOf).toList ++
      (one.map TypeExpr.unionOf).toList ++ typed.toList)

/-- What a node without a fixed answer drafts: its arms, keyword by keyword, and then its own part. -/
def openDraft (ignoreBounds : Bool) (head : Head) (allOf anyOf oneOf : Keyword (List Schema))
    (properties : Keyword (List (String × Schema))) (additionalProperties : Keyword Schema)
    (items : Keyword (Items Schema)) (additionalItems : Option Schema) : Draft TypeExpr := do
  let all ← armDrafts ignoreBounds "allOf" allOf
  let any ← armDrafts ignoreBounds "anyOf" anyOf
  let one ← armDrafts ignoreBounds "oneOf" oneOf
  let typed ← ownDraft ignoreBounds head properties additionalProperties items additionalItems
  pure (combined all any one typed)

theorem body_node (head : Head) (allOf anyOf oneOf : Keyword (List Schema))
    (properties : Keyword (List (String × Schema))) (additionalProperties : Keyword Schema)
    (items : Keyword (Items Schema)) (additionalItems : Option Schema) :
    (Schema.node head allOf anyOf oneOf properties additionalProperties items additionalItems).body
        ignoreBounds =
      match fixedType head with
      | .given type => pure type
      | .malformed fault => Draft.refuse fault
      | .absent =>
        openDraft ignoreBounds head allOf anyOf oneOf properties additionalProperties items
          additionalItems := by
  simp only [Schema.body]
  rfl

theorem indexDraft_given {schema : Schema} (admitting : schema ≠ .always false) :
    indexDraft ignoreBounds (.given schema) =
      some <$> (place schema (schema.body ignoreBounds)).within ["additionalProperties"] := by
  unfold indexDraft
  split
  · rename_i given
    cases given
  · rename_i given
    cases given
  · rename_i given
    cases given
    exact absurd rfl admitting
  · rename_i given
    cases given
    rfl

theorem restDraft_given {schema : Schema} (admitting : schema ≠ .always false) (full : Bool) :
    restDraft ignoreBounds full (some schema) =
      if full then pure none
      else some <$> (place schema (schema.body ignoreBounds)).within ["additionalItems"] := by
  unfold restDraft
  split
  · rename_i given
    cases given
    exact absurd rfl admitting
  · rename_i given
    cases given
    rfl
  · rename_i given
    cases given

def Placed (ignoreBounds : Bool) (declared : List Declaration) (schema : Schema) (type : TypeExpr) :
    Prop :=
  (place schema (schema.body ignoreBounds)).Contributes type declared

theorem placed_eachDraft {schemas : List Schema} {index : Nat} {types : List TypeExpr}
    (drawn : (eachDraft ignoreBounds index schemas).Contributes types declared) :
    List.Forall₂ (Placed ignoreBounds declared) schemas types := by
  rw [eachDraft_eq_each] at drawn
  have entries := (contributes_each drawn).imp fun _ _ found => contributes_within found
  rw [← List.zipIdx_map_fst index schemas, List.forall₂_map_left_iff]
  exact entries

theorem placed_armDrafts {key : String} {keyword : Keyword (List Schema)}
    {arms : Option (List TypeExpr)}
    (drawn : (armDrafts ignoreBounds key keyword).Contributes arms declared) :
    (keyword = .absent ∧ arms = none) ∨
      ∃ schemas types, keyword = .given schemas ∧ arms = some types ∧
        List.Forall₂ (Placed ignoreBounds declared) schemas types := by
  cases keyword with
  | absent => exact Or.inl ⟨rfl, contributes_pure drawn⟩
  | malformed fault => exact absurd drawn not_contributes_refuse
  | given schemas =>
    obtain ⟨types, inner, rfl⟩ := contributes_map drawn
    exact Or.inr ⟨schemas, types, rfl, rfl, placed_eachDraft (contributes_within inner)⟩

theorem placed_fieldDrafts {required : List String} {keyword : Keyword (List (String × Schema))}
    {fields : List (Field TypeExpr)}
    (drawn : (fieldDrafts ignoreBounds required keyword).Contributes fields declared) :
    (keyword = .absent ∧ fields = []) ∨
      ∃ named, keyword = .given named ∧
        List.Forall₂ (fun (member : String × Schema) (field : Field TypeExpr) =>
          field.name = member.1 ∧ field.required = required.contains member.1 ∧
            Placed ignoreBounds declared member.2 field.content) named fields := by
  cases keyword with
  | absent => exact Or.inl ⟨rfl, contributes_pure drawn⟩
  | malformed fault => exact absurd drawn not_contributes_refuse
  | given named =>
    simp only [fieldDrafts, eachField_eq_each] at drawn
    refine Or.inr ⟨named, rfl, (contributes_each (contributes_within drawn)).imp ?_⟩
    intro member field found
    obtain ⟨type, inner, rfl⟩ := contributes_map found
    exact ⟨rfl, rfl, contributes_within inner⟩

theorem placed_indexDraft {keyword : Keyword Schema} {index : Option TypeExpr}
    (drawn : (indexDraft ignoreBounds keyword).Contributes index declared) :
    (keyword = .absent ∧ index = some .unknown) ∨
      (keyword = .given (.always false) ∧ index = none) ∨
      ∃ schema type, keyword = .given schema ∧ index = some type ∧
        Placed ignoreBounds declared schema type := by
  unfold indexDraft at drawn
  split at drawn
  · exact Or.inl ⟨rfl, contributes_pure drawn⟩
  · exact absurd drawn not_contributes_refuse
  · exact Or.inr (Or.inl ⟨rfl, contributes_pure drawn⟩)
  · rename_i schema _
    obtain ⟨type, inner, rfl⟩ := contributes_map drawn
    exact Or.inr (Or.inr ⟨schema, type, rfl, rfl, contributes_within inner⟩)

theorem placed_restDraft {full : Bool} {additionalItems : Option Schema} {rest : Option TypeExpr}
    (drawn : (restDraft ignoreBounds full additionalItems).Contributes rest declared) :
    (rest = none ∧ (full = true ∨ additionalItems = some (.always false))) ∨
      (additionalItems = none ∧ rest = some .unknown) ∨
      ∃ schema type, full = false ∧ additionalItems = some schema ∧ rest = some type ∧
        Placed ignoreBounds declared schema type := by
  unfold restDraft at drawn
  split at drawn
  · exact Or.inl ⟨contributes_pure drawn, Or.inr rfl⟩
  · rename_i schema _
    split at drawn
    · rename_i isFull
      exact Or.inl ⟨contributes_pure drawn, Or.inl isFull⟩
    · rename_i roomy
      obtain ⟨type, inner, rfl⟩ := contributes_map drawn
      have open_ended : full = false := by simpa using roomy
      exact Or.inr (Or.inr ⟨schema, type, open_ended, rfl, rfl, contributes_within inner⟩)
  · have rest_eq := contributes_pure drawn
    cases full with
    | true => exact Or.inl ⟨rest_eq, Or.inl rfl⟩
    | false => exact Or.inr (Or.inl ⟨rfl, rest_eq⟩)

theorem placed_itemsDraft {least most : Option Nat} {restOf : Bool → Draft (Option TypeExpr)}
    {keyword : Keyword (Items Schema)} {type : TypeExpr}
    (drawn : (itemsDraft ignoreBounds least most restOf keyword).Contributes type declared) :
    (keyword = .absent ∧ type = boundedList .unknown (least.getD 0) most) ∨
      (∃ schema item, keyword = .given (.every schema) ∧ Placed ignoreBounds declared schema item ∧
        type = boundedList item (least.getD 0) most) ∨
      ∃ schemas types rest, keyword = .given (.positional schemas) ∧
        List.Forall₂ (Placed ignoreBounds declared) schemas types ∧
        (restOf (isFull most (noMoreThan most types).length)).Contributes rest declared ∧
        type = positionalTuple least (noMoreThan most types) rest := by
  unfold itemsDraft at drawn
  split at drawn
  · exact Or.inl ⟨rfl, contributes_pure drawn⟩
  · exact absurd drawn not_contributes_refuse
  · rename_i schema
    obtain ⟨item, inner, last⟩ := contributes_bind drawn
    exact Or.inr (Or.inl ⟨schema, item, rfl, contributes_within inner, contributes_pure last⟩)
  · rename_i schemas
    obtain ⟨types, inner, later⟩ := contributes_bind drawn
    obtain ⟨rest, after, last⟩ := contributes_bind later
    exact Or.inr (Or.inr ⟨schemas, types, rest, rfl, placed_eachDraft (contributes_within inner), after,
      contributes_pure last⟩)

theorem contributes_typedPart {kinds : Keyword (List Kind)} {object array : Draft TypeExpr}
    {typed : Option TypeExpr} (drawn : (typedPart kinds object array).Contributes typed declared) :
    (kinds = .absent ∧ typed = none) ∨
      ∃ named types, kinds = .given named ∧ typed = some (TypeExpr.unionOf types) ∧
        List.Forall₂ (fun kind type => (kindDraft object array kind).Contributes type declared)
          named types := by
  cases kinds with
  | absent => exact Or.inl ⟨rfl, contributes_pure drawn⟩
  | malformed fault => exact absurd drawn not_contributes_refuse
  | given named =>
    simp only [typedPart, kindDrafts_eq_each] at drawn
    obtain ⟨types, inner, rfl⟩ := contributes_map drawn
    exact Or.inr ⟨named, types, rfl, rfl, contributes_each inner⟩

end SchemaTypes
