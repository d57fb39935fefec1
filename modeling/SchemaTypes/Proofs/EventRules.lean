import SchemaTypes.Proofs.Events
import SchemaTypes.Proofs.Mentions

namespace SchemaTypes

open Draft TypeExpr

def leastItems (ignoreBounds : Bool) (members : List (String × Json)) : Nat :=
  (bound ignoreBounds ((members.lookup "minItems").bind Json.nat?)).getD 0

def mostUnder (ignoreBounds : Bool) (members : List (String × Json)) (key : String) : Option Nat :=
  if key = "items" then mostItems ignoreBounds members else none

/-- A relation of drafts to the events that they follow, kept by each way to put drafts together. -/
structure EventRules (ignoreBounds : Bool) (members : List (String × Json))
    (Follows : ∀ {Content : Type},
      List String → (Content → List String) → Draft Content → List Event → Prop) : Prop where
  done {Content : Type} {known : List String} {mentioned : Content → List String} {content : Content}
    (same : ∀ name, name ∈ mentioned content ↔ name ∈ known) :
    Follows known mentioned (pure content) []
  refused {Content : Type} {known : List String} {mentioned : Content → List String} (fault : Fault) :
    Follows known mentioned (refuse fault) [.wrong fault]
  change {Content Other : Type} {known : List String} {mentioned : Content → List String}
    {mentioned' : Other → List String} {make : Content → Other} {draft : Draft Content}
    {events : List Event} (follows : Follows [] mentioned draft events)
    (same : ∀ content name,
      name ∈ mentioned' (make content) ↔ name ∈ known ∨ name ∈ mentioned content) :
    Follows known mentioned' (make <$> draft) events
  next {Content Other : Type} {known : List String} {mentioned : Content → List String}
    {mentioned' : Other → List String} {draft : Draft Content} {next : Content → Draft Other}
    {events later : List Event} (follows : Follows [] mentioned draft events)
    (follows' : ∀ taken content declared, draft.Yields taken content declared →
      Follows (known ++ mentioned content) mentioned' (next content) later) :
    Follows known mentioned' (draft >>= next) (events ++ later)
  visit {key : String} {tokens : Pointer} (part : Json) (other : key ≠ "items") :
    Follows [] references
      ((place (Schema.ofJson part) ((Schema.ofJson part).body ignoreBounds)).within (key :: tokens))
      [.visit (key :: tokens) part]
  item (part : Json) :
    Follows [] references
      (do
        let item ←
          (place (Schema.ofJson part) ((Schema.ofJson part).body ignoreBounds)).within ["items"]
        pure (boundedList item (leastItems ignoreBounds members) (mostItems ignoreBounds members)))
      [.visit ["items"] part]
  elements (key : String) (elements : List Json) :
    Follows [] (fun types => (noMoreThan (mostUnder ignoreBounds members key) types).flatMap references)
      ((eachDraft ignoreBounds 0 (elements.map Schema.ofJson)).within [key]) (elementEvents key elements)

theorem all_isSome {Source Read : Type} (read : Source → Option Read) (sources : List Source) :
    sources.all (fun source => (read source).isSome) = (sources.mapM read).isSome := by
  induction sources with
  | nil => rfl
  | cons source sources ih =>
    rw [List.all_cons, ih, List.mapM_cons]
    cases read source with
    | none => rfl
    | some content => cases here : sources.mapM read <;> rfl

theorem isFull_noMoreThan {most : Option Nat} {parts : List Json} {types : List TypeExpr}
    (same : types.length = parts.length) :
    isFull most (noMoreThan most types).length = isFull most parts.length := by
  cases most with
  | none => rfl
  | some most =>
    rw [isFull, isFull, noMoreThan, List.length_take, same, decide_eq_decide]
    omega

namespace EventRules

variable {Content : Type} {ignoreBounds : Bool} {members : List (String × Json)}
  {Follows : ∀ {Content : Type},
    List String → (Content → List String) → Draft Content → List Event → Prop}
  {known : List String} {mentioned : Content → List String}
  (rules : EventRules ignoreBounds members @Follows)

include rules

theorem each {Source : Type} {draft : Source → Draft Content} {events : Source → List Event}
    {sources : List Source}
    (follows : ∀ source ∈ sources, Follows [] mentioned (draft source) (events source)) :
    Follows [] (·.flatMap mentioned) (Draft.each draft sources) (sources.flatMap events) := by
  induction sources with
  | nil => exact rules.done (by simp)
  | cons source sources ih =>
    have first := follows source List.mem_cons_self
    have others := ih fun other inside => follows other (List.mem_cons_of_mem source inside)
    exact rules.next first fun _ content _ _ => rules.change others (by simp)

theorem keyword {Read : Type} (fault : Fault) {shape : Json → Option Read}
    {read : Json → Option (List Event)} {draft : Keyword Read → Draft Content}
    (absent : Follows known mentioned (draft .absent) [])
    (refused : ∀ other, draft (.malformed other) = refuse other)
    (misread : ∀ value, shape value = none → read value = none)
    (given : ∀ value content, members.lookup fault.keyword = some value →
      shape value = some content →
        ∃ events, read value = some events ∧ Follows known mentioned (draft (.given content)) events) :
    Follows known mentioned
      (draft (readKeyword fault.keyword (fun value => .ofShape fault (shape value)) members))
      (keywordEvents fault read members) := by
  unfold readKeyword keywordEvents
  cases found : members.lookup fault.keyword with
  | none => exact absent
  | some value =>
    cases shaped : shape value with
    | none =>
      simp only [shaped, Keyword.ofShape, misread value shaped, Option.getD_none, refused]
      exact rules.refused fault
    | some content =>
      obtain ⟨events, same, follows⟩ := given value content found shaped
      simpa only [shaped, Keyword.ofShape, same, Option.getD_some] using follows

theorem arms (fault : Fault) (other : fault.keyword ≠ "items") :
    Follows [] (fun arms => (arms.getD []).flatMap references)
      (armDrafts ignoreBounds fault.keyword (Schema.armsOf fault.keyword fault members))
      (armEvents fault members) := by
  apply rules.keyword fault
  · exact rules.done (by simp)
  · exact fun other => rfl
  · intro value unlisted
    simpa [Schema.listOf?] using unlisted
  · intro value schemas found listed
    obtain ⟨elements, rfl, rfl⟩ := listOf?_eq_some.mp listed
    refine ⟨_, rfl, rules.change (rules.elements fault.keyword elements) ?_⟩
    simp [mostUnder, other, noMoreThan]

theorem required :
    Follows [] (fun _ => []) (Draft.ofKeyword [] (readHead members).required)
      (requiredEvents members) := by
  simp only [readHead, readKeyword, requiredEvents, keywordEvents, Fault.keyword]
  cases members.lookup "required" with
  | none => exact rules.done (by simp)
  | some value =>
    cases value with
    | array names =>
      simp only [readRequired, Json.elements?, Option.map_some, Option.getD_some, all_isSome]
      cases names.mapM Json.string? with
      | none => exact rules.refused .requiredNotNames
      | some texts => exact rules.done (by simp)
    | _ => exact rules.refused .requiredNotArray

theorem fields (required : List String) :
    Follows [] (·.flatMap (·.content.references))
      (fieldDrafts ignoreBounds required (Schema.propertiesOf members)) (propertyEvents members) := by
  apply rules.keyword .propertiesNotObject
  · exact rules.done (by simp)
  · exact fun other => rfl
  · intro value unnamed
    simpa [Schema.tableOf?] using unnamed
  · intro value named found table
    obtain ⟨entries, rfl, rfl⟩ := tableOf?_eq_some.mp table
    refine ⟨_, rfl, ?_⟩
    rw [fieldDrafts, eachField_eq_each, within_each, each_map]
    simp only [List.map_eq_flatMap]
    apply rules.each
    intro member _
    rw [fieldDraft, within_map, within_within]
    exact rules.change (rules.visit member.2 (by decide)) (by simp)

theorem index :
    Follows [] referencesOfOption (indexDraft ignoreBounds (Schema.additionalPropertiesOf members))
      (additionalEvents members) := by
  apply rules.keyword .additionalPropertiesNotSchema
  · exact rules.done (by simp [referencesOfOption, references])
  · exact fun other => rfl
  · intro value foreign
    cases value with
    | boolean admits => cases foreign
    | object inner =>
      rw [Schema.single?, ofJson_object] at foreign
      cases foreign
    | _ => rfl
  · intro value schema found single
    obtain ⟨rfl, schematic⟩ := single?_eq_some single
    cases value with
    | boolean admits =>
      refine ⟨_, rfl, ?_⟩
      cases admits
      · exact rules.done (by simp [referencesOfOption])
      · exact rules.done (by simp [referencesOfOption, references])
    | object inner =>
      refine ⟨_, rfl, ?_⟩
      rw [indexDraft_given (by simp [ofJson_object])]
      exact rules.change (rules.visit (.object inner) (by decide)) (by simp [referencesOfOption])
    | _ => exact absurd rfl schematic

theorem rest (count : Nat) :
    Follows [] referencesOfOption
      (restDraft ignoreBounds (isFull (mostItems ignoreBounds members) count)
        (Schema.additionalItemsOf members))
      (restEvents ignoreBounds members count) := by
  have open_ended : ∀ full, Follows [] referencesOfOption (restDraft ignoreBounds full none) [] := by
    intro full
    rw [restDraft]
    exact rules.done (by cases full <;> simp [referencesOfOption, references])
  unfold Schema.additionalItemsOf restEvents
  cases members.lookup "additionalItems" with
  | none => exact open_ended _
  | some value =>
    cases value with
    | boolean admits =>
      cases admits
      · exact rules.done (by simp [referencesOfOption])
      · exact open_ended _
    | object inner =>
      have restricted :
          Schema.restrictionOf? (.object inner) = some (Schema.ofJson (.object inner)) := by
        rw [Schema.restrictionOf?, ofJson_object]
      rw [Option.bind_some, restricted, restDraft_given (by simp [ofJson_object])]
      split
      · exact rules.done (by simp [referencesOfOption])
      · exact rules.change (rules.visit (.object inner) (by decide)) (by simp [referencesOfOption])
    | _ => exact open_ended _

theorem positional (least : Option Nat) (parts : List Json) :
    Follows [] references
      (itemsDraft ignoreBounds least (mostItems ignoreBounds members)
        (fun full => restDraft ignoreBounds full (Schema.additionalItemsOf members))
        (.given (.positional (parts.map Schema.ofJson))))
      (elementEvents "items" parts ++ restEvents ignoreBounds members parts.length) := by
  apply rules.next (rules.elements "items" parts)
  intro taken types declared drawn
  have paired := placed_eachDraft (contributes_within drawn.contributes)
  have same : types.length = parts.length := by
    rw [← paired.length_eq, List.length_map]
  simp only [isFull_noMoreThan same]
  rw [← List.append_nil (restEvents ignoreBounds members parts.length)]
  apply rules.next (rules.rest parts.length)
  intro _ rest _ _
  apply rules.done
  simp [positionalTuple, references, mem_referencesOfAll, mostUnder]

theorem array :
    Follows [] references
      (arrayDraft ignoreBounds (readHead members) (Schema.itemsOf members)
        (Schema.additionalItemsOf members))
      (itemEvents ignoreBounds members) := by
  apply rules.keyword .itemsNotSchemas
  · apply rules.done
    simp [references_boundedList, references]
  · exact fun other => rfl
  · intro value foreign
    obtain ⟨noBoolean, noObject, noArray⟩ := itemsOf?_eq_none foreign
    cases value with
    | boolean admits => exact absurd rfl (noBoolean admits)
    | object inner => exact absurd rfl (noObject inner)
    | array parts => exact absurd rfl (noArray parts)
    | _ => rfl
  · intro value items found shaped
    cases items with
    | every schema =>
      obtain rfl := itemsOf?_eq_every shaped
      refine ⟨[.visit ["items"] value], ?_, rules.item value⟩
      cases value with
      | boolean admits => rfl
      | object inner => rfl
      | _ => cases shaped
    | positional schemas =>
      obtain ⟨parts, rfl, rfl⟩ := itemsOf?_eq_positional shaped
      exact ⟨_, rfl, rules.positional _ parts⟩

theorem object :
    Follows [] references
      (objectDraft ignoreBounds (readHead members).required (Schema.propertiesOf members)
        (Schema.additionalPropertiesOf members))
      (objectEvents members) := by
  rw [objectEvents, List.append_assoc]
  apply rules.next rules.required
  intro _ required _ _
  apply rules.next (rules.fields required)
  intro _ fields _ _
  apply rules.change rules.index
  simp [references, mem_referencesOfFields]

theorem kind (name : String) :
    Follows [] references
      (kindDraft
        (objectDraft ignoreBounds (readHead members).required (Schema.propertiesOf members)
          (Schema.additionalPropertiesOf members))
        (arrayDraft ignoreBounds (readHead members) (Schema.itemsOf members)
          (Schema.additionalItemsOf members)) (Kind.ofName name))
      (kindEvents ignoreBounds members name) := by
  unfold kindEvents
  split
  · rename_i same
    subst same
    exact rules.object
  · split
    · rename_i same
      subst same
      exact rules.array
    · unfold Kind.ofName
      repeat' split
      all_goals exact rules.done (by simp [references])

theorem kinds (names : List String) :
    Follows [] referencesOfOption
      (typedPart (.given (names.map Kind.ofName))
        (objectDraft ignoreBounds (readHead members).required (Schema.propertiesOf members)
          (Schema.additionalPropertiesOf members))
        (arrayDraft ignoreBounds (readHead members) (Schema.itemsOf members)
          (Schema.additionalItemsOf members)))
      (names.flatMap (kindEvents ignoreBounds members)) := by
  rw [typedPart, kindDrafts_eq_each, each_map]
  apply rules.change (rules.each fun name _ => rules.kind name)
  simp [referencesOfOption, references_unionOf]

theorem own :
    Follows [] referencesOfOption
      (ownDraft ignoreBounds (readHead members) (Schema.propertiesOf members)
        (Schema.additionalPropertiesOf members) (Schema.itemsOf members)
        (Schema.additionalItemsOf members))
      (typeEvents members ++ (effectiveNames members).flatMap (kindEvents ignoreBounds members)) := by
  have kinds := rules.kinds
  have present : (Schema.propertiesOf members).isPresent = hasMember "properties" members ∧
      (Schema.additionalPropertiesOf members).isPresent = hasMember "additionalProperties" members ∧
      (Schema.itemsOf members).isPresent = hasMember "items" members :=
    ⟨isPresent_readKeyword, isPresent_readKeyword, isPresent_readKeyword⟩
  rw [ownDraft, present.1, present.2.1, present.2.2, isPresent_required]
  have read : (readHead members).kinds =
      readKeyword "type" (fun value => .ofShape .typeNotNames (readKinds value)) members := rfl
  rw [read]
  simp only [readKeyword, effectiveNames, typeEvents, keywordEvents, Fault.keyword]
  cases members.lookup "type" with
  | none =>
    simp only [effectiveKinds, List.nil_append]
    split
    · exact kinds ["object"]
    · split
      · exact kinds ["array"]
      · exact rules.done (by simp [referencesOfOption])
  | some value =>
    simp only [readKinds_eq]
    cases typeNames? value with
    | none => exact rules.refused .typeNotNames
    | some names => exact kinds names

theorem unfixed :
    Follows [] references
      (openDraft ignoreBounds (readHead members) (Schema.armsOf "allOf" .allOfNotArray members)
        (Schema.armsOf "anyOf" .anyOfNotArray members) (Schema.armsOf "oneOf" .oneOfNotArray members)
        (Schema.propertiesOf members) (Schema.additionalPropertiesOf members)
        (Schema.itemsOf members) (Schema.additionalItemsOf members))
      (openEvents ignoreBounds members) := by
  rw [openEvents, List.append_assoc, List.append_assoc, List.append_assoc,
    ← List.append_nil (typeEvents members ++ _)]
  apply rules.next (rules.arms .allOfNotArray (by decide))
  intro _ all _ _
  apply rules.next (rules.arms .anyOfNotArray (by decide))
  intro _ any _ _
  apply rules.next (rules.arms .oneOfNotArray (by decide))
  intro _ one _ _
  apply rules.next rules.own
  intro _ typed _ _
  apply rules.done
  simp [references_combined]

theorem body :
    Follows [] references ((Schema.ofJson (.object members)).body ignoreBounds)
      (nodeEvents ignoreBounds members) := by
  have verbatim : (readHead members).verbatim = stringMember "tsType" members := rfl
  have enumeration : (readHead members).enumeration =
      readKeyword "enum" (fun value => .ofShape .enumNotArray value.elements?) members := rfl
  have constant : (readHead members).constant = members.lookup "const" := rfl
  rw [ofJson_object, body_node]
  unfold fixedType nodeEvents
  rw [verbatim, enumeration, constant]
  cases stringMember "tsType" members with
  | some text => exact rules.done (by simp [references])
  | none =>
    rcases Option.eq_none_or_eq_some (members.lookup "enum") with missing | ⟨value, found⟩
    · rcases Option.eq_none_or_eq_some (members.lookup "const") with missing' | ⟨value, found⟩
      · simp only [readKeyword, hasMember, missing, missing']
        exact rules.unfixed
      · simp only [readKeyword, hasMember, missing, found]
        exact rules.done (by simp [references])
    · simp only [readKeyword, hasMember, enumEvents, keywordEvents, Fault.keyword, found]
      cases value with
      | array values => exact rules.done (by simp [references_unionOf, references])
      | _ => exact rules.refused .enumNotArray

end EventRules

end SchemaTypes
