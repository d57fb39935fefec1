import SchemaTypes.Annotation
import SchemaTypes.Proofs.Comments
import SchemaTypes.Proofs.DistinctKeys
import SchemaTypes.Proofs.SchemaNodes

namespace SchemaTypes

open Json

theorem annotateElements_eq (elements : List Json) :
    annotateElements elements = elements.map annotate := by
  induction elements with
  | nil => rfl
  | cons element elements ih => rw [annotateElements, ih, List.map_cons]

theorem annotateMembers_eq (members : List (String × Json)) :
    annotateMembers members = members.map fun member => (member.1, member.2.annotate) := by
  induction members with
  | nil => rfl
  | cons member members ih => rw [annotateMembers, ih, List.map_cons]

def annotatedNode (members : List (String × Json)) : List (String × Json) :=
  addHint (hint? members) (annotateMembers members)

theorem lookup_addHint {key : String} (other : key ≠ hintKey) (hint : Option String)
    (members : List (String × Json)) : (addHint hint members).lookup key = members.lookup key := by
  cases hint with
  | none => rfl
  | some hint => exact lookup_putMember_of_ne other (.string hint) members

theorem lookup_annotatedNode {key : String} (other : key ≠ hintKey) (members : List (String × Json)) :
    (annotatedNode members).lookup key = (members.lookup key).map annotate := by
  rw [annotatedNode, lookup_addHint other, annotateMembers_eq, lookup_map_member fun _ => annotate]

theorem mem_annotatedNode {members : List (String × Json)} {member : String × Json}
    (inside : member ∈ annotatedNode members) :
    (∃ hint, member.2 = .string hint) ∨ ∃ source ∈ members, member.2 = source.2.annotate := by
  have below : member ∈ annotateMembers members → ∃ source ∈ members, member.2 = source.2.annotate := by
    intro there
    rw [annotateMembers_eq] at there
    obtain ⟨source, from_source, rfl⟩ := List.mem_map.mp there
    exact ⟨source, from_source, rfl⟩
  unfold annotatedNode at inside
  cases here : hint? members with
  | none =>
    rw [here] at inside
    exact Or.inr (below inside)
  | some hint =>
    rw [here] at inside
    rcases mem_putMember inside with rfl | there
    · exact Or.inl ⟨hint, rfl⟩
    · exact Or.inr (below there)

theorem annotate_eq_array {value : Json} {elements : List Json}
    (annotated : value.annotate = .array elements) :
    ∃ sources, value = .array sources ∧ elements = sources.map annotate := by
  cases value with
  | array sources =>
    rw [annotate, annotateElements_eq] at annotated
    cases annotated
    exact ⟨sources, rfl, rfl⟩
  | _ => cases annotated

theorem annotate_eq_object {value : Json} {members : List (String × Json)}
    (annotated : value.annotate = .object members) :
    ∃ sources, value = .object sources ∧ members = annotatedNode sources := by
  cases value with
  | object sources =>
    cases annotated
    exact ⟨sources, rfl, rfl⟩
  | _ => cases annotated

/-- What stands under an annotated value stood there before, or it is a hint in a table of schemas. -/
theorem hasPart_annotate {value annotated : Json} (step : HasPart value.annotate annotated) :
    (∃ hint, annotated = .string hint) ∨ ∃ part, HasPart value part ∧ annotated = part.annotate := by
  have combiningOther : ∀ key ∈ combiningKeys, key ≠ hintKey := by decide
  have singleOther : ∀ key ∈ singleKeys, key ≠ hintKey := by decide
  generalize whole : value.annotate = schema at step
  cases step with
  | @arm _ key _ _ combining given inside =>
    obtain ⟨members, rfl, rfl⟩ := annotate_eq_object whole
    rw [lookup_annotatedNode (combiningOther key combining)] at given
    obtain ⟨value, found, same⟩ := Option.map_eq_some_iff.mp given
    obtain ⟨arms, rfl, rfl⟩ := annotate_eq_array same
    obtain ⟨arm, there, rfl⟩ := List.mem_map.mp inside
    exact Or.inr ⟨arm, .arm combining found there, rfl⟩
  | property given inside =>
    obtain ⟨members, rfl, rfl⟩ := annotate_eq_object whole
    rw [lookup_annotatedNode (by decide)] at given
    obtain ⟨value, found, same⟩ := Option.map_eq_some_iff.mp given
    obtain ⟨named, rfl, rfl⟩ := annotate_eq_object same
    rcases mem_annotatedNode inside with hint | ⟨source, there, same'⟩
    · exact Or.inl hint
    · exact Or.inr ⟨source.2, .property found there, same'⟩
  | @single _ key _ reading given =>
    obtain ⟨members, rfl, rfl⟩ := annotate_eq_object whole
    rw [lookup_annotatedNode (singleOther key reading)] at given
    obtain ⟨part, found, rfl⟩ := Option.map_eq_some_iff.mp given
    exact Or.inr ⟨part, .single reading found, rfl⟩
  | positional given inside =>
    obtain ⟨members, rfl, rfl⟩ := annotate_eq_object whole
    rw [lookup_annotatedNode (by decide)] at given
    obtain ⟨value, found, same⟩ := Option.map_eq_some_iff.mp given
    obtain ⟨parts, rfl, rfl⟩ := annotate_eq_array same
    obtain ⟨part, there, rfl⟩ := List.mem_map.mp inside
    exact Or.inr ⟨part, .positional found there, rfl⟩

theorem hasNode_annotate {value : Json} {annotated : List (String × Json)}
    (node : HasNode value.annotate annotated) :
    ∃ members, HasNode value members ∧ annotated = annotatedNode members := by
  generalize whole : value.annotate = schema at node
  induction node generalizing value with
  | here =>
    obtain ⟨members, rfl, rfl⟩ := annotate_eq_object whole
    exact ⟨members, .here, rfl⟩
  | deeper step node ih =>
    subst whole
    rcases hasPart_annotate step with ⟨hint, rfl⟩ | ⟨part, step', same⟩
    · cases node with
      | deeper below _ => cases below
    · obtain ⟨members, node', rfl⟩ := ih same.symm
      exact ⟨members, .deeper step' node', rfl⟩

theorem string?_annotate (value : Json) : value.annotate.string? = value.string? := by
  cases value <;> rfl

theorem texts_annotateElements (elements : List Json) :
    (annotateElements elements).filterMap string? = elements.filterMap string? := by
  rw [annotateElements_eq, List.filterMap_map]
  exact congrArg (elements.filterMap ·) (funext string?_annotate)

theorem description_annotatedNode (members : List (String × Json)) :
    stringMember "description" (annotatedNode members) = stringMember "description" members := by
  rw [stringMember, stringMember, lookup_annotatedNode (by decide), Option.bind_map]
  exact congrArg _ (funext string?_annotate)

/-- No node, and nothing else, has a hint. -/
def Json.isHintless (value : Json) : Bool :=
  value.everyObject fun members => !hasMember hintKey members

theorem mappedType_plain {name text : String} (mapped : mappedType name = some text) :
    text.toList.all isPlain = true := by
  have table : ∀ entry ∈ markerTable, entry.2.toList.all isPlain = true := by decide
  exact table (name, text) (mem_of_lookup mapped)

theorem mappedType_of_hintMembers {marker : Json} {type : String} (inside : type ∈ hintMembers marker) :
    ∃ name, mappedType name = some type := by
  cases marker with
  | string name => exact ⟨name, Option.mem_toList.mp inside⟩
  | array names =>
    obtain ⟨name, _, mapped⟩ := List.mem_filterMap.mp inside
    exact ⟨name, mapped⟩
  | _ => cases inside

theorem hintMembers_plain (marker : Json) :
    ∀ text ∈ hintMembers marker, text.toList.all isPlain = true := by
  intro text inside
  obtain ⟨name, mapped⟩ := mappedType_of_hintMembers inside
  exact mappedType_plain mapped

theorem all_intercalate {check : Char → Bool} {separator : String}
    (between : separator.toList.all check = true) {texts : List String}
    (each : ∀ text ∈ texts, text.toList.all check = true) :
    (String.intercalate separator texts).toList.all check = true := by
  induction texts with
  | nil => rfl
  | cons text texts ih =>
    rw [List.forall_mem_cons] at each
    cases texts with
    | nil =>
      rw [String.intercalate_singleton]
      exact each.1
    | cons next texts =>
      rw [String.intercalate_cons_cons, String.toList_append, String.toList_append, List.all_append,
        List.all_append, each.1, between, ih each.2]
      rfl

theorem hint?_plain {members : List (String × Json)} {hint : String}
    (found : hint? members = some hint) :
    hint.toList.all isPlain = true := by
  unfold hint? at found
  split at found
  · cases found
  · obtain ⟨mapped, _⟩ := Option.filter_eq_some_iff.mp found
    obtain ⟨marker, _, rfl⟩ := Option.map_eq_some_iff.mp mapped
    exact all_intercalate (by decide) (hintMembers_plain marker)

theorem addedHint {members : List (String × Json)} (absent : members.lookup hintKey = none)
    (hint : Option String) : stringMember hintKey (addHint hint members) = hint := by
  cases hint with
  | none => rw [addHint, stringMember, absent, Option.bind_none]
  | some hint =>
    rw [addHint, stringMember, lookup_putMember_self, Option.bind_some]
    rfl

/-- Without hints of its own, a value has after annotation just those that its markers call for. -/
theorem hint_annotatedNode {value : Json} (hintless : value.isHintless = true)
    {members : List (String × Json)} (node : HasNode value members) :
    stringMember hintKey (annotatedNode members) = hint? members := by
  have absent : members.lookup hintKey = none := by
    simpa [hasMember] using check_of_hasNode hintless node
  have absent' : (annotateMembers members).lookup hintKey = none := by
    rw [annotateMembers_eq, lookup_map_member fun _ => annotate, absent, Option.map_none]
  exact addedHint absent' (hint? members)

theorem hints_plain {value : Json} (hintless : value.isHintless = true)
    {annotated : List (String × Json)} (node : HasNode value.annotate annotated) {text : String}
    (given : stringMember hintKey annotated = some text) : text.toList.all isPlain = true := by
  obtain ⟨members, node', rfl⟩ := hasNode_annotate node
  rw [hint_annotatedNode hintless node'] at given
  exact hint?_plain given

end SchemaTypes
