import SchemaTypes.Proofs.Occurrences
import SchemaTypes.Proofs.Selections

/-!
Names of fields before and after annotation. The fields of an object are the properties of its node.
Annotation treats the table of properties like any other object: where a property has the name of
markers, and in place of a schema a value that maps to some text, the table is given a hint, which then
counts as one more property.
-/

namespace SchemaTypes

open Draft Json

def propertyNames (members : List (String × Json)) : List String :=
  match members.lookup "properties" with
  | some (.object named) => named.map (·.1)
  | _ => []

/-- The table of properties calls for a hint that it does not have. -/
def inventsField (members : List (String × Json)) : Bool :=
  match members.lookup "properties" with
  | some (.object named) => (hint? named).isSome && !hasMember hintKey named
  | _ => false

section

variable {ignoreBounds : Bool} {environment : List Declaration} {members : List (String × Json)}
  {fields : List (Field TypeExpr)} {index : Option TypeExpr}

theorem names_of_matched {named : List (String × Json)}
    (matched : List.Forall₂ (fun member field => field.name = member.1) named fields) :
    fields.map (·.name) = named.map (·.1) := by
  induction matched with
  | nil => rfl
  | cons here _ ih => rw [List.map_cons, List.map_cons, here, ih]

theorem names_of_fieldDrafts {required : List String}
    (drawn : (fieldDrafts ignoreBounds required (Schema.propertiesOf members)).Contributes fields
      environment) : fields.map (·.name) = propertyNames members := by
  rcases placed_fieldDrafts drawn with ⟨absent, rfl⟩ | ⟨table, given, matched⟩
  · rw [propertyNames, readKeyword_eq_absent absent]
    rfl
  · obtain ⟨named, found, rfl⟩ := propertiesOf_eq_given given
    have same := matched.imp fun _ _ placed => placed.1
    rw [List.forall₂_map_left_iff] at same
    rw [propertyNames, found]
    exact names_of_matched same

theorem DraftedFor.names (drafted : DraftedFor ignoreBounds environment members fields index) :
    fields.map (·.name) = propertyNames members := by
  obtain ⟨required, _, drawn⟩ := contributes_bind drafted
  obtain ⟨others, fieldsDrawn, drawn⟩ := contributes_bind drawn
  obtain ⟨index', _, same⟩ := contributes_map drawn
  cases same
  exact names_of_fieldDrafts fieldsDrawn

theorem keys_annotatedNode (members : List (String × Json)) :
    (annotatedNode members).map (·.1) =
      if (hint? members).isSome && !hasMember hintKey members then members.map (·.1) ++ [hintKey]
      else members.map (·.1) := by
  cases called : hint? members with
  | none => exact (annotatedNode_unhinted called).2
  | some hint =>
    rw [(annotatedNode_hinted called).2]
    cases hasMember hintKey members <;> rfl

theorem propertyNames_annotatedNode (members : List (String × Json)) :
    propertyNames (annotatedNode members) =
      if inventsField members then propertyNames members ++ [hintKey] else propertyNames members := by
  have apart : "properties" ≠ hintKey := by decide
  rw [propertyNames, lookup_annotatedNode apart, propertyNames, inventsField]
  cases members.lookup "properties" with
  | none => rfl
  | some value =>
    cases value with
    | object named => exact keys_annotatedNode named
    | _ => rfl

theorem foreign_of_inventsField (invents : inventsField members = true) :
    ∃ named marker, members.lookup "properties" = some (.object named) ∧
      named.lookup markerKey = some marker ∧ marker.IsForeign := by
  unfold inventsField at invents
  split at invents
  · rename_i named found
    rw [Bool.and_eq_true, Option.isSome_iff_exists] at invents
    obtain ⟨⟨hint, called⟩, _⟩ := invents
    obtain ⟨_, marker, inside, rfl, filled⟩ := hint?_eq_some.mp called
    refine ⟨named, marker, found, inside, ?_⟩
    cases marker with
    | boolean admits => exact absurd rfl filled
    | object inner => exact absurd rfl filled
    | _ => trivial
  · cases invents

end

/--
Every object type of an annotated schema was drafted for a node that is found in it. Each object type
drafted for such a node has the properties of the node at the same place before annotation as its fields,
in their order, and after them the field of a hint if the table of these properties calls for one.
-/
theorem fields_annotated {value : Json} (distinct : value.hasDistinctKeys = true) {suggested : String}
    {ignoreBounds : Bool} {declarations : List Declaration}
    (drawn : ((Schema.ofJson value.annotate).declarations suggested ignoreBounds).outcome =
      .ok (declarations, [])) :
    (∀ declaration ∈ declarations, ∀ fields index, declaration.Contains (.object fields index) →
        ∃ pointer annotated, value.annotate.select? pointer = some (.object annotated) ∧
          DraftedFor ignoreBounds declarations annotated fields index) ∧
      ∀ pointer annotated fields index, value.annotate.select? pointer = some (.object annotated) →
        DraftedFor ignoreBounds declarations annotated fields index →
        ∃ members, value.select? pointer = some (.object members) ∧
          fields.map (·.name) =
            if inventsField members then propertyNames members ++ [hintKey]
            else propertyNames members := by
  constructor
  · intro declaration inside fields index contains
    obtain ⟨annotated, node, drafted⟩ := node_of_contains drawn inside contains
    obtain ⟨pointer, found⟩ := select?_of_hasNode (hasDistinctKeys_annotate distinct) node
    exact ⟨pointer, annotated, found, drafted⟩
  · intro pointer annotated fields index found drafted
    obtain ⟨members, source, _, rfl⟩ := select?_annotate_iff.mp found
    exact ⟨members, source, drafted.names.trans (propertyNames_annotatedNode members)⟩

def reservedNames : Json :=
  .object [("title", .string "Reserved"), ("properties", .object [
    ("bsonType", .object [("bsonType", .string "date")]), ("enum", .boolean true),
    ("tsType", .object [("bsonType", .string "string")])])]

def reservedFields : List (Field TypeExpr) := [
  ⟨"bsonType", .verbatim "Date", false, none⟩, ⟨"enum", .unknown, false, none⟩,
  ⟨"tsType", .verbatim "string", false, none⟩]

theorem reservedNames_kept :
    reservedNames.hasDistinctKeys = true ∧
      ((Schema.ofJson reservedNames.annotate).declarations "" false).outcome =
        .ok ([.interface "Reserved" none reservedFields (some .unknown)], []) ∧
      ∃ pointer members, reservedNames.select? pointer = some (.object members) ∧
        reservedFields.map (·.name) =
          if inventsField members then propertyNames members ++ [hintKey]
          else propertyNames members := by
  have distinct : reservedNames.hasDistinctKeys = true := by decide +kernel
  have drawn : ((Schema.ofJson reservedNames.annotate).declarations "" false).outcome =
      .ok ([.interface "Reserved" none reservedFields (some .unknown)], []) := by decide +kernel
  refine ⟨distinct, drawn, ?_⟩
  obtain ⟨sourced, named⟩ := fields_annotated distinct drawn
  obtain ⟨pointer, annotated, found, drafted⟩ :=
    sourced _ (List.mem_singleton_self _) reservedFields (some .unknown) .here
  exact ⟨pointer, named pointer annotated reservedFields (some .unknown) found drafted⟩

/-- A property with the name of markers, and a name of the table in place of its schema. -/
def markerProperty : Json :=
  .object [("title", .string "Marked"), ("properties", .object [("bsonType", .string "string")])]

theorem markerProperty_gains_field :
    ((Schema.ofJson markerProperty).declarations "" false).outcome =
        .ok ([.interface "Marked" none [⟨"bsonType", .unknown, false, none⟩] (some .unknown)], []) ∧
      ((Schema.ofJson markerProperty.annotate).declarations "" false).outcome =
        .ok ([.interface "Marked" none
          [⟨"bsonType", .unknown, false, none⟩, ⟨"tsType", .unknown, false, none⟩]
          (some .unknown)], []) := by
  decide +kernel

end SchemaTypes
