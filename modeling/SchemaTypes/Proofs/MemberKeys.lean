import Mathlib.Data.List.Nodup
import SchemaTypes.Proofs.FieldNames
import SchemaTypes.Proofs.Tokens

/-!
Written keys of members. Names are told apart by their written keys, bare or quoted. The fields of an
object are the properties of a node and so have distinct names; the members of an enumeration are named
freely by their node, and their keys are distinct just if these names are.
-/

namespace SchemaTypes

open Json

theorem memberKey_inj : Function.Injective memberKey := by
  intro name other same
  have ended : Unworded [] := nofun
  have chars : (memberKey name).toList ++ [] = (memberKey other).toList ++ [] := by rw [same]
  exact (delimits_memberKey name other [] [] trivial ended ended chars).1

theorem keys_nodup_iff {names : List String} : (names.map memberKey).Nodup ↔ names.Nodup :=
  List.nodup_map_iff memberKey_inj

theorem names_of_enumMembers? {head : Head} {members : List (String × Json)}
    (named : enumMembers? head = some members) : head.enumNames = some (members.map (·.1)) := by
  unfold enumMembers? at named
  split at named
  · rename_i values names _ found
    split at named
    · rename_i fitting
      cases named
      rw [found, List.map_fst_zip (Nat.le_of_eq fitting.1)]
    · cases named
  · cases named

section

variable {ignoreBounds : Bool} {environment : List Declaration} {value : Json}

theorem propertyNames_nodup (distinct : value.hasDistinctKeys = true) {pointer : Pointer}
    {members : List (String × Json)} (found : value.select? pointer = some (.object members)) :
    (propertyNames members).Nodup := by
  have each := (everyObject_iff_select? distinct).mp distinct
  unfold propertyNames
  split
  · rename_i named given
    have table : value.select? (pointer ++ ["properties"]) = some (.object named) := by
      rw [select?_append, found, Option.bind_some, select?_member given]
    exact of_decide_eq_true (each _ named table)
  · exact List.nodup_nil

theorem enumeration_of_declaredAs {base : String} {schema : Schema} {name : String}
    {docs : Option String} {members : List (String × Json)}
    (declared : DeclaredAs ignoreBounds environment base schema (.enumeration name docs members)) :
    schema.head?.bind enumMembers? = some members := by
  obtain ⟨taken, inner, drafted, _⟩ := declared
  rcases yields_declarationDraft drafted with ⟨_, named, same, _⟩ | ⟨type, _, same⟩
  · cases same
    exact named
  · cases type <;> cases same

theorem node_of_enumeration {suggested : String} {declarations : List Declaration}
    (drawn : ((Schema.ofJson value).declarations suggested ignoreBounds).outcome =
      .ok (declarations, []))
    {name : String} {docs : Option String} {members : List (String × Json)}
    (inside : .enumeration name docs members ∈ declarations) :
    ∃ node, HasNode value node ∧ enumMembers? (readHead node) = some members := by
  rcases declaration_origin drawn _ inside with declared | ⟨node, base, placed, _, declared⟩
  · have named := enumeration_of_declaredAs declared
    cases value with
    | object node =>
      rw [ofJson_object] at named
      exact ⟨node, .here, named⟩
    | _ => cases named
  · have named := enumeration_of_declaredAs declared
    rw [ofJson_object] at named
    exact ⟨node, placed, named⟩

end

/--
Different names have different written keys. The members of every interface and object type in the
declarations of a schema have distinct keys. The members of an enumeration have the names that a node of
the schema lists for them, and distinct keys exactly if it lists no name twice.
-/
theorem member_keys_distinct {value : Json} (distinct : value.hasDistinctKeys = true)
    {suggested : String} {ignoreBounds : Bool} {declarations : List Declaration}
    (drawn : ((Schema.ofJson value).declarations suggested ignoreBounds).outcome =
      .ok (declarations, [])) :
    Function.Injective memberKey ∧
      (∀ declaration ∈ declarations, ∀ fields index, declaration.Contains (.object fields index) →
        (fields.map fun field => memberKey field.name).Nodup) ∧
      ∀ name docs members, .enumeration name docs members ∈ declarations →
        ∃ pointer node, value.select? pointer = some (.object node) ∧
          enumMembers? (readHead node) = some members ∧
          (readHead node).enumNames = some (members.map (·.1)) ∧
          ((members.map fun member => memberKey member.1).Nodup ↔ (members.map (·.1)).Nodup) := by
  refine ⟨memberKey_inj, ?_, ?_⟩
  · intro declaration inside fields index contains
    obtain ⟨node, placed, drafted⟩ := node_of_contains drawn inside contains
    obtain ⟨pointer, found⟩ := select?_of_hasNode distinct placed
    have keys := keys_nodup_iff.mpr (propertyNames_nodup distinct found)
    rw [← drafted.names, List.map_map] at keys
    exact keys
  · intro name docs members inside
    obtain ⟨node, placed, named⟩ := node_of_enumeration drawn inside
    obtain ⟨pointer, found⟩ := select?_of_hasNode distinct placed
    have keys := @keys_nodup_iff (members.map (·.1))
    rw [List.map_map] at keys
    exact ⟨pointer, node, found, named, names_of_enumMembers? named, keys⟩

def quotedNames : Json :=
  .object [("title", .string "Quoted"), ("properties", .object [
    ("first-name", .boolean true), ("\"first-name\"", .boolean true),
    ("level", .object [("title", .string "Level"),
      ("enum", .array [.number (.integer 1), .number (.integer 1)]),
      ("tsEnumNames", .array [.string "low", .string "\"low\""])])])]

def quotedFields : List (Field TypeExpr) := [
  ⟨"first-name", .unknown, false, none⟩, ⟨"\"first-name\"", .unknown, false, none⟩,
  ⟨"level", .reference "Level", false, none⟩]

def levelMembers : List (String × Json) :=
  [("low", .number (.integer 1)), ("\"low\"", .number (.integer 1))]

theorem quotedNames_apart :
    quotedNames.hasDistinctKeys = true ∧
      ((Schema.ofJson quotedNames).declarations "" false).outcome =
        .ok ([.interface "Quoted" none quotedFields (some .unknown),
          .enumeration "Level" none levelMembers], []) ∧
      (quotedFields.map fun field => memberKey field.name).Nodup ∧
      (levelMembers.map fun member => memberKey member.1).Nodup := by
  have distinct : quotedNames.hasDistinctKeys = true := by decide +kernel
  have drawn : ((Schema.ofJson quotedNames).declarations "" false).outcome =
      .ok ([.interface "Quoted" none quotedFields (some .unknown),
        .enumeration "Level" none levelMembers], []) := by decide +kernel
  obtain ⟨_, fields, members⟩ := member_keys_distinct distinct drawn
  obtain ⟨_, _, _, _, _, keys⟩ := members "Level" none levelMembers (by simp)
  refine ⟨distinct, drawn, ?_, keys.mpr (by decide)⟩
  exact fields _ List.mem_cons_self quotedFields (some .unknown) .here

def twinNames : Json :=
  .object [("enum", .array [.string "a", .string "b"]),
    ("tsEnumNames", .array [.string "A", .string "A"])]

/-- A repeated name is written as often as it is listed. -/
theorem twinNames_collide :
    ((Schema.ofJson twinNames).declarations "" false).outcome =
        .ok ([.enumeration "Root" none [("A", .string "a"), ("A", .string "b")]], []) ∧
      ¬([("A", Json.string "a"), ("A", Json.string "b")].map fun member =>
        memberKey member.1).Nodup := by
  refine ⟨by decide +kernel, ?_⟩
  simp

end SchemaTypes
