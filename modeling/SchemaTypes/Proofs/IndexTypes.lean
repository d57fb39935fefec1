import SchemaTypes.Proofs.Occurrences
import SchemaTypes.Proofs.SameValues

/-!
Index types against the fields beside them. The fields of an object and its index type come from
different keywords of one node, which need not agree; a field fits under the index type exactly if its
schema admits nothing that the schema of undeclared members refuses.
-/

namespace SchemaTypes

open Draft

/-- Whatever the field may hold, the index type holds too. -/
def FieldFits (declarations : List Declaration) (field : Field TypeExpr) (index : TypeExpr) : Prop :=
  ∀ value, Inhabits declarations value field.content → Inhabits declarations value index

theorem ofJson_eq_always {value : Json} {admits : Bool} (read : Schema.ofJson value = .always admits) :
    value = .boolean admits := by
  cases value with
  | boolean =>
    cases read
    rfl
  | object members =>
    rw [ofJson_object] at read
    cases read
  | _ => cases read

theorem additionalPropertiesOf_boolean {members : List (String × Json)} {admits : Bool}
    (found : members.lookup "additionalProperties" = some (.boolean admits)) :
    Schema.additionalPropertiesOf members = .given (.always admits) := by
  rw [Schema.additionalPropertiesOf, readKeyword, found]
  rfl

section

variable {ignoreBounds : Bool} {environment : List Declaration} {members : List (String × Json)}
  {index : Option TypeExpr}

theorem index_absent_iff
    (drawn : (indexDraft ignoreBounds (Schema.additionalPropertiesOf members)).Contributes index
      environment) :
    index = none ↔ members.lookup "additionalProperties" = some (.boolean false) := by
  constructor
  · rintro rfl
    rcases placed_indexDraft drawn with ⟨_, given⟩ | ⟨given, _⟩ | ⟨_, _, _, given, _⟩
    · cases given
    · obtain ⟨rule, found, never⟩ := additionalPropertiesOf_eq_given given
      rw [found, ofJson_eq_always never.symm]
    · cases given
  · intro found
    rw [additionalPropertiesOf_boolean found] at drawn
    exact contributes_pure drawn

theorem index_unknown
    (drawn : (indexDraft ignoreBounds (Schema.additionalPropertiesOf members)).Contributes index
      environment)
    (unruled : members.lookup "additionalProperties" = none ∨
      members.lookup "additionalProperties" = some (.boolean true)) : index = some .unknown := by
  rcases unruled with absent | found
  · rw [Schema.additionalPropertiesOf, readKeyword, absent] at drawn
    exact contributes_pure drawn
  · rw [additionalPropertiesOf_boolean found] at drawn
    obtain ⟨type, inner, rfl⟩ := contributes_map drawn
    rw [contributes_pure (contributes_within inner)]

theorem index_admits (distinct : (environment.map Declaration.name).Nodup)
    (drawn : (indexDraft ignoreBounds (Schema.additionalPropertiesOf members)).Contributes index
      environment) {rule : Json} (found : members.lookup "additionalProperties" = some rule)
    {type : TypeExpr} (indexed : index = some type) (value : Json) :
    Inhabits environment value type ↔ (Schema.ofJson rule).Admits ignoreBounds value := by
  subst indexed
  rcases placed_indexDraft drawn with ⟨absent, _⟩ | ⟨_, given⟩ | ⟨schema, other, given, same, placed⟩
  · have missing := readKeyword_eq_absent absent
    rw [found] at missing
    cases missing
  · cases given
  · cases same
    obtain ⟨part, found', rfl⟩ := additionalPropertiesOf_eq_given given
    obtain rfl := Option.some.inj (found.symm.trans found')
    exact inhabits_iff_admits distinct placed value

end

/--
Every object in the declarations, at whatever depth, is that of a node. It has an index type unless the
node's `additionalProperties` is `false`, which is `unknown` if the keyword is absent or `true`; and a
field fits under the index type exactly if `additionalProperties`, where it is given, admits whatever
the field's own schema admits. What a schema admits does not depend on where it is placed.
-/
theorem field_fits_iff {value : Json} {suggested : String} {ignoreBounds : Bool}
    {declarations : List Declaration}
    (drawn : ((Schema.ofJson value).declarations suggested ignoreBounds).outcome =
      .ok (declarations, []))
    {declaration : Declaration} (inside : declaration ∈ declarations)
    {fields : List (Field TypeExpr)} {index : Option TypeExpr}
    (contains : declaration.Contains (.object fields index)) :
    ∃ members, HasNode value members ∧
      (index = none ↔ members.lookup "additionalProperties" = some (.boolean false)) ∧
      (members.lookup "additionalProperties" = none ∨
        members.lookup "additionalProperties" = some (.boolean true) → index = some .unknown) ∧
      ∀ field ∈ fields, ∃ named part, members.lookup "properties" = some (.object named) ∧
        (field.name, part) ∈ named ∧
          ∀ type, index = some type → (FieldFits declarations field type ↔
            ∀ rule, members.lookup "additionalProperties" = some rule → ∀ content,
              (Schema.ofJson part).Admits ignoreBounds content →
                (Schema.ofJson rule).Admits ignoreBounds content) := by
  have distinct := (declarations_scoped drawn).distinct
  obtain ⟨members, node, drafted⟩ := node_of_contains drawn inside contains
  obtain ⟨required, _, drafted⟩ := contributes_bind drafted
  obtain ⟨fields', fielding, drafted⟩ := contributes_bind drafted
  obtain ⟨index', indexing, same⟩ := contributes_map drafted
  cases same
  refine ⟨members, node, index_absent_iff indexing, index_unknown indexing, ?_⟩
  intro field there
  obtain ⟨_, named, ⟨name, part⟩, found, listed, same, placed⟩ := (drafted_fields fielding).2 field there
  obtain rfl : field.name = name := same
  have holds := inhabits_iff_admits distinct placed
  refine ⟨named, part, found, listed, fun type indexed => ⟨?_, ?_⟩⟩
  · intro fits rule ruled content admitted
    rw [← index_admits distinct indexing ruled indexed]
    exact fits content ((holds content).mpr admitted)
  · intro admits content inhabits
    cases ruled : members.lookup "additionalProperties" with
    | none =>
      obtain rfl := Option.some.inj ((index_unknown indexing (Or.inl ruled)).symm.trans indexed)
      exact .unknown
    | some rule =>
      rw [index_admits distinct indexing ruled indexed]
      exact admits rule ruled content ((holds content).mp inhabits)

def titledLine : Json := .object [("title", .string "Line"), ("type", .string "number")]

/-- An order with tables of lines, in which the first line is described like all others. -/
def lineTables : Json :=
  .object [("title", .string "Order"), ("properties", .object [
    ("tables", .object [("items", .object [
      ("properties", .object [("first", titledLine)]),
      ("additionalProperties", titledLine)])])])]

def lineTable : List (Field TypeExpr) := [⟨"first", .reference "Line", false, none⟩]

def lineTablesDeclarations : List Declaration := [
  .interface "Order" none
    [⟨"tables", .list (.object lineTable (some (.reference "Line1"))), false, none⟩] (some .unknown),
  .typeAlias "Line" none .number,
  .typeAlias "Line1" none .number]

def firstLikeOthers (members : List (String × Json)) : Bool :=
  match members.lookup "properties" with
  | some (.object named) => named.all fun member =>
      member.1 ≠ "first" || decide (members.lookup "additionalProperties" = some member.2)
  | _ => true

/-- The two names of lines differ, and the first line fits under the index type nevertheless. -/
theorem lineTables_fit :
    ((Schema.ofJson lineTables).declarations "" false).outcome = .ok (lineTablesDeclarations, []) ∧
      ∀ field ∈ lineTable, FieldFits lineTablesDeclarations field (.reference "Line1") := by
  have drawn : ((Schema.ofJson lineTables).declarations "" false).outcome =
      .ok (lineTablesDeclarations, []) := by decide +kernel
  have inside : lineTablesDeclarations[0] ∈ lineTablesDeclarations := List.getElem_mem _
  have contains : (lineTablesDeclarations[0]).Contains
      (.object lineTable (some (.reference "Line1"))) :=
    .deeper (List.mem_cons_self) (.deeper (List.mem_singleton_self _) .here)
  refine ⟨drawn, fun field there => ?_⟩
  obtain ⟨members, node, _, _, fits⟩ := field_fits_iff drawn inside contains
  obtain ⟨named, part, found, listed, fits⟩ := fits field there
  have checked : lineTables.everyNode firstLikeOthers = true := by decide +kernel
  have alike := Json.check_of_everyNode checked node
  obtain rfl := List.mem_singleton.mp there
  rw [firstLikeOthers, found, List.all_eq_true] at alike
  have ruled : members.lookup "additionalProperties" = some part := by
    simpa using alike _ listed
  refine (fits _ rfl).mpr fun rule ruled' content admitted => ?_
  obtain rfl := Option.some.inj (ruled.symm.trans ruled')
  exact admitted

def mixedRecord : Json :=
  .object [
    ("properties", .object [("count", .object [("type", .string "number")])]),
    ("additionalProperties", .object [("type", .string "string")])]

theorem mixedRecord_unfit :
    ((Schema.ofJson mixedRecord).declarations "" false).outcome =
        .ok ([.interface "Root" none [⟨"count", .number, false, none⟩] (some .string)], []) ∧
      ¬FieldFits [.interface "Root" none [⟨"count", .number, false, none⟩] (some .string)]
        ⟨"count", .number, false, none⟩ .string := by
  refine ⟨by decide +kernel, fun fits => ?_⟩
  cases fits (.number (.integer 1)) .number

end SchemaTypes
