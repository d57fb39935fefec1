import SchemaTypes.Marker
import SchemaTypes.Proofs.Namespace
import SchemaTypes.Proofs.SchemaNodes
import SchemaTypes.Proofs.SchemaParts

/-!
Hints come first. Typing reads a part of a schema only by placing it, and a part with a hint is placed
by its hint alone, so none of its other keywords is ever read. Only the root is asked for named members
before it is asked for a hint.
-/

namespace SchemaTypes

open Draft

variable {ignoreBounds : Bool}

/-- Keywords that are both absent, both malformed in the same way or both given with related contents. -/
inductive Keyword.Related {Left Right : Type} (relation : Left → Right → Prop) :
    Keyword Left → Keyword Right → Prop
  | absent : Related relation .absent .absent
  | malformed (fault : Fault) : Related relation (.malformed fault) (.malformed fault)
  | given {left : Left} {right : Right} (related : relation left right) :
      Related relation (.given left) (.given right)

inductive Items.Related {Left Right : Type} (relation : Left → Right → Prop) :
    Items Left → Items Right → Prop
  | every {left : Left} {right : Right} (related : relation left right) :
      Related relation (.every left) (.every right)
  | positional {lefts : List Left} {rights : List Right} (related : List.Forall₂ relation lefts rights) :
      Related relation (.positional lefts) (.positional rights)

theorem Keyword.Related.isPresent {Left Right : Type} {relation : Left → Right → Prop}
    {left : Keyword Left} {right : Keyword Right} (related : left.Related relation right) :
    left.isPresent = right.isPresent := by
  cases related <;> rfl

/-- All that typing a whole reads of its part. -/
structure PlacedAlike (ignoreBounds : Bool) (schema other : Schema) : Prop where
  placed : place schema (schema.body ignoreBounds) = place other (other.body ignoreBounds)
  described : schema.description = other.description
  never : schema = .always false ↔ other = .always false

theorem eachDraft_congr {schemas others : List Schema}
    (alike : List.Forall₂ (PlacedAlike ignoreBounds) schemas others) (index : Nat) :
    eachDraft ignoreBounds index schemas = eachDraft ignoreBounds index others := by
  induction alike generalizing index with
  | nil => rfl
  | cons first _ ih => rw [eachDraft, eachDraft, first.placed, ih]

theorem armDrafts_congr {key : String} {arms others : Keyword (List Schema)}
    (alike : arms.Related (List.Forall₂ (PlacedAlike ignoreBounds)) others) :
    armDrafts ignoreBounds key arms = armDrafts ignoreBounds key others := by
  cases alike with
  | absent => rfl
  | malformed fault => rfl
  | given alike => rw [armDrafts, armDrafts, eachDraft_congr alike]

def NamedAlike (ignoreBounds : Bool) (member other : String × Schema) : Prop :=
  member.1 = other.1 ∧ PlacedAlike ignoreBounds member.2 other.2

theorem fieldDrafts_congr {required : List String} {named others : Keyword (List (String × Schema))}
    (alike : named.Related (List.Forall₂ (NamedAlike ignoreBounds)) others) :
    fieldDrafts ignoreBounds required named = fieldDrafts ignoreBounds required others := by
  cases alike with
  | absent => rfl
  | malformed fault => rfl
  | given alike =>
    rw [fieldDrafts, fieldDrafts]
    congr 1
    induction alike with
    | nil => rfl
    | @cons member other _ _ first _ ih =>
      obtain ⟨name, schema⟩ := member
      obtain ⟨_, other⟩ := other
      obtain ⟨rfl, first⟩ := first
      rw [eachField, eachField, first.placed, first.described, ih]

theorem indexDraft_congr {rule other : Keyword Schema}
    (alike : rule.Related (PlacedAlike ignoreBounds) other) :
    indexDraft ignoreBounds rule = indexDraft ignoreBounds other := by
  cases alike with
  | absent => rfl
  | malformed fault => rfl
  | @given schema other alike =>
    by_cases never : schema = .always false
    · rw [never, alike.never.mp never]
    · rw [indexDraft_given never, indexDraft_given fun same => never (alike.never.mpr same),
        alike.placed]

theorem restDraft_congr {rule other : Option Schema} {full : Bool}
    (alike : Option.Rel (PlacedAlike ignoreBounds) rule other) :
    restDraft ignoreBounds full rule = restDraft ignoreBounds full other := by
  cases alike with
  | none => rfl
  | @some schema other alike =>
    by_cases never : schema = .always false
    · rw [never, alike.never.mp never]
    · rw [restDraft_given never, restDraft_given fun same => never (alike.never.mpr same),
        alike.placed]

theorem itemsDraft_congr {least most : Option Nat} {restOf : Bool → Draft (Option TypeExpr)}
    {items others : Keyword (Items Schema)}
    (alike : items.Related (Items.Related (PlacedAlike ignoreBounds)) others) :
    itemsDraft ignoreBounds least most restOf items =
      itemsDraft ignoreBounds least most restOf others := by
  cases alike with
  | absent => rfl
  | malformed fault => rfl
  | given alike =>
    cases alike with
    | every alike => rw [itemsDraft, itemsDraft, alike.placed]
    | positional alike => rw [itemsDraft, itemsDraft, eachDraft_congr alike]

/-- Typing a node reads its parts only by placing them. -/
theorem body_congr {head : Head} {allOf anyOf oneOf allOf' anyOf' oneOf' : Keyword (List Schema)}
    {properties properties' : Keyword (List (String × Schema))}
    {additionalProperties additionalProperties' : Keyword Schema}
    {items items' : Keyword (Items Schema)} {additionalItems additionalItems' : Option Schema}
    (all : allOf.Related (List.Forall₂ (PlacedAlike ignoreBounds)) allOf')
    (any : anyOf.Related (List.Forall₂ (PlacedAlike ignoreBounds)) anyOf')
    (one : oneOf.Related (List.Forall₂ (PlacedAlike ignoreBounds)) oneOf')
    (named : properties.Related (List.Forall₂ (NamedAlike ignoreBounds)) properties')
    (other : additionalProperties.Related (PlacedAlike ignoreBounds) additionalProperties')
    (elements : items.Related (Items.Related (PlacedAlike ignoreBounds)) items')
    (rest : Option.Rel (PlacedAlike ignoreBounds) additionalItems additionalItems') :
    (Schema.node head allOf anyOf oneOf properties additionalProperties items additionalItems).body
        ignoreBounds =
      (Schema.node head allOf' anyOf' oneOf' properties' additionalProperties' items'
        additionalItems').body ignoreBounds := by
  have resting : (fun full => restDraft ignoreBounds full additionalItems) =
      fun full => restDraft ignoreBounds full additionalItems' :=
    funext fun full => restDraft_congr rest
  have fielding : ∀ required, fieldDrafts ignoreBounds required properties =
      fieldDrafts ignoreBounds required properties' := fun required => fieldDrafts_congr named
  rw [body_node, body_node]
  simp only [openDraft, ownDraft, objectDraft, arrayDraft, armDrafts_congr all, armDrafts_congr any,
    armDrafts_congr one, fielding, indexDraft_congr other, itemsDraft_congr elements, resting,
    named.isPresent, other.isPresent, elements.isPresent]

theorem declare_of_head {schema other : Schema} (same : schema.head? = other.head?) (base : String)
    (body : Draft TypeExpr) : declare base schema body = declare base other body := by
  funext taken
  simp only [declare, declarationDraft, Schema.description, same]

theorem place_of_head {schema other : Schema} (same : schema.head? = other.head?)
    (body : Draft TypeExpr) : place schema body = place other body := by
  simp only [place, declaredBase?, declare_of_head same, same]

namespace Schema

def verbatim? (schema : Schema) : Option String :=
  schema.head?.bind (·.verbatim)

def hintOnly (text : String) (description : Option String) : Schema :=
  let head : Head := {
    title := none, description, verbatim := some text, enumeration := .absent, enumNames := none,
    constant := none, kinds := .absent, required := .absent, minItems := none, maxItems := none }
  .node head .absent .absent .absent .absent .absent .absent none

mutual

/-- The schema with every schema in it that has a hint reduced to the hint and the description. -/
def bared : Schema → Schema
  | .always admits => .always admits
  | .foreign => .foreign
  | .node head allOf anyOf oneOf properties additionalProperties items additionalItems =>
    match head.verbatim with
    | some text => hintOnly text head.description
    | none =>
      .node head (baredArms allOf) (baredArms anyOf) (baredArms oneOf) (baredTable properties)
        (baredRule additionalProperties) (baredItems items) (baredRest additionalItems)

def baredArms : Keyword (List Schema) → Keyword (List Schema)
  | .absent => .absent
  | .malformed fault => .malformed fault
  | .given schemas => .given (baredAll schemas)

def baredAll : List Schema → List Schema
  | [] => []
  | schema :: schemas => bared schema :: baredAll schemas

def baredTable : Keyword (List (String × Schema)) → Keyword (List (String × Schema))
  | .absent => .absent
  | .malformed fault => .malformed fault
  | .given named => .given (baredNamed named)

def baredNamed : List (String × Schema) → List (String × Schema)
  | [] => []
  | (name, schema) :: named => (name, bared schema) :: baredNamed named

def baredRule : Keyword Schema → Keyword Schema
  | .absent => .absent
  | .malformed fault => .malformed fault
  | .given schema => .given (bared schema)

def baredItems : Keyword (Items Schema) → Keyword (Items Schema)
  | .absent => .absent
  | .malformed fault => .malformed fault
  | .given (.every schema) => .given (.every (bared schema))
  | .given (.positional schemas) => .given (.positional (baredAll schemas))

def baredRest : Option Schema → Option Schema
  | none => none
  | some schema => some (bared schema)

end

/-- The schema with its parts reduced to their hints, and with all of its own keywords. -/
def baredParts : Schema → Schema
  | .node head allOf anyOf oneOf properties additionalProperties items additionalItems =>
    .node head (baredArms allOf) (baredArms anyOf) (baredArms oneOf) (baredTable properties)
      (baredRule additionalProperties) (baredItems items) (baredRest additionalItems)
  | schema => schema

end Schema

open Schema

theorem body_hinted {schema : Schema} {text : String} (hinted : schema.verbatim? = some text) :
    schema.body ignoreBounds = pure (.verbatim text) := by
  cases schema with
  | node head allOf anyOf oneOf properties additionalProperties items additionalItems =>
    have given : head.verbatim = some text := hinted
    rw [body_node, fixedType, given]
  | _ => cases hinted

theorem place_hinted {schema : Schema} {text : String} (hinted : schema.verbatim? = some text) :
    place schema (schema.body ignoreBounds) = pure (.verbatim text) := by
  obtain ⟨head, here, given⟩ := Option.bind_eq_some_iff.mp hinted
  have unnamed : declaredBase? schema = none := by
    simp [declaredBase?, here, given]
  rw [place, unnamed, body_hinted hinted]

theorem forall₂_baredAll {schemas : List Schema}
    (alike : ∀ schema ∈ schemas, PlacedAlike ignoreBounds schema.bared schema) :
    List.Forall₂ (PlacedAlike ignoreBounds) (baredAll schemas) schemas := by
  induction schemas with
  | nil => exact .nil
  | cons schema schemas ih =>
    rw [List.forall_mem_cons] at alike
    exact .cons alike.1 (ih alike.2)

theorem forall₂_baredNamed {named : List (String × Schema)}
    (alike : ∀ schema ∈ named.map (·.2), PlacedAlike ignoreBounds schema.bared schema) :
    List.Forall₂ (NamedAlike ignoreBounds) (baredNamed named) named := by
  induction named with
  | nil => exact .nil
  | cons member named ih =>
    rw [List.map_cons, List.forall_mem_cons] at alike
    exact .cons ⟨rfl, alike.1⟩ (ih alike.2)

theorem related_baredArms {arms : Keyword (List Schema)}
    (alike : ∀ schema ∈ arms.content?.getD [], PlacedAlike ignoreBounds schema.bared schema) :
    (baredArms arms).Related (List.Forall₂ (PlacedAlike ignoreBounds)) arms := by
  cases arms with
  | absent => exact .absent
  | malformed fault => exact .malformed fault
  | given schemas => exact .given (forall₂_baredAll alike)

theorem related_baredItems {items : Keyword (Items Schema)}
    (alike : ∀ schema ∈ (items.content?.map Items.contents).getD [],
      PlacedAlike ignoreBounds schema.bared schema) :
    (baredItems items).Related (Items.Related (PlacedAlike ignoreBounds)) items := by
  cases items with
  | absent => exact .absent
  | malformed fault => exact .malformed fault
  | given items =>
    cases items with
    | every schema => exact .given (.every (alike schema (List.mem_singleton_self schema)))
    | positional schemas => exact .given (.positional (forall₂_baredAll alike))

theorem body_baredParts {schema : Schema}
    (alike : ∀ part ∈ schema.parts, PlacedAlike ignoreBounds part.bared part) :
    schema.baredParts.body ignoreBounds = schema.body ignoreBounds := by
  cases schema with
  | node head allOf anyOf oneOf properties additionalProperties items additionalItems =>
    simp only [parts, List.forall_mem_append] at alike
    obtain ⟨⟨⟨⟨⟨⟨all, any⟩, one⟩, named⟩, other⟩, elements⟩, rest⟩ := alike
    apply body_congr (related_baredArms all) (related_baredArms any) (related_baredArms one)
    · cases properties with
      | absent => exact .absent
      | malformed fault => exact .malformed fault
      | given table => exact .given (forall₂_baredNamed named)
    · cases additionalProperties with
      | absent => exact .absent
      | malformed fault => exact .malformed fault
      | given rule => exact .given (other rule (List.mem_singleton_self rule))
    · exact related_baredItems elements
    · cases additionalItems with
      | none => exact .none
      | some rule => exact .some (rest rule (List.mem_singleton_self rule))
  | _ => rfl

theorem bared_unhinted {schema : Schema} (unhinted : schema.verbatim? = none) :
    schema.bared = schema.baredParts := by
  cases schema with
  | node head allOf anyOf oneOf properties additionalProperties items additionalItems =>
    have absent : head.verbatim = none := unhinted
    rw [bared, absent, baredParts]
  | _ => rfl

theorem bared_hinted {schema : Schema} {text : String} (hinted : schema.verbatim? = some text) :
    schema.bared = hintOnly text schema.description := by
  cases schema with
  | node head allOf anyOf oneOf properties additionalProperties items additionalItems =>
    have given : head.verbatim = some text := hinted
    rw [bared, given]
    rfl
  | _ => cases hinted

theorem head?_baredParts (schema : Schema) : schema.baredParts.head? = schema.head? := by
  cases schema <;> rfl

theorem placedAlike_bared (schema : Schema) : PlacedAlike ignoreBounds schema.bared schema := by
  induction schema using partsInduction with
  | step schema ih =>
    -- A hint makes the parts irrelevant; without one, all of them are placed as before by induction.
    cases here : schema.verbatim? with
    | some text =>
      rw [bared_hinted here]
      refine ⟨?_, rfl, ?_⟩
      · rw [place_hinted here]
        exact place_hinted rfl
      · cases schema <;> simp [hintOnly, verbatim?, head?] at here ⊢
    | none =>
      rw [bared_unhinted here]
      refine ⟨?_, ?_, ?_⟩
      · rw [body_baredParts ih]
        exact place_of_head (head?_baredParts schema) (schema.body ignoreBounds)
      · rw [Schema.description, head?_baredParts, Schema.description]
      · cases schema <;> simp [baredParts]

theorem declarations_baredParts (schema : Schema) (suggested : String) :
    schema.baredParts.declarations suggested ignoreBounds =
      schema.declarations suggested ignoreBounds := by
  have same := head?_baredParts schema
  have base : rootBase schema.baredParts suggested = rootBase schema suggested := by
    simp only [rootBase, Schema.title, same]
  have body : schema.baredParts.body ignoreBounds = schema.body ignoreBounds :=
    body_baredParts fun part _ => placedAlike_bared part
  rw [Schema.declarations, Schema.declarations, base, body, declare_of_head same]

theorem declarations_hinted {schema : Schema} {text : String} (hinted : schema.verbatim? = some text)
    (unnamed : schema.head?.bind enumMembers? = none) (suggested : String) :
    schema.declarations suggested ignoreBounds =
      ⟨[], .ok ([.typeAlias (rootBase schema suggested) schema.description (.verbatim text)], [])⟩ := by
  rw [Schema.declarations, body_hinted hinted]
  simp only [declare, declarationDraft, unnamed, freshName_nil]
  rfl

theorem declarations_named {schema : Schema} {named : List (String × Json)}
    (members : schema.head?.bind enumMembers? = some named) (suggested : String) :
    schema.declarations suggested ignoreBounds =
      ⟨[], .ok ([.enumeration (rootBase schema suggested) schema.description named], [])⟩ := by
  rw [Schema.declarations]
  simp only [declare, declarationDraft, members, freshName_nil]
  rfl

/--
A hint decides a schema that has one. Placed anywhere, the schema is typed as the hint, with no
declaration, report or warning, and reducing every such schema below the root to its hint and its
description leaves the result of the root as it is. A root with a hint is declared as an alias of the
hint unless it has named members, and as their enumeration if it has.
-/
theorem hint_decides (schema : Json) (suggested : String) (ignoreBounds : Bool) :
    (Schema.ofJson schema).baredParts.declarations suggested ignoreBounds =
        (Schema.ofJson schema).declarations suggested ignoreBounds ∧
      (∀ members text, stringMember hintKey members = some text → ∀ taken,
        place (Schema.ofJson (.object members)) ((Schema.ofJson (.object members)).body ignoreBounds)
            taken =
          ⟨[], .ok (.verbatim text, [])⟩) ∧
      ∀ members text, schema = .object members → stringMember hintKey members = some text →
        (enumMembers? (readHead members) = none →
          (Schema.ofJson schema).declarations suggested ignoreBounds =
            ⟨[], .ok ([.typeAlias (rootBase (Schema.ofJson schema) suggested)
              (stringMember "description" members) (.verbatim text)], [])⟩) ∧
        ∀ named, enumMembers? (readHead members) = some named →
          (Schema.ofJson schema).declarations suggested ignoreBounds =
            ⟨[], .ok ([.enumeration (rootBase (Schema.ofJson schema) suggested)
              (stringMember "description" members) named], [])⟩ := by
  have hinting : ∀ members text, stringMember hintKey members = some text →
      (Schema.ofJson (.object members)).verbatim? = some text := by
    intro members text given
    rw [ofJson_object]
    exact given
  have naming : ∀ members, (Schema.ofJson (.object members)).head?.bind enumMembers? =
      enumMembers? (readHead members) := by
    intro members
    rw [ofJson_object]
    rfl
  have describing : ∀ members, (Schema.ofJson (.object members)).description =
      stringMember "description" members := by
    intro members
    rw [ofJson_object]
    rfl
  refine ⟨declarations_baredParts (Schema.ofJson schema) suggested, ?_, ?_⟩
  · intro members text given taken
    rw [place_hinted (hinting members text given)]
    rfl
  · rintro members text rfl given
    rw [← naming, ← describing]
    refine ⟨fun unnamed => ?_, fun named members => ?_⟩
    · exact declarations_hinted (hinting members text given) unnamed suggested
    · exact declarations_named members suggested

def hintedLevel : List (String × Json) := [
  ("tsType", .string "Level"),
  ("title", .string "Severity"),
  ("enum", .array [.string "low"]),
  ("tsEnumNames", .array [.string "Low"])]

/-- Hints among keywords that are wrong, that would declare something or that would warn. -/
def hintedLog : Json :=
  .object [
    ("title", .string "Log"),
    ("properties", .object [
      ("at", .object [
        ("title", .string "At"),
        ("enum", .number (.integer 7)),
        ("anyOf", .array [.null, .object [("title", .string "Never")]]),
        ("tsType", .string "Date"),
        ("description", .string "when")])]),
    ("additionalProperties", .object hintedLevel)]

theorem hintedLog_quiet :
    ((Schema.ofJson hintedLog).declarations "log" false).warnings = [] ∧
      ((Schema.ofJson hintedLog).declarations "log" false).outcome =
        .ok ([.interface "Log" none [⟨"at", .verbatim "Date", false, some "when"⟩]
          (some (.verbatim "Level"))], []) ∧
      place (Schema.ofJson (.object hintedLevel)) ((Schema.ofJson (.object hintedLevel)).body false)
          ["Level"] =
        ⟨[], .ok (.verbatim "Level", [])⟩ ∧
      (Schema.ofJson (.object hintedLevel)).declarations "log" false =
        ⟨[], .ok ([.enumeration (rootBase (Schema.ofJson (.object hintedLevel)) "log") none
          [("Low", .string "low")]], [])⟩ := by
  have reduced := (hint_decides hintedLog "log" false).1
  obtain ⟨_, placed, root⟩ := hint_decides (.object hintedLevel) "log" false
  have hinted : stringMember hintKey hintedLevel = some "Level" := by decide +kernel
  have named : enumMembers? (readHead hintedLevel) = some [("Low", .string "low")] := by decide +kernel
  refine ⟨?_, ?_, placed hintedLevel "Level" hinted ["Level"], ?_⟩
  · rw [← reduced]
    decide +kernel
  · rw [← reduced]
    decide +kernel
  · exact (root hintedLevel "Level" rfl hinted).2 _ named

end SchemaTypes
