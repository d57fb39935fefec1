import SchemaTypes.Proofs.DistinctKeys
import SchemaTypes.Proofs.Pointers
import SchemaTypes.Proofs.SchemaNodes
import SchemaTypes.Proofs.TypingSteps

/-!
Where typing finds fault. A draft is made relative to the schema at hand; what it reports about the
schema must be found there, and `within` moves what is found in a part to where the part stands in the
whole.
-/

namespace SchemaTypes

/-- A value that is no schema. -/
def Json.IsForeign : Json → Prop
  | boolean _ => False
  | object _ => False
  | _ => True

/-- The values whose shape is wrong for the keyword of a fault. -/
def Fault.Misshapes : Fault → Json → Prop
  | enumNotArray, value => ∀ elements, value ≠ .array elements
  | allOfNotArray, value => ∀ elements, value ≠ .array elements
  | anyOfNotArray, value => ∀ elements, value ≠ .array elements
  | oneOfNotArray, value => ∀ elements, value ≠ .array elements
  | typeNotNames, value => (∀ name, value ≠ .string name) ∧ ∀ names, value ≠ .array names
  | requiredNotArray, value => ∀ names, value ≠ .array names
  | requiredNotNames, value =>
    ∃ names, value = .array names ∧ ∃ entry ∈ names, ∀ name, entry ≠ .string name
  | propertiesNotObject, value => ∀ members, value ≠ .object members
  | additionalPropertiesNotSchema, value =>
    (∀ admits, value ≠ .boolean admits) ∧ ∀ members, value ≠ .object members
  | itemsNotSchemas, value =>
    (∀ admits, value ≠ .boolean admits) ∧ (∀ members, value ≠ .object members) ∧
      ∀ elements, value ≠ .array elements

/-- The pointer leads through a node of the schema to a value that is wrong for its keyword there. -/
def Malformed.LocatedIn (schema : Json) (malformed : Malformed) : Prop :=
  ∃ node members value, malformed.pointer = node ++ [malformed.fault.keyword] ∧
    schema.select? node = some (.object members) ∧
    members.lookup malformed.fault.keyword = some value ∧ malformed.fault.Misshapes value

/-- Everything that the draft reports about the schema is found there. -/
def Draft.Locates {Content : Type} (schema : Json) (draft : Draft Content) : Prop :=
  ∀ taken,
    (∀ pointer ∈ (draft taken).warnings, ∃ value, schema.select? pointer = some value ∧
      value.IsForeign) ∧
    ∀ malformed, (draft taken).outcome = .error malformed → malformed.LocatedIn schema

theorem error_of_map {Error Content Other : Type} {result : Except Error Content}
    {make : Content → Other} {error : Error} (failed : result.map make = .error error) :
    result = .error error := by
  cases result with
  | error other =>
    cases failed
    rfl
  | ok content => cases failed

theorem error_of_mapError {Error Other Content : Type} {result : Except Error Content}
    {make : Error → Other} {error : Other} (failed : result.mapError make = .error error) :
    ∃ inner, result = .error inner ∧ error = make inner := by
  cases result with
  | error inner =>
    cases failed
    exact ⟨inner, rfl, rfl⟩
  | ok content => cases failed

namespace Draft

variable {Content Other : Type} {schema : Json}

theorem locates_pure {content : Content} : (pure content : Draft Content).Locates schema := by
  intro taken
  constructor
  · intro pointer inside
    cases inside
  · intro malformed failed
    cases failed

theorem locates_warn (foreign : schema.IsForeign) : warn.Locates schema := by
  intro taken
  constructor
  · intro pointer inside
    obtain rfl := List.mem_singleton.mp inside
    exact ⟨schema, rfl, foreign⟩
  · intro malformed failed
    cases failed

theorem locates_refuse {members : List (String × Json)} {fault : Fault} {value : Json}
    (found : members.lookup fault.keyword = some value) (misshapen : fault.Misshapes value) :
    (refuse fault : Draft Content).Locates (.object members) := by
  intro taken
  constructor
  · intro pointer inside
    cases inside
  · intro malformed failed
    cases failed
    exact ⟨[], members, value, rfl, rfl, found, misshapen⟩

theorem locates_map {make : Content → Other} {draft : Draft Content} (locates : draft.Locates schema) :
    (make <$> draft).Locates schema := by
  intro taken
  constructor
  · exact (locates taken).1
  · intro malformed failed
    exact (locates taken).2 malformed (error_of_map failed)

theorem locates_bind {draft : Draft Content} {next : Content → Draft Other}
    (locates : draft.Locates schema) (locates' : ∀ content, (next content).Locates schema) :
    (draft >>= next).Locates schema := by
  intro taken
  simp only [bind, andThen]
  cases here : (draft taken).outcome with
  | error other =>
    refine ⟨(locates taken).1, ?_⟩
    intro malformed failed
    cases failed
    exact (locates taken).2 other here
  | ok result =>
    obtain ⟨content, declared⟩ := result
    have after := locates' content (taken ++ declared.map Declaration.name)
    constructor
    · intro pointer inside
      rcases List.mem_append.mp inside with first | second
      · exact (locates taken).1 pointer first
      · exact after.1 pointer second
    · intro malformed failed
      exact after.2 malformed (error_of_map failed)

/-- What is found in a part is found in the whole, behind the pointer to the part. -/
theorem locates_within {tokens : Pointer} {part : Json} {draft : Draft Content}
    (selected : schema.select? tokens = some part) (locates : draft.Locates part) :
    (draft.within tokens).Locates schema := by
  have moved : ∀ pointer, schema.select? (tokens ++ pointer) = part.select? pointer := by
    intro pointer
    rw [Json.select?_append, selected, Option.bind_some]
  intro taken
  constructor
  · intro pointer inside
    obtain ⟨inner, there, rfl⟩ := List.mem_map.mp inside
    rw [moved]
    exact (locates taken).1 inner there
  · intro malformed failed
    obtain ⟨other, here, rfl⟩ := error_of_mapError failed
    obtain ⟨node, members, value, same, reached, found, misshapen⟩ := (locates taken).2 other here
    refine ⟨tokens ++ node, members, value, ?_, ?_, found, misshapen⟩
    · change tokens ++ other.pointer = _
      rw [same, List.append_assoc]
    · rw [moved]
      exact reached

theorem locates_each {Source : Type} {draft : Source → Draft Content} {sources : List Source}
    (locates : ∀ source ∈ sources, (draft source).Locates schema) :
    (each draft sources).Locates schema := by
  induction sources with
  | nil => exact locates_pure
  | cons source sources ih =>
    have first := locates source List.mem_cons_self
    have others := ih fun other inside => locates other (List.mem_cons_of_mem source inside)
    exact locates_bind first fun content => locates_map others

end Draft

open Draft

variable {ignoreBounds : Bool} {members : List (String × Json)}

theorem locates_malformed {Content Other : Type} (fault : Fault) {shape : Json → Option Content}
    {other : Fault} (misshapes : ∀ value, shape value = none → fault.Misshapes value)
    (malformed : readKeyword fault.keyword (fun value => .ofShape fault (shape value)) members =
      .malformed other) : (refuse other : Draft Other).Locates (.object members) := by
  obtain ⟨value, found, shaped⟩ := readKeyword_eq_malformed malformed
  obtain ⟨shapeless, rfl⟩ := ofShape_eq_malformed.mp shaped
  exact locates_refuse found (misshapes value shapeless)

theorem elements?_eq_none {value : Json} (unlisted : value.elements? = none) (elements : List Json) :
    value ≠ .array elements := by
  intro same
  subst same
  cases unlisted

theorem listOf?_eq_none {value : Json} (unlisted : Schema.listOf? value = none) :
    ∀ elements, value ≠ .array elements :=
  elements?_eq_none (Option.map_eq_none_iff.mp unlisted)

theorem tableOf?_eq_none {value : Json} (unnamed : Schema.tableOf? value = none)
    (table : List (String × Json)) : value ≠ .object table := by
  intro same
  subst same
  cases unnamed

theorem single?_eq_none {value : Json} (foreign : Schema.single? value = none) :
    (∀ admits, value ≠ .boolean admits) ∧ ∀ table, value ≠ .object table := by
  constructor
  · intro admits same
    subst same
    cases foreign
  · intro table same
    subst same
    rw [Schema.single?, ofJson_object] at foreign
    cases foreign

theorem itemsOf?_eq_none {value : Json} (foreign : Schema.itemsOf? value = none) :
    (∀ admits, value ≠ .boolean admits) ∧ (∀ table, value ≠ .object table) ∧
      ∀ elements, value ≠ .array elements := by
  unfold Schema.itemsOf? at foreign
  split at foreign
  · cases foreign
  · rename_i unlisted
    obtain ⟨noBoolean, noObject⟩ := single?_eq_none (Option.map_eq_none_iff.mp foreign)
    exact ⟨noBoolean, noObject, listOf?_eq_none unlisted⟩

theorem readKinds_eq_none {value : Json} (unnamed : readKinds value = none) :
    (∀ name, value ≠ .string name) ∧ ∀ names, value ≠ .array names := by
  constructor
  · intro name same
    subst same
    cases unnamed
  · intro names same
    subst same
    cases unnamed

theorem locates_declare {base : String} {source : Schema} {body : Draft TypeExpr} {schema : Json}
    (locates : body.Locates schema) : (declare base source body).Locates schema := by
  have drafted : ∀ name, (declarationDraft name source body).Locates schema := by
    intro name
    unfold declarationDraft
    split
    · exact locates_pure
    · exact locates_map locates
  intro taken
  have here := drafted (freshName base taken) (taken ++ [freshName base taken])
  constructor
  · exact here.1
  · intro malformed failed
    exact here.2 malformed (error_of_map failed)

theorem locates_place {source : Schema} {body : Draft TypeExpr} {schema : Json}
    (locates : body.Locates schema) : (place source body).Locates schema := by
  unfold place
  split
  · exact locates_declare locates
  · exact locates

def PartLocates (ignoreBounds : Bool) (part : Json) : Prop :=
  ((Schema.ofJson part).body ignoreBounds).Locates part

theorem locates_single {key : String} {part : Json} (found : members.lookup key = some part)
    (located : PartLocates ignoreBounds part) :
    ((place (Schema.ofJson part) ((Schema.ofJson part).body ignoreBounds)).within [key]).Locates
      (.object members) :=
  locates_within (Json.select?_member found) (locates_place located)

theorem locates_eachDraft {key : String} {elements : List Json}
    (found : members.lookup key = some (.array elements))
    (located : ∀ element ∈ elements, PartLocates ignoreBounds element) :
    ((eachDraft ignoreBounds 0 (elements.map Schema.ofJson)).within [key]).Locates
      (.object members) := by
  refine locates_within (Json.select?_member found) ?_
  rw [eachDraft_eq_each]
  apply locates_each
  intro entry inside
  obtain ⟨schema, position⟩ := entry
  rw [List.mk_mem_zipIdx_iff_getElem?, List.getElem?_map, Option.map_eq_some_iff] at inside
  obtain ⟨element, here, rfl⟩ := inside
  exact locates_within (Json.select?_element here)
    (locates_place (located element (List.mem_of_getElem? here)))

theorem locates_armDrafts (fault : Fault)
    (misshapes : ∀ value, Schema.listOf? value = none → fault.Misshapes value)
    (located : ∀ arms, members.lookup fault.keyword = some (.array arms) →
      ∀ arm ∈ arms, PartLocates ignoreBounds arm) :
    (armDrafts ignoreBounds fault.keyword
      (Schema.armsOf fault.keyword fault members)).Locates (.object members) := by
  cases here : Schema.armsOf fault.keyword fault members with
  | absent => exact locates_pure
  | malformed other => exact locates_malformed fault misshapes here
  | given schemas =>
    obtain ⟨arms, found, rfl⟩ := armsOf_eq_given here
    exact locates_map (locates_eachDraft found (located arms found))

theorem lookup_of_mem {table : List (String × Json)} (distinct : (table.map (·.1)).Nodup)
    {member : String × Json} (inside : member ∈ table) : table.lookup member.1 = some member.2 := by
  induction table with
  | nil => cases inside
  | cons first others ih =>
    rw [List.map_cons, List.nodup_cons] at distinct
    obtain ⟨key, value⟩ := first
    rcases List.mem_cons.mp inside with rfl | later
    · exact List.lookup_cons_self
    · have apart : (member.1 == key) = false := by
        rw [beq_eq_false_iff_ne]
        rintro rfl
        have listed : member.1 ∈ others.map (·.1) := List.mem_map_of_mem later
        exact distinct.1 listed
      rw [List.lookup_cons, apart]
      exact ih distinct.2 later

theorem locates_fieldDrafts {required : List String}
    (distinct : ∀ table, members.lookup "properties" = some (.object table) →
      (table.map (·.1)).Nodup)
    (located : ∀ table, members.lookup "properties" = some (.object table) →
      ∀ member ∈ table, PartLocates ignoreBounds member.2) :
    (fieldDrafts ignoreBounds required (Schema.propertiesOf members)).Locates (.object members) := by
  cases here : Schema.propertiesOf members with
  | absent => exact locates_pure
  | malformed fault =>
    exact locates_malformed .propertiesNotObject (fun value => tableOf?_eq_none) here
  | given named =>
    obtain ⟨table, found, rfl⟩ := propertiesOf_eq_given here
    rw [fieldDrafts]
    refine locates_within (Json.select?_member found) ?_
    rw [eachField_eq_each]
    refine locates_each fun entry inside => locates_map ?_
    obtain ⟨member, there, rfl⟩ := List.mem_map.mp inside
    exact locates_single (lookup_of_mem (distinct table found) there) (located table found member there)

theorem locates_indexDraft
    (located : ∀ part, members.lookup "additionalProperties" = some part →
      PartLocates ignoreBounds part) :
    (indexDraft ignoreBounds (Schema.additionalPropertiesOf members)).Locates (.object members) := by
  unfold indexDraft
  split
  · exact locates_pure
  · rename_i fault here
    exact locates_malformed .additionalPropertiesNotSchema (fun value => single?_eq_none) here
  · exact locates_pure
  · rename_i schema here
    obtain ⟨part, found, rfl⟩ := additionalPropertiesOf_eq_given here
    exact locates_map (locates_single found (located part found))

theorem locates_restDraft {full : Bool}
    (located : ∀ part, members.lookup "additionalItems" = some part → PartLocates ignoreBounds part) :
    (restDraft ignoreBounds full (Schema.additionalItemsOf members)).Locates (.object members) := by
  unfold restDraft
  split
  · exact locates_pure
  · rename_i schema here
    obtain ⟨part, found, restricted⟩ := Option.bind_eq_some_iff.mp here
    split
    · exact locates_pure
    · rw [← ofJson_restrictionOf? restricted]
      exact locates_map (locates_single found (located part found))
  · exact locates_pure

theorem locates_itemsDraft {least most : Option Nat} {restOf : Bool → Draft (Option TypeExpr)}
    (single : ∀ part, members.lookup "items" = some part → PartLocates ignoreBounds part)
    (positional : ∀ parts, members.lookup "items" = some (.array parts) →
      ∀ part ∈ parts, PartLocates ignoreBounds part)
    (rest : ∀ full, (restOf full).Locates (.object members)) :
    (itemsDraft ignoreBounds least most restOf (Schema.itemsOf members)).Locates (.object members) := by
  unfold itemsDraft
  split
  · exact locates_pure
  · rename_i fault here
    exact locates_malformed .itemsNotSchemas (fun value => itemsOf?_eq_none) here
  · rename_i schema here
    obtain ⟨part, found, rfl⟩ := itemsOf_eq_every here
    exact locates_bind (locates_single found (single part found)) fun item => locates_pure
  · rename_i schemas here
    obtain ⟨parts, found, rfl⟩ := itemsOf_eq_positional here
    apply locates_bind (locates_eachDraft found (positional parts found))
    intro types
    exact locates_bind (rest _) fun after => locates_pure

theorem mapM_string?_eq_none {names : List Json} (unread : names.mapM Json.string? = none) :
    ∃ entry ∈ names, ∀ name, entry ≠ .string name := by
  induction names with
  | nil => cases unread
  | cons entry names ih =>
    cases here : entry.string? with
    | none =>
      refine ⟨entry, List.mem_cons_self, ?_⟩
      rintro name rfl
      cases here
    | some text =>
      cases there : names.mapM Json.string? with
      | none =>
        obtain ⟨other, inside, strange⟩ := ih there
        exact ⟨other, List.mem_cons_of_mem entry inside, strange⟩
      | some texts => simp [List.mapM_cons, here, there] at unread

theorem locates_required :
    (Draft.ofKeyword [] (readHead members).required).Locates (.object members) := by
  cases here : (readHead members).required with
  | absent => exact locates_pure
  | given names => exact locates_pure
  | malformed fault =>
    obtain ⟨value, found, read⟩ := readKeyword_eq_malformed here
    cases value with
    | array names =>
      rw [readRequired] at read
      obtain ⟨unread, rfl⟩ := ofShape_eq_malformed.mp read
      exact locates_refuse found ⟨names, rfl, mapM_string?_eq_none unread⟩
    | _ =>
      cases read
      exact locates_refuse found (by simp [Fault.Misshapes])

theorem locates_kindDraft {object array : Draft TypeExpr} {schema : Json}
    (objects : object.Locates schema) (arrays : array.Locates schema) (kind : Kind) :
    (kindDraft object array kind).Locates schema := by
  cases kind with
  | object => exact objects
  | array => exact arrays
  | _ => exact locates_pure

theorem locates_typedPart {objectShaped arrayShaped : Bool} {object array : Draft TypeExpr}
    (objects : object.Locates (.object members)) (arrays : array.Locates (.object members)) :
    (typedPart (effectiveKinds (readHead members).kinds objectShaped arrayShaped) object
      array).Locates (.object members) := by
  unfold typedPart
  split
  · exact locates_pure
  · rename_i fault here
    have malformed : (readHead members).kinds = .malformed fault := by
      unfold effectiveKinds at here
      repeat' split at here
      all_goals first | exact here | cases here
    exact locates_malformed .typeNotNames (fun value => readKinds_eq_none) malformed
  · rw [kindDrafts_eq_each]
    exact locates_map (locates_each fun kind _ => locates_kindDraft objects arrays kind)

theorem locates_fixed {fault : Fault} (fixed : fixedType (readHead members) = .malformed fault) :
    (refuse fault : Draft TypeExpr).Locates (.object members) := by
  unfold fixedType at fixed
  split at fixed
  · cases fixed
  · split at fixed
    · cases fixed
    · rename_i other here
      cases fixed
      exact locates_malformed .enumNotArray (fun value => elements?_eq_none) here
    · split at fixed <;> cases fixed

theorem locates_body (schema : Json) (distinct : schema.hasDistinctKeys = true) :
    ((Schema.ofJson schema).body ignoreBounds).Locates schema := by
  induction schema using partInduction with
  | step schema ih =>
    have parts : ∀ part, HasPart schema part → PartLocates ignoreBounds part :=
      fun part step => ih part step (Json.everyObject_of_part distinct step)
    cases schema with
    | boolean admits => cases admits <;> exact locates_pure
    | object members =>
      rw [ofJson_object, body_node]
      split
      · exact locates_pure
      · exact locates_fixed ‹_›
      · have tables : ∀ table, members.lookup "properties" = some (.object table) →
            (table.map (·.1)).Nodup := fun table found => Json.table_nodup distinct found
        have arms : ∀ key ∈ combiningKeys, ∀ arms, members.lookup key = some (.array arms) →
            ∀ arm ∈ arms, PartLocates ignoreBounds arm :=
          fun key combining arms found arm inside => parts arm (.arm combining found inside)
        have singles : ∀ key ∈ singleKeys, ∀ part, members.lookup key = some part →
            PartLocates ignoreBounds part :=
          fun key reading part found => parts part (.single reading found)
        refine locates_bind (locates_armDrafts .allOfNotArray (fun value => listOf?_eq_none)
          (arms "allOf" (by simp [combiningKeys]))) fun all => ?_
        refine locates_bind (locates_armDrafts .anyOfNotArray (fun value => listOf?_eq_none)
          (arms "anyOf" (by simp [combiningKeys]))) fun any => ?_
        refine locates_bind (locates_armDrafts .oneOfNotArray (fun value => listOf?_eq_none)
          (arms "oneOf" (by simp [combiningKeys]))) fun one => ?_
        refine locates_bind (locates_typedPart ?_ ?_) fun typed => locates_pure
        · apply locates_bind locates_required
          intro required
          refine locates_bind (locates_fieldDrafts tables ?_) fun fields => ?_
          · exact fun table found member inside => parts member.2 (.property found inside)
          · exact locates_map
              (locates_indexDraft (singles "additionalProperties" (by simp [singleKeys])))
        · refine locates_itemsDraft (singles "items" (by simp [singleKeys])) ?_ fun full => ?_
          · exact fun rules found part inside => parts part (.positional found inside)
          · exact locates_restDraft (singles "additionalItems" (by simp [singleKeys]))
    | _ => exact locates_bind (locates_warn trivial) fun _ => locates_pure

theorem Malformed.LocatedIn.fragments {schema : Json} {malformed : Malformed}
    (located : malformed.LocatedIn schema) :
    ∃ node members value, malformed.pointer = node ++ [malformed.fault.keyword] ∧
      schema.fragment? (Pointer.text node) = some (.object members) ∧
      schema.fragment? malformed.pointer.text = some value ∧
      members.lookup malformed.fault.keyword = some value ∧ malformed.fault.Misshapes value := by
  obtain ⟨node, members, value, same, reached, found, misshapen⟩ := located
  refine ⟨node, members, value, same, ?_, ?_, found, misshapen⟩
  · rw [Json.fragment?_text]
    exact reached
  · rw [Json.fragment?_text, same, Json.select?_append, reached, Option.bind_some]
    exact Json.select?_member found

theorem reason_names_keyword (fault : Fault) :
    ∃ complaint, fault.reason = "`" ++ fault.keyword ++ "`" ++ complaint := by
  cases fault
  · exact ⟨" must be an array", by decide⟩
  · exact ⟨" must be an array of schemas", by decide⟩
  · exact ⟨" must be an array of schemas", by decide⟩
  · exact ⟨" must be an array of schemas", by decide⟩
  · exact ⟨" must be a string or an array of strings", by decide⟩
  · exact ⟨" must be an array of strings", by decide⟩
  · exact ⟨" entries must be strings", by decide⟩
  · exact ⟨" must be an object", by decide⟩
  · exact ⟨" must be a boolean or a schema", by decide⟩
  · exact ⟨" must be a schema or an array of schemas", by decide⟩

/--
What typing reports about a schema is found there by following the reported fragment: a value that is
wrong for the keyword that the reason names, under that keyword of an object, and for each warning a
value that is no schema.
-/
theorem reports_located (schema : Json) (suggested : String) (ignoreBounds : Bool)
    (distinct : schema.hasDistinctKeys = true) :
    (∀ malformed,
      ((Schema.ofJson schema).declarations suggested ignoreBounds).outcome = .error malformed →
        (∃ complaint, malformed.fault.reason = "`" ++ malformed.fault.keyword ++ "`" ++ complaint) ∧
        ∃ node members value, malformed.pointer = node ++ [malformed.fault.keyword] ∧
          schema.fragment? (Pointer.text node) = some (.object members) ∧
          schema.fragment? malformed.pointer.text = some value ∧
          members.lookup malformed.fault.keyword = some value ∧ malformed.fault.Misshapes value) ∧
      ∀ pointer ∈ ((Schema.ofJson schema).declarations suggested ignoreBounds).warnings,
        ∃ value, schema.fragment? pointer.text = some value ∧ value.IsForeign := by
  have locates : (declare (rootBase (Schema.ofJson schema) suggested) (Schema.ofJson schema)
      ((Schema.ofJson schema).body ignoreBounds)).Locates schema :=
    locates_declare (locates_body schema distinct)
  constructor
  · intro malformed failed
    refine ⟨reason_names_keyword malformed.fault, Malformed.LocatedIn.fragments ?_⟩
    exact (locates []).2 malformed (error_of_map failed)
  · intro pointer inside
    rw [Json.fragment?_text]
    exact (locates []).1 pointer inside

/-- Member names that need escapes, one that is empty and one of digits, around a fault. -/
def awkwardNames : Json :=
  .object [("properties", .object [
    ("~1", .string "no schema"),
    ("", .object [("anyOf", .array [.boolean true, .object [
      ("properties", .object [("7/", .object [("type", .number (.integer 1))])])]])])])]

theorem awkwardNames_located :
    awkwardNames.hasDistinctKeys = true ∧
      ((Schema.ofJson awkwardNames).declarations "" false).outcome =
        .error ⟨["properties", "", "anyOf", "1", "properties", "7/", "type"], .typeNotNames⟩ ∧
      (∃ node members value,
        ["properties", "", "anyOf", "1", "properties", "7/", "type"] = node ++ ["type"] ∧
          awkwardNames.fragment? (Pointer.text node) = some (.object members) ∧
          awkwardNames.fragment? "#/properties//anyOf/1/properties/7~1/type" = some value ∧
          members.lookup "type" = some value ∧ Fault.typeNotNames.Misshapes value) ∧
      ["properties", "~1"] ∈ ((Schema.ofJson awkwardNames).declarations "" false).warnings ∧
      ∃ value, awkwardNames.fragment? "#/properties/~01" = some value ∧ value.IsForeign := by
  have distinct : awkwardNames.hasDistinctKeys = true := by decide +kernel
  have failed : ((Schema.ofJson awkwardNames).declarations "" false).outcome =
      .error ⟨["properties", "", "anyOf", "1", "properties", "7/", "type"], .typeNotNames⟩ := by
    decide +kernel
  have warned : ["properties", "~1"] ∈
      ((Schema.ofJson awkwardNames).declarations "" false).warnings := by decide +kernel
  have located := reports_located awkwardNames "" false distinct
  have text : Pointer.text ["properties", "", "anyOf", "1", "properties", "7/", "type"] =
      "#/properties//anyOf/1/properties/7~1/type" := by decide +kernel
  have text' : Pointer.text ["properties", "~1"] = "#/properties/~01" := by decide +kernel
  refine ⟨distinct, failed, ?_, warned, ?_⟩
  · rw [← text]
    exact (located.1 _ failed).2
  · rw [← text']
    exact located.2 ["properties", "~1"] warned

end SchemaTypes
