import SchemaTypes.Proofs.DistinctKeys
import SchemaTypes.Settings.LayerText

/-!
Layers field by field. Any object is a layer. Each field depends on the value under its own key alone,
and is given exactly if this value has the right shape; so a value of a wrong shape, or an unknown key,
takes nothing away from the other fields. A text is read like the object that it writes, unless it
writes a known key twice.
-/

namespace SchemaTypes

inductive EnvField where
  | uri
  | database
  deriving DecidableEq, Repr

inductive LayerField where
  | banner
  | constEnums
  | ignoreBounds
  | strictIndex
  | unknownAny
  | path
  | env
  deriving DecidableEq, Repr

namespace EnvField

def key : EnvField → String
  | uri => "MONGODB_URI"
  | database => "MONGODB_DATABASE"

/-- The place in a table that is written as a list. -/
def position : EnvField → Nat
  | uri => 0
  | database => 1

end EnvField

def EnvLayer.given? (names : EnvLayer) : EnvField → Option String
  | .uri => names.uri
  | .database => names.database

def EnvLayer.Names (names : EnvLayer) (found : EnvField → Option Json) : Prop :=
  ∀ field text, names.given? field = some text ↔ found field = some (.string text)

namespace LayerField

def key : LayerField → String
  | banner => "bannerComment"
  | constEnums => "enableConstEnums"
  | ignoreBounds => "ignoreMinAndMaxItems"
  | strictIndex => "strictIndexSignatures"
  | unknownAny => "unknownAny"
  | path => "path"
  | env => "env"

abbrev Content : LayerField → Type
  | banner => List String
  | constEnums => Bool
  | ignoreBounds => Bool
  | strictIndex => Bool
  | unknownAny => Bool
  | path => String
  | env => EnvLayer

def given? (layer : ConfigLayer) : (field : LayerField) → Option field.Content
  | banner => layer.options.banner
  | constEnums => layer.options.constEnums
  | ignoreBounds => layer.options.ignoreBounds
  | strictIndex => layer.options.strictIndex
  | unknownAny => layer.options.unknownAny
  | path => layer.path
  | env => layer.env

def read : (field : LayerField) → Json → Option field.Content
  | banner => Json.strings?
  | constEnums => Json.boolean?
  | ignoreBounds => Json.boolean?
  | strictIndex => Json.boolean?
  | unknownAny => Json.boolean?
  | path => Json.string?
  | env => EnvLayer.ofJson?

/--
The value has the field's shape, and this is what it holds. A table of variables is an object, or else a
list of no more values than there are variables.
-/
def Holds : (field : LayerField) → field.Content → Json → Prop
  | banner, lines, value => value = .array (lines.map .string)
  | constEnums, flag, value => value = .boolean flag
  | ignoreBounds, flag, value => value = .boolean flag
  | strictIndex, flag, value => value = .boolean flag
  | unknownAny, flag, value => value = .boolean flag
  | path, text, value => value = .string text
  | env, names, value =>
    (∃ named, value = .object named ∧ names.Names fun field => named.lookup field.key) ∨
      ∃ values, value = .array values ∧ values.length ≤ 2 ∧
        names.Names fun field => values[field.position]?

/-- Under the field's key there is a value that holds this. -/
def IsWritten (members : List (String × Json)) (field : LayerField) (content : field.Content) : Prop :=
  ∃ value, members.lookup field.key = some value ∧ field.Holds content value

theorem key_injective {field other : LayerField} (same : field.key = other.key) : field = other := by
  revert same
  cases field <;> cases other <;> simp [key]

theorem mem_configKeys (field : LayerField) : field.key ∈ configKeys := by
  cases field <;> decide

end LayerField

open LayerField

theorem env_ofMembers_names (members : List (String × Json)) :
    (EnvLayer.ofMembers members).Names fun field => members.lookup field.key := by
  intro field text
  cases field <;> simp [EnvLayer.given?, EnvLayer.ofMembers, readField, Option.bind_eq_some_iff,
    Json.string?_eq_some, EnvField.key]

theorem names_unique {names others : EnvLayer} {found : EnvField → Option Json}
    (named : names.Names found) (named' : others.Names found) : names = others := by
  have same : ∀ field, names.given? field = others.given? field :=
    fun field => Option.ext fun text => (named field text).trans (named' field text).symm
  obtain ⟨uri, database⟩ := names
  obtain ⟨uri', database'⟩ := others
  obtain rfl : uri = uri' := same .uri
  obtain rfl : database = database' := same .database
  rfl

theorem names_ofMembers_iff {names : EnvLayer} {members : List (String × Json)} :
    EnvLayer.ofMembers members = names ↔ names.Names fun field => members.lookup field.key := by
  constructor
  · rintro rfl
    exact env_ofMembers_names members
  · exact names_unique (env_ofMembers_names members)

theorem lookup_envKeys_zip (values : List Json) (field : EnvField) :
    (envKeys.zip values).lookup field.key = values[field.position]? := by
  match values with
  | [] => cases field <;> rfl
  | [value] => cases field <;> rfl
  | first :: second :: others => cases field <;> rfl

theorem env_read_iff {names : EnvLayer} {value : Json} :
    EnvLayer.ofJson? value = some names ↔ LayerField.env.Holds names value := by
  rw [EnvLayer.ofJson?, Option.map_eq_some_iff]
  cases value with
  | object named => simp [recordMembers?, Holds, names_ofMembers_iff]
  | array values =>
    have known : envKeys.length = 2 := rfl
    by_cases few : values.length ≤ 2
    · simp [recordMembers?, Holds, known, few, names_ofMembers_iff, lookup_envKeys_zip]
    · simp [recordMembers?, Holds, known, few]
  | _ => simp [recordMembers?, Holds]

theorem read_iff_holds (field : LayerField) (content : field.Content) (value : Json) :
    field.read value = some content ↔ field.Holds content value := by
  cases field with
  | banner => exact Json.strings?_eq_some
  | path => exact Json.string?_eq_some
  | env => exact env_read_iff
  | _ => exact Json.boolean?_eq_some

theorem given?_ofMembers (members : List (String × Json)) (field : LayerField) :
    given? (ConfigLayer.ofMembers members) field = (members.lookup field.key).bind field.read := by
  cases field <;> rfl

theorem given?_iff (members : List (String × Json)) (field : LayerField) (content : field.Content) :
    given? (ConfigLayer.ofMembers members) field = some content ↔
      ∃ value, members.lookup field.key = some value ∧ field.Holds content value := by
  rw [given?_ofMembers, Option.bind_eq_some_iff]
  simp only [read_iff_holds]

theorem layer_ext {layer other : ConfigLayer} (same : ∀ field, given? layer field = given? other field) :
    layer = other := by
  obtain ⟨⟨banner, constEnums, ignoreBounds, strictIndex, unknownAny⟩, path, env⟩ := layer
  obtain ⟨⟨banner', constEnums', ignoreBounds', strictIndex', unknownAny'⟩, path', env'⟩ := other
  obtain rfl : banner = banner' := same .banner
  obtain rfl : constEnums = constEnums' := same .constEnums
  obtain rfl : ignoreBounds = ignoreBounds' := same .ignoreBounds
  obtain rfl : strictIndex = strictIndex' := same .strictIndex
  obtain rfl : unknownAny = unknownAny' := same .unknownAny
  obtain rfl : path = path' := same .path
  obtain rfl : env = env' := same .env
  rfl

theorem given?_congr {members others : List (String × Json)} {field : LayerField}
    (same : members.lookup field.key = others.lookup field.key) :
    given? (ConfigLayer.ofMembers members) field = given? (ConfigLayer.ofMembers others) field := by
  rw [given?_ofMembers, given?_ofMembers, same]

section

variable {Value : Type} {key : String} (keep : String → Bool)

theorem lookup_filter_of (kept : keep key = true) (members : List (String × Value)) :
    (members.filter fun member => keep member.1).lookup key = members.lookup key := by
  induction members with
  | nil => rfl
  | cons member members ih =>
    obtain ⟨name, value⟩ := member
    by_cases same : key = name
    · subst same
      rw [List.filter_cons, if_pos kept, List.lookup_cons_self, List.lookup_cons_self]
    · rw [lookup_cons_of_ne same, List.filter_cons]
      split
      · rw [lookup_cons_of_ne same, ih]
      · exact ih

theorem filter_putMember (value : Value) (members : List (String × Value)) :
    (putMember key value members).filter (fun member => keep member.1) =
      if keep key then putMember key value (members.filter fun member => keep member.1)
      else members.filter fun member => keep member.1 := by
  induction members with
  | nil => cases kept : keep key <;> simp [putMember, kept]
  | cons member members ih =>
    obtain ⟨name, content⟩ := member
    by_cases same : name = key
    · subst same
      cases kept : keep name <;> simp [putMember, kept]
    · cases kept : keep key <;> cases kept' : keep name <;> simp [putMember, same, kept, kept', ih]

/-- Members that are left out when they are merged may as well be left out before. -/
theorem filter_mergeWritten (written : List (String × Value)) :
    (mergeWritten written).filter (fun member => keep member.1) =
      mergeWritten (written.filter fun member => keep member.1) := by
  -- By induction on what is still to be merged, for any members merged so far.
  have general : ∀ kept : List (String × Value),
      (written.foldl (fun kept member => putMember member.1 member.2 kept) kept).filter
          (fun member => keep member.1) =
        (written.filter fun member => keep member.1).foldl
          (fun kept member => putMember member.1 member.2 kept)
          (kept.filter fun member => keep member.1) := by
    induction written with
    | nil => exact fun kept => rfl
    | cons member written ih =>
      intro kept
      rw [List.foldl_cons, ih, filter_putMember, List.filter_cons]
      split <;> rfl
  exact general []

end

theorem ofMembers_known (members : List (String × Json)) :
    ConfigLayer.ofMembers (members.filter fun member => configKeys.contains member.1) =
      ConfigLayer.ofMembers members := by
  apply layer_ext
  intro field
  have known : configKeys.contains field.key = true := List.contains_iff_mem.mpr field.mem_configKeys
  exact given?_congr (lookup_filter_of configKeys.contains known members)

/-- The text is an object with these members, in the order in which it writes them. -/
def WritesMembers (text : String) (written : List (String × Json)) : Prop :=
  ∃ inside rest, skipBlanks text.toList = '{' :: inside ∧
    readTable (fun _ => innerReader) inside = .ok (written, rest) ∧ isFinished rest = true

theorem object_of_readFront {text : String} {members : List (String × Json)} {rest : List Char}
    (read : Json.readFront text = .ok (.object members, rest)) (finished : isFinished rest = true) :
    ∃ written, WritesMembers text written ∧ members = settleWritten written := by
  have nested : Json.readWith (some innerReader) text.toList = .ok (.object members, rest) := read
  unfold Json.readWith at nested
  simp only at nested
  split at nested
  · cases nested
  · cases Json.eq_of_word nested
  · cases Json.eq_of_word nested
  · cases Json.eq_of_word nested
  · obtain ⟨text, _, same⟩ := Json.ok_of_map nested
    cases same
  · obtain ⟨number, _, same⟩ := Json.ok_of_map nested
    cases same
  · obtain ⟨elements, _, same⟩ := Json.ok_of_map nested
    cases same
  · rename_i inside opened
    obtain ⟨written, table, same⟩ := Json.ok_of_map nested
    cases same
    exact ⟨written, ⟨inside, rest, opened, table, finished⟩, rfl⟩
  · split at nested
    · obtain ⟨number, _, same⟩ := Json.ok_of_map nested
      cases same
    · cases nested

theorem ofText?_of_writes {text : String} {written : List (String × Json)}
    (writes : WritesMembers text written) :
    ConfigLayer.ofText? text =
      if ((written.filter fun member => configKeys.contains member.1).map (·.1)).Nodup then
        some (ConfigLayer.ofMembers (settleWritten written))
      else none := by
  obtain ⟨inside, rest, opened, table, finished⟩ := writes
  simp only [ConfigLayer.ofText?, opened, table, wholeText?, finished, if_true, Option.bind_some,
    knownOnce?]
  split
  · rename_i once
    have settled := foldl_putMember_of_nodup [] _ once
    have same := calc
      ConfigLayer.ofMembers (written.filter fun member => configKeys.contains member.1)
      _ = ConfigLayer.ofMembers
          (mergeWritten (written.filter fun member => configKeys.contains member.1)) :=
        congrArg ConfigLayer.ofMembers settled.symm
      _ = ConfigLayer.ofMembers
          ((settleWritten written).filter fun member => configKeys.contains member.1) := by
        rw [settleWritten_eq, filter_mergeWritten configKeys.contains]
      _ = ConfigLayer.ofMembers (settleWritten written) := ofMembers_known (settleWritten written)
    rw [Option.map_some, same]
  · rfl

def WritesKnownOnce (written : List (String × Json)) : Prop :=
  ((written.filter fun member => configKeys.contains member.1).map (·.1)).Nodup

theorem ofText?_eq_some {text : String} {layer : ConfigLayer} :
    ConfigLayer.ofText? text = some layer ↔
      ∃ written, WritesMembers text written ∧ WritesKnownOnce written ∧
        layer = ConfigLayer.ofMembers (settleWritten written) := by
  constructor
  · intro accepted
    obtain ⟨written, writes⟩ : ∃ written, WritesMembers text written := by
      unfold ConfigLayer.ofText? at accepted
      split at accepted
      · rename_i inside opened
        obtain ⟨known, finished, _⟩ := Option.map_eq_some_iff.mp accepted
        obtain ⟨written, whole, _⟩ := Option.bind_eq_some_iff.mp finished
        cases table : readTable (fun _ => innerReader) inside with
        | error error =>
          rw [table] at whole
          cases whole
        | ok result =>
          obtain ⟨members, rest⟩ := result
          rw [table] at whole
          by_cases ended : isFinished rest = true
          · exact ⟨members, inside, rest, opened, table, ended⟩
          · simp [wholeText?, ended] at whole
      · cases accepted
    rw [ofText?_of_writes writes] at accepted
    split at accepted
    · rename_i once
      exact ⟨written, writes, once, (Option.some.inj accepted).symm⟩
    · cases accepted
  · rintro ⟨written, writes, once, rfl⟩
    rw [ofText?_of_writes writes]
    exact if_pos once

theorem given?_putMember {field : LayerField} {key : String} (other : field.key ≠ key) (value : Json)
    (members : List (String × Json)) :
    given? (ConfigLayer.ofMembers (putMember key value members)) field =
      given? (ConfigLayer.ofMembers members) field :=
  given?_congr (lookup_putMember_of_ne other value members)

theorem given?_removed {field : LayerField} {key : String} (other : field.key ≠ key)
    (members : List (String × Json)) :
    given? (ConfigLayer.ofMembers (members.filter fun member => decide (member.1 ≠ key))) field =
      given? (ConfigLayer.ofMembers members) field := by
  exact given?_congr (lookup_filter_of (fun name => decide (name ≠ key)) (decide_eq_true other) members)

theorem given?_env_object {members named : List (String × Json)}
    (found : members.lookup LayerField.env.key = some (.object named)) :
    given? (ConfigLayer.ofMembers members) .env = some (EnvLayer.ofMembers named) := by
  rw [given?_ofMembers, found]
  rfl

theorem env_putMember {field : EnvField} {key : String} (other : field.key ≠ key) (value : Json)
    (named : List (String × Json)) :
    (EnvLayer.ofMembers (putMember key value named)).given? field =
      (EnvLayer.ofMembers named).given? field := by
  have written := env_ofMembers_names (putMember key value named) field
  have before := env_ofMembers_names named field
  simp only [lookup_putMember_of_ne other] at written
  exact Option.ext fun text => (written text).trans (before text).symm

/--
Any object is a layer. The layer has a field exactly if the value under its key has the right shape, and
it is then what this value holds. The keys are apart, and a field is the same wherever its key has the
same value: whatever else is written or removed, right or wrong, known or not, changes nothing in it,
and in a table of variables no variable depends on another one. A text that writes the object is the
same layer, unless it writes a known key twice.
-/
theorem fields_read_apart (members : List (String × Json)) :
    ConfigLayer.ofJson? (.object members) = some (ConfigLayer.ofMembers members) ∧
    (∀ (field : LayerField) (content : field.Content),
      given? (ConfigLayer.ofMembers members) field = some content ↔
        ∃ value, members.lookup field.key = some value ∧ field.Holds content value) ∧
    (∀ field other : LayerField, field.key = other.key → field = other) ∧
    (∀ (others : List (String × Json)) (field : LayerField),
      others.lookup field.key = members.lookup field.key →
        given? (ConfigLayer.ofMembers others) field = given? (ConfigLayer.ofMembers members) field) ∧
    (∀ (field : LayerField) (key : String), field.key ≠ key →
      (∀ value, given? (ConfigLayer.ofMembers (putMember key value members)) field =
        given? (ConfigLayer.ofMembers members) field) ∧
      given? (ConfigLayer.ofMembers (members.filter fun member => decide (member.1 ≠ key))) field =
        given? (ConfigLayer.ofMembers members) field) ∧
    (∀ named, members.lookup LayerField.env.key = some (.object named) →
      ∃ names, given? (ConfigLayer.ofMembers members) .env = some names ∧
        ∀ (field : EnvField) (key : String), field.key ≠ key → ∀ value, ∃ others,
          given? (ConfigLayer.ofMembers
            (putMember LayerField.env.key (.object (putMember key value named)) members)) .env =
              some others ∧ others.given? field = names.given? field) ∧
    ∀ text rest, Json.readFront text = .ok (.object members, rest) → isFinished rest = true →
      ∃ written, WritesMembers text written ∧ members = settleWritten written ∧
        ConfigLayer.ofText? text =
          if ((written.filter fun member => configKeys.contains member.1).map (·.1)).Nodup then
            some (ConfigLayer.ofMembers members)
          else none := by
  refine ⟨rfl, given?_iff members, fun _ _ => key_injective, fun _ _ => given?_congr, ?_, ?_, ?_⟩
  · intro field key other
    exact ⟨fun value => given?_putMember other value members, given?_removed other members⟩
  · intro named found
    refine ⟨EnvLayer.ofMembers named, given?_env_object found, fun field key other value => ?_⟩
    have written := lookup_putMember_self LayerField.env.key (.object (putMember key value named)) members
    exact ⟨_, given?_env_object written, env_putMember other value named⟩
  · intro text rest read finished
    obtain ⟨written, writes, rfl⟩ := object_of_readFront read finished
    exact ⟨written, writes, rfl, ofText?_of_writes writes⟩

def patchyFile : List (String × Json) := [
  ("path", .string "src/models"),
  ("unknownAny", .boolean false),
  ("strictIndexSignatures", .string "yes"),
  ("bannerComment", .array [.string "// generated"]),
  ("env", .object [("MONGODB_URI", .string "APP_DB_URL"), ("MONGODB_DATABASE", .null)]),
  ("author", .null)]

theorem patchyFile_read :
    ConfigLayer.ofJson? (.object patchyFile) = some (ConfigLayer.ofMembers patchyFile) ∧
      given? (ConfigLayer.ofMembers (putMember "path" (.boolean true) patchyFile)) .env =
        some ⟨some "APP_DB_URL", none⟩ ∧
      given? (ConfigLayer.ofMembers patchyFile) .strictIndex = none ∧
      given? (ConfigLayer.ofMembers patchyFile) .banner = some ["// generated"] := by
  obtain ⟨succeeds, given, _, _, apart, _⟩ := fields_read_apart patchyFile
  refine ⟨succeeds, ?_, ?_, ?_⟩
  · rw [(apart .env "path" (by decide)).1]
    rfl
  · rw [Option.eq_none_iff_forall_ne_some]
    intro flag present
    obtain ⟨value, found, holds⟩ := (given .strictIndex flag).mp present
    cases found
    cases holds
  · exact (given .banner ["// generated"]).mpr ⟨_, rfl, rfl⟩

/-- Variables that are listed are read by their places, just as those in an object by their keys. -/
theorem listedNames_read :
    given? (ConfigLayer.ofMembers [("env", .array [.string "APP_DB_URL"])]) .env =
      some ⟨some "APP_DB_URL", none⟩ :=
  rfl

end SchemaTypes
