import Mathlib.Data.List.Basic
import SchemaTypes.CommandLine.Run
import SchemaTypes.Files.Store
import SchemaTypes.Proofs.LayerFields

/-!
Configurations in layers, leaf by leaf. Merging replaces exactly the leaves that a layer gives, so after
any sequence of layers each leaf has the value of the last layer that gives it, and any two layers that
follow one another are one composed layer.
-/

namespace SchemaTypes

/-- The leaves of a configuration. A layer may give each of them on its own. -/
inductive Leaf where
  | banner
  | constEnums
  | ignoreBounds
  | strictIndex
  | unknownAny
  | path
  | uri
  | database
  deriving DecidableEq, Repr

namespace Leaf

abbrev Content : Leaf → Type
  | banner => List String
  | constEnums => Bool
  | ignoreBounds => Bool
  | strictIndex => Bool
  | unknownAny => Bool
  | path => String
  | uri => String
  | database => String

def read (config : Config) : (leaf : Leaf) → leaf.Content
  | banner => config.options.banner
  | constEnums => config.options.flags.constEnums
  | ignoreBounds => config.options.flags.ignoreBounds
  | strictIndex => config.options.flags.strictIndex
  | unknownAny => config.options.flags.unknownAny
  | path => config.path
  | uri => config.env.uri
  | database => config.env.database

/-- What a layer gives for a leaf. The names of variables are given one by one. -/
def given? (layer : ConfigLayer) : (leaf : Leaf) → Option leaf.Content
  | banner => layer.options.banner
  | constEnums => layer.options.constEnums
  | ignoreBounds => layer.options.ignoreBounds
  | strictIndex => layer.options.strictIndex
  | unknownAny => layer.options.unknownAny
  | path => layer.path
  | uri => layer.env.bind (·.uri)
  | database => layer.env.bind (·.database)

def all : List Leaf :=
  [banner, constEnums, ignoreBounds, strictIndex, unknownAny, path, uri, database]

theorem mem_all (leaf : Leaf) : leaf ∈ all := by
  cases leaf <;> simp [all]

def lastGiven? (leaf : Leaf) (layers : List ConfigLayer) : Option leaf.Content :=
  (layers.filterMap (given? · leaf)).getLast?

/-- What a flag of the command line, or the directory given with it, stands for. -/
def flagged? (common : CommonFlags) (directory : Option String) : (leaf : Leaf) → Option leaf.Content
  | constEnums => if common.noConstEnums then some false else none
  | ignoreBounds => if common.ignoreBounds then some true else none
  | strictIndex => if common.strictIndex then some true else none
  | unknownAny => if common.noUnknownAny then some false else none
  | path => directory
  | banner => none
  | uri => none
  | database => none

def WrittenIn (members : List (String × Json)) : (leaf : Leaf) → leaf.Content → Prop
  | banner, lines => LayerField.banner.IsWritten members lines
  | constEnums, flag => LayerField.constEnums.IsWritten members flag
  | ignoreBounds, flag => LayerField.ignoreBounds.IsWritten members flag
  | strictIndex, flag => LayerField.strictIndex.IsWritten members flag
  | unknownAny, flag => LayerField.unknownAny.IsWritten members flag
  | path, text => LayerField.path.IsWritten members text
  | uri, name => ∃ names, LayerField.env.IsWritten members names ∧ names.uri = some name
  | database, name => ∃ names, LayerField.env.IsWritten members names ∧ names.database = some name

end Leaf

open Leaf

theorem config_ext {config other : Config} (same : ∀ leaf, read config leaf = read other leaf) :
    config = other := by
  obtain ⟨⟨banner, constEnums, ignoreBounds, strictIndex, unknownAny⟩, path, uri, database⟩ := config
  obtain ⟨⟨banner', constEnums', ignoreBounds', strictIndex', unknownAny'⟩, path', uri', database'⟩ :=
    other
  obtain rfl : banner = banner' := same .banner
  obtain rfl : constEnums = constEnums' := same .constEnums
  obtain rfl : ignoreBounds = ignoreBounds' := same .ignoreBounds
  obtain rfl : strictIndex = strictIndex' := same .strictIndex
  obtain rfl : unknownAny = unknownAny' := same .unknownAny
  obtain rfl : path = path' := same .path
  obtain rfl : uri = uri' := same .uri
  obtain rfl : database = database' := same .database
  rfl

theorem read_merge (config : Config) (layer : ConfigLayer) (leaf : Leaf) :
    read (config.merge layer) leaf = (given? layer leaf).getD (read config leaf) := by
  obtain ⟨options, path, env⟩ := layer
  cases leaf with
  | uri => cases env <;> rfl
  | database => cases env <;> rfl
  | _ => rfl

theorem read_foldl_merge (config : Config) (layers : List ConfigLayer) (leaf : Leaf) :
    read (layers.foldl Config.merge config) leaf =
      (leaf.lastGiven? layers).getD (read config leaf) := by
  induction layers generalizing config with
  | nil => rfl
  | cons layer layers ih =>
    rw [List.foldl_cons, ih, read_merge]
    cases here : given? layer leaf with
    | none => simp [lastGiven?, here]
    | some content =>
      simp only [lastGiven?, List.filterMap_cons, here, List.getLast?_cons, Option.getD_some]

/-- A layer that gives no leaf; it may still hold a table of variables that names none. -/
def ConfigLayer.isBlank (layer : ConfigLayer) : Bool :=
  Leaf.all.all fun leaf => (given? layer leaf).isNone

theorem given?_of_isBlank {layer : ConfigLayer} (blank : layer.isBlank = true) (leaf : Leaf) :
    given? layer leaf = none := by
  have absent := List.all_eq_true.mp blank leaf leaf.mem_all
  exact Option.isNone_iff_eq_none.mp absent

theorem merge_of_isBlank {layer : ConfigLayer} (blank : layer.isBlank = true) (config : Config) :
    config.merge layer = config := by
  apply config_ext
  intro leaf
  rw [read_merge, given?_of_isBlank blank, Option.getD_none]

theorem foldl_merge_filter (config : Config) (layers : List ConfigLayer) :
    (layers.filter fun layer => !layer.isBlank).foldl Config.merge config =
      layers.foldl Config.merge config := by
  induction layers generalizing config with
  | nil => rfl
  | cons layer layers ih =>
    cases blank : layer.isBlank with
    | true => simp [blank, merge_of_isBlank blank, ih]
    | false => simp [blank, ih]

def OptionLayer.followedBy (first second : OptionLayer) : OptionLayer where
  banner := second.banner.or first.banner
  constEnums := second.constEnums.or first.constEnums
  ignoreBounds := second.ignoreBounds.or first.ignoreBounds
  strictIndex := second.strictIndex.or first.strictIndex
  unknownAny := second.unknownAny.or first.unknownAny

def EnvLayer.followedBy (first second : EnvLayer) : EnvLayer where
  uri := second.uri.or first.uri
  database := second.database.or first.database

def ConfigLayer.followedBy (first second : ConfigLayer) : ConfigLayer where
  options := first.options.followedBy second.options
  path := second.path.or first.path
  env := Option.merge EnvLayer.followedBy first.env second.env

theorem given?_followedBy (first second : ConfigLayer) (leaf : Leaf) :
    given? (first.followedBy second) leaf = (given? second leaf).or (given? first leaf) := by
  obtain ⟨options, path, env⟩ := first
  obtain ⟨options', path', env'⟩ := second
  cases leaf with
  | uri => cases env <;> cases env' <;> simp [given?, ConfigLayer.followedBy, EnvLayer.followedBy]
  | database => cases env <;> cases env' <;> simp [given?, ConfigLayer.followedBy, EnvLayer.followedBy]
  | _ => rfl

theorem merge_followedBy (config : Config) (first second : ConfigLayer) :
    config.merge (first.followedBy second) = (config.merge first).merge second := by
  apply config_ext
  intro leaf
  rw [read_merge, read_merge, read_merge, given?_followedBy]
  cases given? second leaf <;> rfl

theorem followedBy_assoc (first second third : ConfigLayer) :
    (first.followedBy second).followedBy third = first.followedBy (second.followedBy third) := by
  obtain ⟨options, path, env⟩ := first
  obtain ⟨options', path', env'⟩ := second
  obtain ⟨options'', path'', env''⟩ := third
  have table : ∀ first second third : EnvLayer,
      (first.followedBy second).followedBy third = first.followedBy (second.followedBy third) := by
    intro first second third
    simp [EnvLayer.followedBy, Option.or_assoc]
  cases env <;> cases env' <;> cases env'' <;>
    simp [ConfigLayer.followedBy, OptionLayer.followedBy, Option.or_assoc, table]

theorem foldl_merge_eq (config : Config) (layers : List ConfigLayer) :
    layers.foldl Config.merge config =
      config.merge (layers.foldl ConfigLayer.followedBy .empty) := by
  have general : ∀ (front : ConfigLayer),
      layers.foldl Config.merge (config.merge front) =
        config.merge (layers.foldl ConfigLayer.followedBy front) := by
    induction layers with
    | nil => exact fun front => rfl
    | cons layer layers ih =>
      intro front
      rw [List.foldl_cons, List.foldl_cons, ← merge_followedBy, ih]
  have blank : ConfigLayer.isBlank .empty = true := rfl
  rw [← general, merge_of_isBlank blank]

def CommonFlags.fileConfig (common : CommonFlags) (files : Files) : Config :=
  Config.standard.merge
    (ConfigLayer.ofFile (files.readBytes (common.config.getD configFileName)).toOption)

/-- The text of a command line's configuration file is an object with these members. -/
def CommonFlags.Finds (common : CommonFlags) (files : Files) (written : List (String × Json)) : Prop :=
  ∃ bytes text, files.readBytes (common.config.getD configFileName) = .ok bytes ∧
    String.fromUTF8? bytes = some text ∧ WritesMembers text written ∧ WritesKnownOnce written

theorem given?_ofMembers_iff (members : List (String × Json)) (leaf : Leaf) (content : leaf.Content) :
    given? (ConfigLayer.ofMembers members) leaf = some content ↔ leaf.WrittenIn members content := by
  have named (names : EnvLayer) := given?_iff members .env names
  cases leaf with
  | banner => exact given?_iff members .banner content
  | constEnums => exact given?_iff members .constEnums content
  | ignoreBounds => exact given?_iff members .ignoreBounds content
  | strictIndex => exact given?_iff members .strictIndex content
  | unknownAny => exact given?_iff members .unknownAny content
  | path => exact given?_iff members .path content
  | uri => exact Option.bind_eq_some_iff.trans (exists_congr fun names => and_congr_left' (named names))
  | database =>
    exact Option.bind_eq_some_iff.trans (exists_congr fun names => and_congr_left' (named names))

theorem CommonFlags.Finds.ofFile {common : CommonFlags} {files : Files}
    {written : List (String × Json)} (finds : common.Finds files written) :
    common.fileConfig files = Config.standard.merge (ConfigLayer.ofMembers (settleWritten written)) := by
  obtain ⟨bytes, text, stored, decoded, writes, once⟩ := finds
  have accepted := ofText?_eq_some.mpr ⟨written, writes, once, rfl⟩
  simp [fileConfig, ConfigLayer.ofFile, stored, Except.toOption, decoded, accepted]

theorem fileConfig_of_finds_none {common : CommonFlags} {files : Files}
    (none : ∀ written, ¬common.Finds files written) : common.fileConfig files = .standard := by
  have unusable : ((files.readBytes (common.config.getD configFileName)).toOption.bind
      String.fromUTF8?).bind ConfigLayer.ofText? = .none := by
    rw [Option.eq_none_iff_forall_ne_some]
    intro layer accepted
    obtain ⟨text, found, accepted⟩ := Option.bind_eq_some_iff.mp accepted
    obtain ⟨bytes, stored, decoded⟩ := Option.bind_eq_some_iff.mp found
    obtain ⟨written, writes, once, _⟩ := ofText?_eq_some.mp accepted
    cases read : files.readBytes (common.config.getD configFileName) with
    | error fault =>
      rw [read] at stored
      cases stored
    | ok content =>
      rw [read] at stored
      cases stored
      exact none written ⟨bytes, text, read, decoded, writes, once⟩
  have blank : ConfigLayer.isBlank .empty = true := rfl
  rw [CommonFlags.fileConfig, ConfigLayer.ofFile, unusable, Option.getD_none, merge_of_isBlank blank]

/-- A configuration file decides the leaves that are written in it and no others. -/
theorem read_fileConfig {common : CommonFlags} {files : Files} {written : List (String × Json)}
    (finds : common.Finds files written) (leaf : Leaf) :
    (∀ content, leaf.WrittenIn (settleWritten written) content →
        read (common.fileConfig files) leaf = content) ∧
      ((¬∃ content, leaf.WrittenIn (settleWritten written) content) →
        read (common.fileConfig files) leaf = read .standard leaf) := by
  simp only [← given?_ofMembers_iff, finds.ofFile, read_merge]
  constructor
  · intro content given
    rw [given, Option.getD_some]
  · intro absent
    rw [Option.eq_none_iff_forall_ne_some.mpr (not_exists.mp absent), Option.getD_none]

theorem given?_layer (common : CommonFlags) (directory : Option String) (leaf : Leaf) :
    given? (common.layer directory) leaf = flagged? common directory leaf := by
  cases leaf <;> rfl

theorem load_eq (common : CommonFlags) (directory : Option String) (files : Files) :
    (common.load directory : ReaderM Files Config).run files =
      (common.fileConfig files).merge (common.layer directory) :=
  rfl

theorem read_load (common : CommonFlags) (directory : Option String) (files : Files) (leaf : Leaf) :
    read ((common.load directory : ReaderM Files Config).run files) leaf =
      (flagged? common directory leaf).getD (read (common.fileConfig files) leaf) := by
  rw [load_eq, read_merge, given?_layer]

/--
In any sequence of layers the last one that gives a leaf decides it. Layers that give nothing may stand
anywhere, layers that follow one another are one, and options taken as a layer are those options. So a
flag of the command line decides its leaf, and one that is not given leaves the file's: the content that
is written in the file, or the default where none is and where the file is no object.
-/
theorem last_layer_decides :
    (∀ layers leaf, read (layers.foldl Config.merge .standard) leaf =
      (leaf.lastGiven? layers).getD (read .standard leaf)) ∧
    (∀ config (layers : List ConfigLayer),
      (layers.filter fun layer => !layer.isBlank).foldl Config.merge config =
        layers.foldl Config.merge config) ∧
    (∀ (config : Config) first second,
      (config.merge first).merge second = config.merge (first.followedBy second)) ∧
    (∀ first second third : ConfigLayer,
      (first.followedBy second).followedBy third = first.followedBy (second.followedBy third)) ∧
    (∀ options : Options, Options.standard.merge options.toLayer = options) ∧
    (∀ (common : CommonFlags) directory files leaf,
      read ((common.load directory : ReaderM Files Config).run files) leaf =
        (flagged? common directory leaf).getD (read (common.fileConfig files) leaf)) ∧
    (∀ (common : CommonFlags) files written, common.Finds files written → ∀ leaf : Leaf,
      (∀ content, leaf.WrittenIn (settleWritten written) content →
          read (common.fileConfig files) leaf = content) ∧
        ((¬∃ content, leaf.WrittenIn (settleWritten written) content) →
          read (common.fileConfig files) leaf = read .standard leaf)) ∧
    ∀ (common : CommonFlags) files, (∀ written, ¬common.Finds files written) →
      common.fileConfig files = .standard :=
  ⟨read_foldl_merge .standard, foldl_merge_filter,
    fun config first second => (merge_followedBy config first second).symm, followedBy_assoc,
    Options.merge_toLayer .standard, read_load, fun _ _ _ => read_fileConfig,
    fun _ _ => fileConfig_of_finds_none⟩

example :
    ([⟨.empty, none, some ⟨some "A", none⟩⟩, .empty, ⟨.empty, none, some ⟨none, some "B"⟩⟩].foldl
      Config.merge .standard).env = ⟨"A", "B"⟩ :=
  rfl

def projectText : String :=
  "\x7b\"path\": \"models\", \"strictIndexSignatures\": false, \"env\": [\"APP_DB_URL\"]\x7d"

def project : Files := ⟨[(configFileName, .file 0)], fun _ => projectText.toUTF8, []⟩

def projectMembers : List (String × Json) := [
  ("path", .string "models"),
  ("strictIndexSignatures", .boolean false),
  ("env", .array [.string "APP_DB_URL"])]

def strictFlags : CommonFlags := ⟨none, false, true, false, false⟩

theorem project_found : strictFlags.Finds project projectMembers := by
  have table : readTable (fun _ => innerReader) projectText.toList.tail = .ok (projectMembers, []) := by
    decide +kernel
  have opened : skipBlanks projectText.toList = '{' :: projectText.toList.tail := by decide +kernel
  have decoded : String.fromUTF8? projectText.toUTF8 = some projectText := by decide +kernel
  have once : WritesKnownOnce projectMembers := by
    unfold WritesKnownOnce
    decide
  exact ⟨_, projectText, rfl, decoded, ⟨_, [], opened, table, rfl⟩, once⟩

theorem project_loaded :
    strictFlags.Finds project projectMembers ∧
      let config := (strictFlags.load none : ReaderM Files Config).run project
      read config .strictIndex = true ∧ read config .path = "models" ∧
        read config .uri = "APP_DB_URL" ∧ read config .database = "MONGODB_DATABASE" := by
  obtain ⟨_, _, _, _, _, loaded, found, _⟩ := last_layer_decides
  have settled : settleWritten projectMembers = projectMembers := (settleWritten_eq _).trans rfl
  have given := found strictFlags project projectMembers project_found
  rw [settled] at given
  have written := given?_ofMembers_iff projectMembers
  refine ⟨project_found, loaded strictFlags none project .strictIndex, ?_, ?_, ?_⟩
  · rw [loaded]
    exact (given .path).1 "models" ((written .path "models").mp rfl)
  · rw [loaded]
    exact (given .uri).1 "APP_DB_URL" ((written .uri "APP_DB_URL").mp rfl)
  · rw [loaded]
    refine (given .database).2 fun ⟨name, named⟩ => ?_
    cases (written .database name).mpr named

end SchemaTypes
