import SchemaTypes.CommandLine.Options
import SchemaTypes.CommandLine.Outline
import SchemaTypes.Settings.Config

namespace SchemaTypes

structure CommonFlags where
  config : Option String
  ignoreBounds : Bool
  strictIndex : Bool
  noUnknownAny : Bool
  noConstEnums : Bool
  deriving DecidableEq, Repr

inductive Command where
  | generate (common : CommonFlags) (path : Option String) (dryRun : Bool)
  | compile (common : CommonFlags) (inputs : List String) (pointer out : Option String)
      (dryRun : Bool)
  deriving DecidableEq, Repr

structure Invocation where
  logLevel : String
  command : Command
  deriving DecidableEq, Repr

def helpSpec : OptionSpec := ⟨"help", some 'h', .help⟩

def logLevelSpec : OptionSpec := ⟨"log-level", none, .text⟩

def commonSpecs : List OptionSpec := [
  ⟨"config", none, .path⟩,
  ⟨"ignore-min-and-max-items", none, .flag⟩,
  ⟨"strict-index-signatures", none, .flag⟩,
  ⟨"no-unknown-any", none, .flag⟩,
  ⟨"no-const-enums", none, .flag⟩,
  ⟨"no-op", none, .flag⟩,
  logLevelSpec,
  helpSpec]

def programLevel : Level where
  specs := [logLevelSpec, helpSpec, ⟨"version", some 'V', .version⟩]
  subcommands := ["generate", "compile", "help"]

def generateLevel : Level where
  specs := ⟨"path", none, .path⟩ :: commonSpecs
  subcommands := []

def compileLevel : Level where
  specs := ⟨"input", some 'i', .texts⟩ :: ⟨"json-pointer", none, .text⟩ :: ⟨"out", some 'o', .path⟩ ::
    commonSpecs
  subcommands := []

namespace Gathering

def value? (gathering : Gathering) (name : String) : Option String :=
  (gathering.given.lookup name).bind List.head?

def values (gathering : Gathering) (name : String) : List String :=
  ((gathering.given.filter (·.1 = name)).flatMap (·.2)).reverse

def common (gathering : Gathering) : CommonFlags where
  config := gathering.value? "config"
  ignoreBounds := gathering.has "ignore-min-and-max-items"
  strictIndex := gathering.has "strict-index-signatures"
  noUnknownAny := gathering.has "no-unknown-any"
  noConstEnums := gathering.has "no-const-enums"

def generate (gathering : Gathering) : Command :=
  .generate gathering.common (gathering.value? "path") (gathering.has "no-op")

def compile (gathering : Gathering) : Except UsageStop Command :=
  if gathering.has "input" then
    .ok (.compile gathering.common (gathering.values "input") (gathering.value? "json-pointer")
      (gathering.value? "out") (gathering.has "no-op"))
  else .error (.missingOption "input")

end Gathering

/-- Help on help itself or on a subcommand, none of which has subcommands of its own. -/
def helpOn (names : List String) : UsageStop :=
  match names with
  | [] => .help
  | [name] => if name ∈ programLevel.subcommands then .help else .unknownSubcommand name
  | name :: next :: _ =>
    if name ∈ programLevel.subcommands then .unknownSubcommand next else .unknownSubcommand name

def readSubcommand (level : Level) (command : Gathering → Except UsageStop Command)
    (arguments : List String) : Except UsageStop (Gathering × Command) := do
  let (gathering, _) ← level.read .empty arguments
  let settled ← gathering.settle
  pure (settled, ← command settled)

def defaultLogLevel : String := "info"

def chooseLogLevel (program subcommand : Gathering) : String :=
  ((subcommand.value? "log-level").or (program.value? "log-level")).getD defaultLogLevel

def Invocation.ofArguments (arguments : List String) : Except UsageStop Invocation := do
  let (program, subcommand) ← programLevel.read .empty arguments
  match subcommand with
  | none =>
    let settled ← program.settle
    .error (if settled.given = [] then .helpOnNothing else .missingSubcommand)
  | some ("help", names) => .error (helpOn names)
  | some ("generate", rest) =>
    let (gathering, command) ← readSubcommand generateLevel (fun read => .ok read.generate) rest
    let settled ← program.settle
    pure ⟨chooseLogLevel settled gathering, command⟩
  | some (_, rest) =>
    let (gathering, command) ← readSubcommand compileLevel Gathering.compile rest
    let settled ← program.settle
    pure ⟨chooseLogLevel settled gathering, command⟩

/-- The flags as a layer: one that is not given changes nothing. -/
def CommonFlags.layer (common : CommonFlags) (path : Option String) : ConfigLayer where
  options := {
    banner := none
    constEnums := if common.noConstEnums then some false else none
    ignoreBounds := if common.ignoreBounds then some true else none
    strictIndex := if common.strictIndex then some true else none
    unknownAny := if common.noUnknownAny then some false else none }
  path := path
  env := none

def CommonFlags.outline (common : CommonFlags) : Outline :=
  .record "ConfigSettings" [
    ("config", .optionalText common.config),
    ("ignore_min_and_max_items", .boolean common.ignoreBounds),
    ("strict_index_signatures", .boolean common.strictIndex),
    ("no_unknown_any", .boolean common.noUnknownAny),
    ("no_const_enums", .boolean common.noConstEnums)]

def Command.outline : Command → Outline
  | generate common path dryRun =>
    .wrapped "Generate" (.record "GenerateOut" [
      ("config_settings", common.outline),
      ("path", .optionalText path),
      ("no_op", .boolean dryRun)])
  | compile common inputs pointer out dryRun =>
    .wrapped "Compile" (.record "CompileOut" [
      ("config_settings", common.outline),
      ("input", .list (inputs.map .quotedText)),
      ("json_pointer", .optionalText pointer),
      ("out", .optionalText out),
      ("no_op", .boolean dryRun)])

def Invocation.outline (invocation : Invocation) : Outline :=
  .record "CommandLineInterface" [
    ("log_level", .quotedText invocation.logLevel),
    ("cmd", invocation.command.outline)]

end SchemaTypes
