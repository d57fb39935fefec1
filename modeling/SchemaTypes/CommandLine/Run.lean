import SchemaTypes.Batch.Run
import SchemaTypes.CommandLine.Invocation
import SchemaTypes.Settings.LayerText

namespace SchemaTypes

def Report.notes (report : Report) : String :=
  String.join (report.written.map fun path => "✅ wrote " ++ path ++ "\n") ++
    (if report.skipped.isEmpty then ""
      else "skipped " ++ String.intercalate ", " report.skipped ++ " (no $jsonSchema validator)\n") ++
    toString report.compiled ++ " schema(s) compiled\n"

def conclude (attempt : String) : Except Failure Report → Except String String
  | .ok report => .ok report.notes
  | .error failure => .error (attempt ++ ": " ++ failure.message)

section

variable {m : Type → Type} [Monad m] [FileReader m]

def CommonFlags.load (common : CommonFlags) (path : Option String) : m Config := do
  let content ← FileReader.readBytes (common.config.getD configFileName)
  pure (Config.ofLayers (ConfigLayer.ofFile content.toOption) (common.layer path))

end

variable {m : Type → Type} [Monad m] [FileWriter m]

/-- What a server's collections and their validators are, or why they cannot be had. -/
abbrev ServerSource (m : Type → Type) :=
  Connection → m (Except String (List Collection))

def Command.run (reading : Type → Type) [Monad reading] [FileReader reading] [MonadLiftT reading m]
    (environment : String → m (Option String)) (server : ServerSource m) :
    Command → m (Except String String)
  | generate common path _ => do
    let config ← liftM (common.load path : reading Config)
    let uri ← environment config.env.uri
    let database ← environment config.env.database
    match config.env.resolve fun name => if name = config.env.uri then uri else database with
    | .error absent => pure (.error (Failure.missingVariable absent).message)
    | .ok connection =>
      let offered ← server connection
      let result ← runFetched config.options (.directory config.path) (offered.mapError .connection)
      pure (conclude "failed to generate type definitions" result)
  | compile common inputs pointer out _ => do
    let config ← liftM (common.load none : reading Config)
    let sink := (out.map Sink.directory).getD .standardOutput
    let result ← runFiles reading config.options sink ⟨inputs, pointer⟩
    pure (conclude "failed to compile schema files" result)

def Command.isDryRun : Command → Bool
  | generate _ _ dryRun => dryRun
  | compile _ _ _ _ dryRun => dryRun

/-- A dry run only shows how the command line was understood. -/
def Invocation.run (reading : Type → Type) [Monad reading] [FileReader reading]
    [MonadLiftT reading m] (environment : String → m (Option String)) (server : ServerSource m)
    (invocation : Invocation) : m (Except String String) :=
  if invocation.command.isDryRun then pure (.ok (invocation.outline.render 0 ++ "\n"))
  else invocation.command.run reading environment server

end SchemaTypes
