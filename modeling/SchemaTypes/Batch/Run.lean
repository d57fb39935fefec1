import SchemaTypes.Batch.Sink
import SchemaTypes.Batch.Source
import SchemaTypes.Compile

namespace SchemaTypes

structure Report where
  written : List String
  compiled : Nat
  skipped : List String
  deriving DecidableEq, Repr

namespace Report

def empty : Report := ⟨[], 0, []⟩

def skip (report : Report) (name : String) : Report :=
  { report with skipped := report.skipped ++ [name] }

def count (report : Report) (path : Option String) : Report :=
  { report with compiled := report.compiled + 1, written := report.written ++ path.toList }

end Report

def compileCollection (options : Options) (name : String) (schema : Json) :
    Except Failure (String × String) := do
  let title ← schemaTitle name schema
  match compile schema options.toLayer with
  | .ok text => pure (title, text)
  | .error malformed => throw (.malformed name malformed)

variable {m : Type → Type} [Monad m] [FileWriter m]

def runCollections (options : Options) (sink : Sink) (report : Report) :
    List Collection → m (Except Failure Report)
  | [] => pure (.ok report)
  | ⟨name, none⟩ :: collections => runCollections options sink (report.skip name) collections
  | ⟨name, some schema⟩ :: collections => do
    match compileCollection options name schema with
    | .error failure => pure (.error failure)
    | .ok (title, text) =>
      match ← sink.write title text with
      | .error failure => pure (.error failure)
      | .ok path => runCollections options sink (report.count path) collections

def runFetched (options : Options) (sink : Sink) :
    Except Failure (List Collection) → m (Except Failure Report)
  | .error failure => pure (.error failure)
  | .ok collections => runCollections options sink .empty collections

/-- A run over files. All of them are read, by what can only read, before anything is written. -/
def runFiles (reading : Type → Type) [Monad reading] [FileReader reading] [MonadLiftT reading m]
    (options : Options) (sink : Sink) (source : FileSource) : m (Except Failure Report) := do
  let fetched ← liftM (source.fetch : reading (Except Failure (List Collection)))
  runFetched options sink fetched

end SchemaTypes
