import SchemaTypes.Batch.Failure
import SchemaTypes.Files.Access
import SchemaTypes.Files.Path
import SchemaTypes.Json.Value

namespace SchemaTypes

inductive Sink where
  | directory (path : String)
  | standardOutput
  deriving DecidableEq, Repr

def schemaTitle (collection : String) (schema : Json) : Except Failure String :=
  match (schema.member? "title").bind Json.string? with
  | some title => .ok title
  | none => .error (.missingTitle collection)

/-- Not empty, no way to stay or go up, and without separators. -/
def isPlainTitle (title : String) : Bool :=
  title ≠ "" && title ≠ "." && title ≠ ".." &&
    title.toList.all fun char => char ≠ '/' && char ≠ '\\'

def titlePath (directory title : String) : String :=
  joinPath directory (title ++ ".ts")

variable {m : Type → Type} [Monad m] [FileWriter m]

def Sink.write (sink : Sink) (title text : String) : m (Except Failure (Option String)) := do
  match sink with
  | .standardOutput =>
    FileWriter.print text
    pure (.ok none)
  | .directory folder =>
    if isPlainTitle title then
      match ← FileWriter.makeDirectories folder with
      | .error fault => pure (.error (.file folder fault))
      | .ok _ =>
        let path := titlePath folder title
        match ← FileWriter.writeText path text with
        | .error fault => pure (.error (.file path fault))
        | .ok _ => pure (.ok (some path))
    else pure (.error (.unsafeTitle title))

end SchemaTypes
