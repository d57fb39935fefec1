import SchemaTypes.Batch.Failure
import SchemaTypes.Files.Matching
import SchemaTypes.Json.Reader
import SchemaTypes.Pointer

namespace SchemaTypes

structure Collection where
  name : String
  schema : Option Json
  deriving DecidableEq

structure FileSource where
  patterns : List String
  pointer : Option String
  deriving DecidableEq, Repr

/-- The schema in a document. A pointer that leads nowhere selects none. -/
def selectSchema (pointer : Option String) (document : Json) : Option Json :=
  match pointer with
  | none => some document
  | some text => (Pointer.ofText? text).bind (Json.select? · document)

def firstFault (found : Matches) : Except Failure (List String) :=
  found.mapM (Except.mapError fun listing => .file listing.path listing.fault)

/-- Each level of a pattern lengthens the path by a byte at least. -/
def patternLevels : Nat := 4096

variable {m : Type → Type} [Monad m] [FileReader m]

def resolvePattern (text : String) : m (Except Failure (List String)) := do
  if isPattern text then
    match Pattern.ofText text with
    | .error fault => pure (.error (.badPattern fault))
    | .ok pattern =>
      match firstFault (← pattern.matching patternLevels) with
      | .error failure => pure (.error failure)
      | .ok [] => pure (.error (.noMatch text))
      | .ok paths => pure (.ok paths)
  else pure (.ok [text])

def resolvePatterns : List String → m (Except Failure (List String))
  | [] => pure (.ok [])
  | text :: texts => do
    match ← resolvePattern text with
    | .error failure => pure (.error failure)
    | .ok paths =>
      match ← resolvePatterns texts with
      | .error failure => pure (.error failure)
      | .ok others => pure (.ok (paths ++ others))

def readCollection (pointer : Option String) (path : String) : m (Except Failure Collection) := do
  match ← readText path with
  | .error fault => pure (.error (.file path fault))
  | .ok text =>
    match Json.readDocument text with
    | .error error => pure (.error (.unreadable path (error.message text.toList)))
    | .ok document => pure (.ok ⟨fileStem path, selectSchema pointer document⟩)

def readCollections (pointer : Option String) : List String → m (Except Failure (List Collection))
  | [] => pure (.ok [])
  | path :: paths => do
    match ← readCollection pointer path with
    | .error failure => pure (.error failure)
    | .ok collection =>
      match ← readCollections pointer paths with
      | .error failure => pure (.error failure)
      | .ok others => pure (.ok (collection :: others))

/-- All collections, or the first failure; paths are resolved before any file is read. -/
def FileSource.fetch (source : FileSource) : m (Except Failure (List Collection)) := do
  match ← resolvePatterns source.patterns with
  | .error failure => pure (.error failure)
  | .ok paths => readCollections source.pointer paths

end SchemaTypes
