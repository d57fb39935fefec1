import SchemaTypes.Files.Fault

namespace SchemaTypes

class FileReader (m : Type → Type) where
  readBytes : String → m (Except FileFault ByteArray)
  isPresent : String → m Bool
  isDirectory : String → m Bool
  entryNames : String → m (Except FileFault (List String))

class FileWriter (m : Type → Type) where
  /-- Makes a directory and those above it, unless they are there. -/
  makeDirectories : String → m (Except FileFault Unit)
  /-- Writes a whole file. -/
  writeText : String → String → m (Except FileFault Unit)
  print : String → m Unit

variable {m : Type → Type} [Monad m] [FileReader m]

def readText (path : String) : m (Except FileFault String) := do
  match ← FileReader.readBytes path with
  | .error fault => pure (.error fault)
  | .ok bytes =>
    match String.fromUTF8? bytes with
    | some text => pure (.ok text)
    | none => pure (.error .invalidText)

end SchemaTypes
