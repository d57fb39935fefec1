import SchemaTypes.CommandLine.Run
import SchemaTypes.CommandLine.Usage

namespace SchemaTypes

def faultOfError (error : IO.Error) : FileFault :=
  match error with
  | .noFileOrDirectory .. => .notFound
  | .alreadyExists .. => .alreadyExists
  | .inappropriateType .. => .notDirectory
  | error => .other (toString error)

def attempt {α : Type} (action : IO α) : IO (Except FileFault α) := do
  try
    pure (.ok (← action))
  catch error =>
    pure (.error (faultOfError error))

instance : FileReader IO where
  readBytes path := attempt do
    if ← ((← IO.currentDir) / path).isDir then
      throw (IO.userError FileFault.isDirectory.message)
    IO.FS.readBinFile path
  isPresent path := do
    let place := (← IO.currentDir) / path
    pure ((← place.pathExists) || (← attempt place.symlinkMetadata).isOk)
  isDirectory path := do
    ((← IO.currentDir) / path).isDir
  entryNames path := attempt do
    let entries ← ((← IO.currentDir) / path).readDir
    pure (entries.toList.map (·.fileName))

instance : FileWriter IO where
  makeDirectories path := attempt (IO.FS.createDirAll path)
  writeText path text := attempt (IO.FS.writeFile path text)
  print text := IO.print text

def noServer : ServerSource IO :=
  fun _ => pure (.error "no server can be reached")

end SchemaTypes

open SchemaTypes in
def main (arguments : List String) : IO UInt32 := do
  match Invocation.ofArguments arguments with
  | .error stop =>
    if stop.exitCode = 0 then IO.println stop.message else IO.eprintln stop.message
    pure stop.exitCode.toUInt32
  | .ok invocation =>
    let environment (name : String) : IO (Option String) := IO.getEnv name
    match ← (invocation.run IO environment noServer : IO (Except String String)) with
    | .ok notes =>
      IO.eprint notes
      pure 0
    | .error message =>
      IO.eprintln ("error: " ++ message)
      pure 1
