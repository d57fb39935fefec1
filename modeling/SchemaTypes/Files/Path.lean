import SchemaTypes.Split

namespace SchemaTypes

def isAbsolute (path : String) : Bool :=
  path.toList.head? = some '/'

def endsWithSlash (path : String) : Bool :=
  path.toList.getLast? = some '/'

def pathParts (path : String) : List String :=
  ((splitChars '/' path.toList).filter fun part => !part.isEmpty).map String.ofList

/-- The parts that a path is followed by; a slash at its end asks for a directory. -/
def pathSteps (path : String) : List String :=
  if endsWithSlash path then pathParts path ++ ["."] else pathParts path

def joinPath (directory entry : String) : String :=
  if directory.isEmpty || endsWithSlash directory then directory ++ entry
  else directory ++ "/" ++ entry

def isHere (path : String) : Bool :=
  !isAbsolute path && !(pathParts path).isEmpty && (pathParts path).all (· = ".")

/-- The last part that names an entry; a path that leads upwards at its end has none. -/
def fileName? (path : String) : Option String :=
  ((pathParts path).filter (· ≠ ".")).getLast?.filter (· ≠ "..")

/-- A name without what follows its last dot, unless that dot is its first character. -/
def stemOfName (name : List Char) : List Char :=
  let stem := (name.reverse.dropWhile (· ≠ '.')).drop 1
  if stem.isEmpty then name else stem.reverse

def fileStem (path : String) : String :=
  match fileName? path with
  | some name => String.ofList (stemOfName name.toList)
  | none => path

end SchemaTypes
