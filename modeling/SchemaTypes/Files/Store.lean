import SchemaTypes.Files.Access
import SchemaTypes.Files.Path
import SchemaTypes.Json.Members

/-!
A file system as a value: a tree of names, the contents of the files that they name, and a working
directory from which relative paths start. One file may have several names, and a name may be a symbolic
link, which is followed where a path meets it. Access rights, devices and lack of room are left out: a
path that leads to a file can be read and written.
-/

namespace SchemaTypes

abbrev Place := List String

/-- What a file is known by, whatever its names are. -/
abbrev FileId := Nat

inductive Entry where
  | file (id : FileId)
  | link (target : String)
  | directory (entries : List (String × Entry))

/-- What a name stands for, without what is below it. -/
inductive Form where
  | file (id : FileId)
  | link (target : String)
  | directory
  deriving DecidableEq, Repr

namespace Entry

def form : Entry → Form
  | file id => .file id
  | link target => .link target
  | directory _ => .directory

def entries : Entry → List (String × Entry)
  | directory entries => entries
  | _ => []

def at? : Place → Entry → Option Entry
  | [], entry => some entry
  | name :: place, entry => (entry.entries.lookup name).bind (at? place)

/-- Puts an entry at a place, in the stead of what was there. Its directory must be there. -/
def put (placed : Entry) : Place → Entry → Entry
  | [], _ => placed
  | name :: place, directory entries =>
    match entries.lookup name, place with
    | some entry, place => directory (putMember name (put placed place entry) entries)
    | none, [] => directory (putMember name placed entries)
    | none, _ :: _ => directory entries
  | _ :: _, entry => entry

mutual

/-- A number above the identities of all files at and below an entry. -/
def idBound : Entry → Nat
  | file id => id + 1
  | link _ => 0
  | directory entries => idBoundAll entries

def idBoundAll : List (String × Entry) → Nat
  | [] => 0
  | (_, entry) :: entries => max (idBound entry) (idBoundAll entries)

end

end Entry

structure Files where
  root : List (String × Entry)
  contents : FileId → ByteArray
  working : Place

def maxNameBytes : Nat := 255

/-- A path with its terminating zero byte has at most this many bytes. -/
def maxPathBytes : Nat := 4096

def maxLinks : Nat := 40

/-- Where a path leads: to a file, to a directory, or to a name that its directory does not have. -/
inductive Spot where
  | file (place : Place) (id : FileId)
  | directory (place : Place) (entries : List (String × Entry))
  | vacant (place : Place)

/-- The directories from the root to where a walk stands, the nearest first, with their names. -/
abbrev Trail := List (String × List (String × Entry))

namespace Trail

def place (trail : Trail) : Place :=
  (trail.map (·.1)).reverse

def current (root : List (String × Entry)) : Trail → List (String × Entry)
  | [] => root
  | (_, entries) :: _ => entries

def toPlace (trail : Trail) : Place → List (String × Entry) → Trail
  | name :: place, entries =>
    match entries.lookup name with
    | some (.directory inner) => toPlace ((name, inner) :: trail) place inner
    | _ => trail
  | [], _ => trail

end Trail

namespace Files

def at? (files : Files) (place : Place) : Option Entry :=
  (Entry.directory files.root).at? place

def form? (files : Files) (place : Place) : Option Form :=
  (files.at? place).map Entry.form

/-- The file that a place names. A link names none. -/
def named? (files : Files) (place : Place) : Option FileId :=
  match files.form? place with
  | some (.file id) => some id
  | _ => none

def content? (files : Files) (place : Place) : Option ByteArray :=
  (files.named? place).map files.contents

def put (files : Files) (place : Place) (entry : Entry) : Files :=
  { files with root := (Entry.put entry place (.directory files.root)).entries }

def fill (files : Files) (id : FileId) (content : ByteArray) : Files :=
  { files with contents := fun other => if other = id then content else files.contents other }

def freshId (files : Files) : FileId :=
  Entry.idBoundAll files.root

/--
Follows the parts of a path up to the first that is a symbolic link, whose target takes its place. The
last part need not be there.
-/
def walk (root : List (String × Entry)) (goOn : Trail → List String → Except FileFault Spot)
    (trail : Trail) : List String → Except FileFault Spot
  | [] => .ok (.directory trail.place (trail.current root))
  | part :: parts =>
    if part = "." then walk root goOn trail parts
    else if part = ".." then walk root goOn (trail.drop 1) parts
    else if maxNameBytes < part.utf8ByteSize then .error .nameTooLong
    else
      match (trail.current root).lookup part with
      | some (.directory entries) => walk root goOn ((part, entries) :: trail) parts
      | some (.link target) => goOn (if isAbsolute target then [] else trail) (pathSteps target ++ parts)
      | some (.file id) =>
        if parts.isEmpty then .ok (.file (trail.place ++ [part]) id) else .error .notDirectory
      | none => if parts.isEmpty then .ok (.vacant (trail.place ++ [part])) else .error .notFound

def follow (root : List (String × Entry)) : Nat → Trail → List String → Except FileFault Spot
  | 0 => walk root fun _ _ => .error .tooManyLinks
  | links + 1 => walk root (follow root links)

def start (files : Files) (path : String) : Trail :=
  if isAbsolute path then [] else Trail.toPlace [] files.working files.root

def checkPath (path : String) : Except FileFault Unit :=
  if path.toList.contains (Char.ofNat 0) then .error .nulByte
  else if path.isEmpty then .error .notFound
  else if maxPathBytes ≤ path.utf8ByteSize then .error .nameTooLong
  else .ok ()

def locate (files : Files) (path : String) : Except FileFault Spot := do
  checkPath path
  follow files.root maxLinks (files.start path) (pathSteps path)

def fileAt? (files : Files) (path : String) : Option FileId :=
  match files.locate path with
  | .ok (.file _ id) => some id
  | _ => none

def isDirectory (files : Files) (path : String) : Bool :=
  match files.locate path with
  | .ok (.directory _ _) => true
  | _ => false

def readBytes (files : Files) (path : String) : Except FileFault ByteArray := do
  match ← files.locate path with
  | .file _ id => .ok (files.contents id)
  | .directory _ _ => .error .isDirectory
  | .vacant _ => .error .notFound

def entryNames (files : Files) (path : String) : Except FileFault (List String) := do
  match ← files.locate path with
  | .file _ _ => .error .notDirectory
  | .directory _ entries => .ok (entries.map (·.1))
  | .vacant _ => .error .notFound

/-- Writes the file that a path leads to, a new one where there is none. -/
def writeBytes (files : Files) (path : String) (content : ByteArray) : Except FileFault Files := do
  match ← files.locate path with
  | .file _ id => .ok (files.fill id content)
  | .directory _ _ => .error .isDirectory
  | .vacant place => .ok ((files.put place (.file files.freshId)).fill files.freshId content)

def directoryOf (files : Files) (trail : Trail) (parts : List String) :
    Except FileFault (Place × List (String × Entry)) := do
  match ← follow files.root maxLinks trail parts.dropLast with
  | .file _ _ => .error .notDirectory
  | .directory place entries => .ok (place, entries)
  | .vacant _ => .error .notFound

def namesLink (files : Files) (path : String) : Bool :=
  match checkPath path, files.directoryOf (files.start path) (pathSteps path),
    (pathSteps path).getLast? with
  | .ok _, .ok (_, entries), some name =>
    match entries.lookup name with
    | some (.link _) => true
    | _ => false
  | _, _, _ => false

def isPresent (files : Files) (path : String) : Bool :=
  match files.locate path with
  | .ok (.vacant _) | .error _ => files.namesLink path
  | .ok _ => true

/-- Makes one directory at the end of some parts, where no name may be, not even that of a link. -/
def makeDirectory (files : Files) (trail : Trail) (parts : List String) : Except FileFault Files := do
  match parts.getLast? with
  | none => .error .alreadyExists
  | some name =>
    let (place, entries) ← files.directoryOf trail parts
    if name = "." ∨ name = ".." then .error .alreadyExists
    else if maxNameBytes < name.utf8ByteSize then .error .nameTooLong
    else if hasMember name entries then .error .alreadyExists
    else .ok (files.put (place ++ [name]) (.directory []))

def leadsToDirectory (files : Files) (trail : Trail) (parts : List String) : Bool :=
  match follow files.root maxLinks trail parts with
  | .ok (.directory _ _) => true
  | _ => false

/-- A directory that is there already is as good as one that was made. -/
def settleDirectory (files : Files) (path : String) (parts : List String) (fault : FileFault) :
    Except FileFault Unit :=
  if files.leadsToDirectory (files.start path) parts then .ok () else .error fault

def ensureDirectory (files : Files) (path : String) (parts : List String) :
    Files × Except FileFault Unit :=
  match files.makeDirectory (files.start path) parts with
  | .ok made => (made, .ok ())
  | .error fault => (files, files.settleDirectory path parts fault)

/-- Ensures a directory, and those above it first where they are missing; `above` has the nearest first. -/
def ensureWithParents (files : Files) (path : String) (parts : List String) :
    List (List String) → Files × Except FileFault Unit
  | [] => files.ensureDirectory path parts
  | parent :: above =>
    match files.makeDirectory (files.start path) parts with
    | .error .notFound =>
      match ensureWithParents files path parent above with
      | (made, .error fault) => (made, .error fault)
      | (made, .ok _) => made.ensureDirectory path parts
    | _ => files.ensureDirectory path parts

def properPrefixes : List String → List (List String)
  | parts => ((List.range parts.length).drop 1).reverse.map parts.take

def makeDirectories (files : Files) (path : String) : Files × Except FileFault Unit :=
  if path.isEmpty then (files, .ok ())
  else
    match checkPath path with
    | .error fault => (files, .error fault)
    | .ok _ =>
      let parts := pathParts path
      files.ensureWithParents path parts (properPrefixes (parts.filter (· ≠ ".")))

end Files

structure Session where
  files : Files
  printed : String

instance : FileReader (ReaderM Files) where
  readBytes path := fun files => files.readBytes path
  isPresent path := fun files => files.isPresent path
  isDirectory path := fun files => files.isDirectory path
  entryNames path := fun files => files.entryNames path

instance : MonadLift (ReaderM Files) (StateM Session) where
  monadLift read := fun session => (read session.files, session)

instance : FileWriter (StateM Session) where
  makeDirectories path := fun session =>
    let made := session.files.makeDirectories path
    (made.2, { session with files := made.1 })
  writeText path text := fun session =>
    match session.files.writeBytes path text.toUTF8 with
    | .ok files => (.ok (), { session with files := files })
    | .error fault => (.error fault, session)
  print text := fun session => ((), { session with printed := session.printed ++ text })

end SchemaTypes
