import SchemaTypes.Files.Access
import SchemaTypes.Files.Pattern

namespace SchemaTypes

structure ListingFault where
  path : String
  fault : FileFault
  deriving DecidableEq, Repr

abbrev Matches := List (Except ListingFault String)

section

variable {m : Type → Type} [Monad m] [FileReader m]

def collect {α : Type} (matchesOf : α → m Matches) : List α → m Matches
  | [] => pure []
  | item :: items => do
    let first ← matchesOf item
    let others ← collect matchesOf items
    pure (first ++ others)

def finish (directoriesOnly : Bool) (path : String) : m Matches := do
  if directoriesOnly then
    if ← FileReader.isDirectory path then pure [.ok path] else pure []
  else pure [.ok path]

def entryPath (directory name : String) : String :=
  if isHere directory then name else joinPath directory name

def collapseRecursive : List PatternPart → List PatternPart
  | part :: next :: parts =>
    if part.isRecursive && next.isRecursive then collapseRecursive (next :: parts)
    else part :: next :: parts
  | parts => parts

/-- The part of a name that a literal part leads to is there, or is a way to stay or go up. -/
def literalPresent (directory name path : String) : m Bool :=
  if name = "." ∨ name = ".." then FileReader.isDirectory directory else FileReader.isPresent path

/--
The paths below a directory that match some parts. Each level makes the path longer, so as many
levels as a path has bytes are enough.
-/
def matchesBelow (directoriesOnly : Bool) : Nat → List PatternPart → String → m Matches
  | 0, _, _ => pure []
  | _, [], _ => pure []
  | levels + 1, part :: parts, directory =>
    let continueAt path rest :=
      match rest with
      | [] => finish directoriesOnly path
      | rest => matchesBelow directoriesOnly levels rest path
    let named part rest name path :=
      if PatternPart.admits part name then continueAt path rest else pure []
    let child name := do
      let path := entryPath directory name
      if part.isRecursive then
        let parts := collapseRecursive (part :: parts)
        if ← FileReader.isDirectory path then
          let own ←
            match parts.drop 1 with
            | [] => pure [.ok path]
            | next :: rest => named next rest name path
          let below ← matchesBelow directoriesOnly levels parts path
          pure (own ++ below)
        else
          match parts.drop 1 with
          | [] => pure []
          | next :: rest => named next rest name path
      else named part parts name path
    match part.literal? with
    | some name => do
      let path := entryPath directory name
      if ← literalPresent directory name path then continueAt path parts else pure []
    | none => do
      if ← FileReader.isDirectory directory then
        match ← FileReader.entryNames directory with
        | .error fault => pure [.error ⟨directory, fault⟩]
        | .ok names =>
          let dots := if part.startsWithDot then ["..", "."].filter part.admits else []
          let special ← collect (fun name => continueAt (joinPath directory name) parts) dots
          let ordinary ← collect child (names.mergeSort fun left right => left ≤ right)
          pure (special ++ ordinary)
      else pure []

def Pattern.matching (pattern : Pattern) (levels : Nat) : m Matches :=
  matchesBelow pattern.directoriesOnly levels pattern.parts (if pattern.fromRoot then "/" else ".")

end

end SchemaTypes
