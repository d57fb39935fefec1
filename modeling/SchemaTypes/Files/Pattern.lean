import SchemaTypes.Files.Path

/-!
File patterns. Within a name `?` is any character, `*` any characters and brackets a class of
characters; a part `**` stands for directories to any depth.
-/

namespace SchemaTypes

inductive PatternCause where
  | mixedWildcards
  | recursiveInName
  | invalidClass
  deriving DecidableEq, Repr

structure PatternFault where
  position : Nat
  cause : PatternCause
  deriving DecidableEq, Repr

def PatternCause.message : PatternCause → String
  | mixedWildcards => "wildcards are either regular `*` or recursive `**`"
  | recursiveInName => "recursive wildcards must form a single path component"
  | invalidClass => "invalid range pattern"

def PatternFault.message (fault : PatternFault) : String :=
  "Pattern syntax error near position " ++ toString fault.position ++ ": " ++ fault.cause.message

structure CharRange where
  first : Char
  last : Char
  deriving DecidableEq, Repr

inductive PatternToken where
  | char (char : Char)
  | anyChar
  | anyChars
  | anyDirectories
  | oneOf (ranges : List CharRange)
  | noneOf (ranges : List CharRange)
  deriving DecidableEq, Repr

def CharRange.contains (range : CharRange) (char : Char) : Bool :=
  range.first ≤ char && char ≤ range.last

def classRanges : List Char → List CharRange
  | first :: '-' :: last :: chars => ⟨first, last⟩ :: classRanges chars
  | char :: chars => ⟨char, char⟩ :: classRanges chars
  | [] => []

/-- A class up to its closing bracket and what follows it. The first character never closes it. -/
def classBody? : List Char → Option (List Char × List Char)
  | [] => none
  | first :: more =>
    match more.dropWhile (· ≠ ']') with
    | [] => none
    | _ :: rest => some (first :: more.takeWhile (· ≠ ']'), rest)

def classToken? : List Char → Option (PatternToken × List Char)
  | '!' :: chars => (classBody? chars).map fun body => (.noneOf (classRanges body.1), body.2)
  | chars => (classBody? chars).map fun body => (.oneOf (classRanges body.1), body.2)

/-- The text after a run of two stars, if the run is a whole part of the path. -/
def afterDirectories (position : Nat) (previous : Option Char) (rest : List Char) :
    Except PatternFault (List Char) :=
  if previous = none ∨ previous = some '/' then
    match rest with
    | [] => .ok []
    | char :: rest =>
      if char = '/' then .ok rest else .error ⟨position + 2, .recursiveInName⟩
  else .error ⟨position - 1, .recursiveInName⟩

theorem classBody?_shrinks {chars body rest : List Char} (found : classBody? chars = some (body, rest)) :
    rest.length < chars.length := by
  unfold classBody? at found
  split at found
  · cases found
  · rename_i first more
    split at found
    · cases found
    · rename_i closing tail dropped
      cases found
      have shorter := (List.dropWhile_sublist (fun char : Char => decide (char ≠ ']')) (l := more)).length_le
      rw [dropped] at shorter
      simp only [List.length_cons] at *
      omega

theorem classToken?_shrinks {chars rest : List Char} {token : PatternToken}
    (found : classToken? chars = some (token, rest)) : rest.length < chars.length := by
  unfold classToken? at found
  split at found
  · obtain ⟨⟨body, unread⟩, bodyFound, same⟩ := Option.map_eq_some_iff.1 found
    cases same
    exact Nat.lt_succ_of_lt (classBody?_shrinks bodyFound)
  · obtain ⟨⟨body, unread⟩, bodyFound, same⟩ := Option.map_eq_some_iff.1 found
    cases same
    exact classBody?_shrinks bodyFound

theorem afterDirectories_grows_not {position : Nat} {previous : Option Char} {chars rest : List Char}
    (found : afterDirectories position previous chars = .ok rest) : rest.length ≤ chars.length := by
  unfold afterDirectories at found
  split at found
  · split at found
    · cases found
      exact Nat.le_refl _
    · split at found
      · cases found
        simp
      · cases found
  · cases found

/-- The tokens of a pattern from a position on, where `previous` is the character before it. -/
def patternTokens (position : Nat) (previous : Option Char) (chars : List Char) :
    Except PatternFault (List PatternToken) :=
  match chars with
  | [] => .ok []
  | '?' :: rest => (patternTokens (position + 1) (some '?') rest).map (.anyChar :: ·)
  | '*' :: '*' :: '*' :: _ => .error ⟨position + 2, .mixedWildcards⟩
  | '*' :: '*' :: rest =>
    match following : afterDirectories position previous rest with
    | .error fault => .error fault
    | .ok next =>
      have := afterDirectories_grows_not following
      (patternTokens (position + 2 + (rest.length - next.length)) (some '/') next).map
        (.anyDirectories :: ·)
  | '*' :: rest => (patternTokens (position + 1) (some '*') rest).map (.anyChars :: ·)
  | '[' :: rest =>
    match found : classToken? rest with
    | none => .error ⟨position, .invalidClass⟩
    | some (token, next) =>
      have := classToken?_shrinks found
      (patternTokens (position + 1 + (rest.length - next.length)) (some ']') next).map (token :: ·)
  | char :: rest => (patternTokens (position + 1) (some char) rest).map (.char char :: ·)
termination_by chars.length

structure PatternPart where
  tokens : List PatternToken
  deriving DecidableEq, Repr

namespace PatternPart

def ofChars (chars : List Char) : Except PatternFault PatternPart :=
  (patternTokens 0 none chars).map PatternPart.mk

def isRecursive (part : PatternPart) : Bool :=
  part.tokens.contains .anyDirectories

def literalChar? : PatternToken → Option Char
  | .char char => some char
  | _ => none

def literal? (part : PatternPart) : Option String :=
  (part.tokens.mapM literalChar?).map String.ofList

def startsWithDot (part : PatternPart) : Bool :=
  part.tokens.head? = some (.char '.')

end PatternPart

namespace PatternToken

def isRun : PatternToken → Bool
  | anyChars => true
  | anyDirectories => true
  | _ => false

def admits (character : Char) : PatternToken → Bool
  | char expected => character = expected
  | oneOf ranges => ranges.any (·.contains character)
  | noneOf ranges => !ranges.any (·.contains character)
  | _ => true

end PatternToken

def suffixes : List Char → List (List Char)
  | [] => [[]]
  | char :: chars => (char :: chars) :: suffixes chars

def matchesTokens : List PatternToken → List Char → Bool
  | [], chars => chars.isEmpty
  | token :: tokens, chars =>
    if token.isRun then (suffixes chars).any (matchesTokens tokens)
    else
      match chars with
      | [] => false
      | char :: rest => token.admits char && matchesTokens tokens rest

def rowOfChar (token : PatternToken) : List Char → List Bool → List Bool
  | char :: chars, _ :: later =>
    (token.admits char && later.headD false) :: rowOfChar token chars later
  | _, _ => [false]

def rowOfRun : List Bool → List Bool
  | [] => []
  | here :: later =>
    let rests := rowOfRun later
    (here || rests.headD false) :: rests

def matchRow (chars : List Char) : List PatternToken → List Bool
  | [] => (suffixes chars).map List.isEmpty
  | token :: tokens =>
    let row := matchRow chars tokens
    if token.isRun then rowOfRun row else rowOfChar token chars row

theorem headD_map_suffixes (answer : List Char → Bool) (chars : List Char) :
    ((suffixes chars).map answer).headD false = answer chars := by
  cases chars <;> rfl

theorem rowOfRun_map_suffixes (answer : List Char → Bool) (chars : List Char) :
    rowOfRun ((suffixes chars).map answer) =
      (suffixes chars).map fun rest => (suffixes rest).any answer := by
  induction chars with
  | nil => simp [suffixes, rowOfRun]
  | cons char chars ih =>
    simp only [suffixes, List.map_cons, rowOfRun, ih, List.any_cons]
    rw [headD_map_suffixes]

theorem rowOfChar_map_suffixes (token : PatternToken) (tokens : List PatternToken)
    (single : token.isRun = false) (chars : List Char) :
    rowOfChar token chars ((suffixes chars).map (matchesTokens tokens)) =
      (suffixes chars).map (matchesTokens (token :: tokens)) := by
  induction chars with
  | nil => simp [suffixes, rowOfChar, matchesTokens, single]
  | cons char chars ih =>
    simp only [suffixes, List.map_cons, rowOfChar, ih, headD_map_suffixes]
    simp [matchesTokens, single]

theorem matchRow_eq (chars : List Char) (tokens : List PatternToken) :
    matchRow chars tokens = (suffixes chars).map (matchesTokens tokens) := by
  induction tokens with
  | nil =>
    simp only [matchRow]
    exact List.map_congr_left fun rest _ => by simp [matchesTokens]
  | cons token tokens ih =>
    simp only [matchRow, ih]
    cases single : token.isRun
    · simpa using rowOfChar_map_suffixes token tokens single chars
    · rw [if_pos rfl, rowOfRun_map_suffixes]
      exact List.map_congr_left fun rest _ => by simp [matchesTokens, single]

def PatternPart.admits (part : PatternPart) (name : String) : Bool :=
  (matchRow name.toList part.tokens).headD false

theorem PatternPart.admits_eq (part : PatternPart) (name : String) :
    part.admits name = matchesTokens part.tokens name.toList := by
  rw [PatternPart.admits, matchRow_eq, headD_map_suffixes]

def isPattern (path : String) : Bool :=
  path.toList.any fun char => char = '*' || char = '?' || char = '['

structure Pattern where
  fromRoot : Bool
  directoriesOnly : Bool
  parts : List PatternPart
  deriving DecidableEq, Repr

/-- What stands between slashes; a slash at the end opens no part. -/
def patternSegments (chars : List Char) : List (List Char) :=
  let segments := splitChars '/' chars
  if segments.getLast? = some [] then segments.dropLast else segments

/-- Faults of the whole text come before those of its parts. -/
def Pattern.ofText (text : String) : Except PatternFault Pattern := do
  let _ ← patternTokens 0 none text.toList
  let relative := if isAbsolute text then text.toList.drop 1 else text.toList
  let parts ← (patternSegments relative).mapM PatternPart.ofChars
  pure ⟨isAbsolute text, endsWithSlash text, parts⟩

end SchemaTypes
