namespace SchemaTypes

def isIdentifierStart (char : Char) : Bool :=
  char.isAlpha || char = '_' || char = '$'

def isIdentifierChar (char : Char) : Bool :=
  char.isAlphanum || char = '_' || char = '$'

def isIdentifier : List Char → Bool
  | [] => false
  | first :: rest => isIdentifierStart first && rest.all isIdentifierChar

/-- Keeps identifier characters and raises the first of each run of them. -/
def joinWords (insideWord : Bool) : List Char → List Char
  | [] => []
  | char :: chars =>
    if isIdentifierChar char then
      (if insideWord then char else char.toUpper) :: joinWords true chars
    else joinWords false chars

def guardDigit : List Char → List Char
  | [] => []
  | char :: chars => if char.isDigit then '_' :: char :: chars else char :: chars

def safeChars (raw : List Char) : List Char :=
  guardDigit (joinWords false raw)

/-- The identifier in free text, empty when the text holds no identifier character. -/
def safeName (raw : String) : String :=
  String.ofList (safeChars raw.toList)

/--
The first name that is not taken, among a base with the numbers from `number` on. Each try rules out a
taken name, so as many tries as names are taken are enough.
-/
def numberFrom (base : String) (taken : List String) (number : Nat) : Nat → String
  | 0 => base ++ Nat.repr number
  | tries + 1 =>
    let name := base ++ Nat.repr number
    if name ∈ taken then numberFrom base (taken.erase name) (number + 1) tries else name

/-- The base itself if it is free, or else with the first number that makes it free. -/
def freshName (base : String) (taken : List String) : String :=
  if base ∈ taken then numberFrom base (taken.erase base) 1 taken.length else base

end SchemaTypes
