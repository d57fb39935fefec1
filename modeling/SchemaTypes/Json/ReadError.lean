namespace SchemaTypes

inductive ReadCause where
  | unfinishedValue
  | unfinishedString
  | unfinishedList
  | unfinishedObject
  | expectedValue
  | expectedWord
  | expectedColon
  | expectedListEnd
  | expectedObjectEnd
  | expectedKey
  | trailingComma
  | invalidNumber
  | numberOutOfRange
  | invalidEscape
  | loneSurrogate
  | unfinishedSurrogatePair
  | controlCharacter
  | tooDeep
  deriving DecidableEq, Repr

def ReadCause.message : ReadCause → String
  | unfinishedValue => "EOF while parsing a value"
  | unfinishedString => "EOF while parsing a string"
  | unfinishedList => "EOF while parsing a list"
  | unfinishedObject => "EOF while parsing an object"
  | expectedValue => "expected value"
  | expectedWord => "expected ident"
  | expectedColon => "expected `:`"
  | expectedListEnd => "expected `,` or `]`"
  | expectedObjectEnd => "expected `,` or `\x7d`"
  | expectedKey => "key must be a string"
  | trailingComma => "trailing comma"
  | invalidNumber => "invalid number"
  | numberOutOfRange => "number out of range"
  | invalidEscape => "invalid escape"
  | loneSurrogate => "lone leading surrogate in hex escape"
  | unfinishedSurrogatePair => "unexpected end of hex escape"
  | controlCharacter => "control character (\\u0000-\\u001F) found while parsing a string"
  | tooDeep => "recursion limit exceeded"

/-- One step from a value to a part of it; `member none` stands for a member whose key was not read. -/
inductive ReadStep where
  | element (index : Nat)
  | member (key : Option String)
  deriving DecidableEq, Repr

structure ReadError where
  cause : ReadCause
  unread : List Char
  ahead : Nat
  path : List ReadStep
  deriving DecidableEq, Repr

namespace ReadError

def here (cause : ReadCause) (unread : List Char) : ReadError :=
  ⟨cause, unread, 0, []⟩

def past (cause : ReadCause) (unread : List Char) : ReadError :=
  ⟨cause, unread, 1, []⟩

def within (step : ReadStep) (error : ReadError) : ReadError :=
  { error with path := step :: error.path }

def byteCount (chars : List Char) : Nat :=
  chars.foldl (fun count char => count + char.utf8Size) 0

def offset (text : List Char) (error : ReadError) : Nat :=
  min (byteCount text) (byteCount text - byteCount error.unread + error.ahead)

/-- Line from one and column from zero, both after the given number of bytes. -/
def lineAndColumn (text : List Char) (offset : Nat) : Nat × Nat :=
  let before := (text.flatMap String.utf8EncodeChar).take offset
  (before.count 10 + 1, (before.reverse.takeWhile (· ≠ 10)).length)

def stepText : ReadStep → String
  | .element index => "[" ++ toString index ++ "]"
  | .member (some key) => key
  | .member none => "?"

def stepsText : List ReadStep → String
  | [] => ""
  | .element index :: steps => stepText (.element index) ++ stepsText steps
  | .member key :: steps => "." ++ stepText (.member key) ++ stepsText steps

def pathText : List ReadStep → String
  | [] => "."
  | step :: steps => stepText step ++ stepsText steps

def message (text : List Char) (error : ReadError) : String :=
  let place := lineAndColumn text (error.offset text)
  "at JSON path " ++ pathText error.path ++ " → " ++ error.cause.message ++ " at line " ++
    toString place.1 ++ " column " ++ toString place.2

end ReadError

end SchemaTypes
