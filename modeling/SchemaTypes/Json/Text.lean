import SchemaTypes.Json.Value

namespace SchemaTypes

def hexDigits (code : Nat) : List Char :=
  [Nat.digitChar (code / 16), Nat.digitChar (code % 16)]

def escapedChar (char : Char) : List Char :=
  if char = '"' then ['\\', '"']
  else if char = '\\' then ['\\', '\\']
  else if char = '\n' then ['\\', 'n']
  else if char = '\r' then ['\\', 'r']
  else if char = '\t' then ['\\', 't']
  else if char = Char.ofNat 8 then ['\\', 'b']
  else if char = Char.ofNat 12 then ['\\', 'f']
  else if char.toNat < 32 then ['\\', 'u', '0', '0'] ++ hexDigits char.toNat
  else [char]

def quotedChars (text : List Char) : List Char :=
  '"' :: text.flatMap escapedChar ++ ['"']

def quoted (text : String) : String :=
  String.ofList (quotedChars text.toList)

namespace Json

mutual

def chars : Json → List Char
  | null => ['n', 'u', 'l', 'l']
  | boolean true => ['t', 'r', 'u', 'e']
  | boolean false => ['f', 'a', 'l', 's', 'e']
  | number value => value.chars
  | string value => quotedChars value.toList
  | array [] => ['[', ']']
  | array (element :: elements) => '[' :: chars element ++ charsOfElements elements
  | object [] => ['{', '}']
  | object ((key, value) :: members) =>
    '{' :: quotedChars key.toList ++ ':' :: chars value ++ charsOfMembers members

def charsOfElements : List Json → List Char
  | [] => [']']
  | element :: elements => ',' :: chars element ++ charsOfElements elements

def charsOfMembers : List (String × Json) → List Char
  | [] => ['}']
  | (key, value) :: members =>
    ',' :: quotedChars key.toList ++ ':' :: chars value ++ charsOfMembers members

end

def text (value : Json) : String :=
  String.ofList value.chars

end Json

end SchemaTypes
