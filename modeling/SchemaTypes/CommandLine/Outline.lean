import SchemaTypes.CommandLine.Unprintable

namespace SchemaTypes

inductive Outline where
  | word (text : String)
  | wrapped (name : String) (content : Outline)
  | record (name : String) (fields : List (String × Outline))
  | list (items : List Outline)
  deriving Repr

/-- A character inside quotes; one that has no shape is written by its code. -/
def outlinedChar (char : Char) : List Char :=
  if char = '"' then ['\\', '"']
  else if char = '\\' then ['\\', '\\']
  else if char = '\n' then ['\\', 'n']
  else if char = '\r' then ['\\', 'r']
  else if char = '\t' then ['\\', 't']
  else if char = Char.ofNat 0 then ['\\', '0']
  else if isUnprintable char then ['\\', 'u', '{'] ++ Nat.toDigits 16 char.toNat ++ ['}']
  else [char]

namespace Outline

def quotedText (text : String) : Outline :=
  word (String.ofList ('"' :: text.toList.flatMap outlinedChar ++ ['"']))

def boolean (value : Bool) : Outline :=
  word (if value then "true" else "false")

def optionalText : Option String → Outline
  | none => word "None"
  | some text => wrapped "Some" (quotedText text)

def margin (depth : Nat) : String :=
  String.ofList (List.replicate (4 * depth) ' ')

mutual

def render (depth : Nat) : Outline → String
  | word text => text
  | wrapped name content =>
    name ++ "(\n" ++ margin (depth + 1) ++ render (depth + 1) content ++ ",\n" ++ margin depth ++ ")"
  | record name fields =>
    name ++ " \x7b\n" ++ renderMembers (depth + 1) fields ++ margin depth ++ "\x7d"
  | list [] => "[]"
  | list items => "[\n" ++ renderItems (depth + 1) items ++ margin depth ++ "]"

def renderMembers (depth : Nat) : List (String × Outline) → String
  | [] => ""
  | (name, content) :: fields =>
    margin depth ++ name ++ ": " ++ render depth content ++ ",\n" ++ renderMembers depth fields

def renderItems (depth : Nat) : List Outline → String
  | [] => ""
  | item :: items => margin depth ++ render depth item ++ ",\n" ++ renderItems depth items

end

end Outline

end SchemaTypes
