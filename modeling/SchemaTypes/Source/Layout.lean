import SchemaTypes.Json.Text
import SchemaTypes.Name

namespace SchemaTypes

def indentation (depth : Nat) : String :=
  String.ofList (List.replicate (2 * depth) ' ')

/-- A name as the key of a member: bare if it is an identifier, quoted otherwise. -/
def memberKey (name : String) : String :=
  if isIdentifier name.toList then name else quoted name

def finishedLine : List Char → List Char
  | '\r' :: line => line.reverse
  | line => line.reverse

/-- The lines of a text after `line`, last character first. A line end at the end opens no line. -/
def linesFrom (line : List Char) : List Char → List (List Char)
  | [] => if line.isEmpty then [] else [line.reverse]
  | char :: chars =>
    if char = '\n' then finishedLine line :: linesFrom [] chars else linesFrom (char :: line) chars

def docLines (docs : String) : List String :=
  (linesFrom [] docs.toList).map String.ofList

def docBlock (depth : Nat) : Option String → String
  | none => ""
  | some docs =>
    let pad := indentation depth
    pad ++ "/**\n" ++ String.join ((docLines docs).map fun line => pad ++ " * " ++ line ++ "\n") ++
      pad ++ " */\n"

end SchemaTypes
