import SchemaTypes.Json.Reader
import SchemaTypes.Settings.Config

namespace SchemaTypes

def optionKeys : List String :=
  ["bannerComment", "enableConstEnums", "ignoreMinAndMaxItems", "strictIndexSignatures", "unknownAny"]

def configKeys : List String :=
  optionKeys ++ ["path", "env"]

def envKeys : List String :=
  ["MONGODB_URI", "MONGODB_DATABASE"]

/-- The members of a record that may also be written as the list of its first fields. -/
def recordMembers? (keys : List String) : Json → Option (List (String × Json))
  | .object members => some members
  | .array values => if values.length ≤ keys.length then some (keys.zip values) else none
  | _ => none

def readField {Content : Type} (key : String) (read : Json → Option Content)
    (members : List (String × Json)) : Option Content :=
  (members.lookup key).bind read

namespace OptionLayer

def ofMembers (members : List (String × Json)) : OptionLayer where
  banner := readField "bannerComment" Json.strings? members
  constEnums := readField "enableConstEnums" Json.boolean? members
  ignoreBounds := readField "ignoreMinAndMaxItems" Json.boolean? members
  strictIndex := readField "strictIndexSignatures" Json.boolean? members
  unknownAny := readField "unknownAny" Json.boolean? members

end OptionLayer

def EnvLayer.ofMembers (members : List (String × Json)) : EnvLayer where
  uri := readField "MONGODB_URI" Json.string? members
  database := readField "MONGODB_DATABASE" Json.string? members

def EnvLayer.ofJson? (value : Json) : Option EnvLayer :=
  (recordMembers? envKeys value).map ofMembers

namespace ConfigLayer

def ofMembers (members : List (String × Json)) : ConfigLayer where
  options := OptionLayer.ofMembers members
  path := readField "path" Json.string? members
  env := readField "env" EnvLayer.ofJson? members

def ofJson? : Json → Option ConfigLayer
  | .object members => some (ofMembers members)
  | _ => none

end ConfigLayer

def isFinished (chars : List Char) : Bool :=
  (skipBlanks chars).isEmpty

def wholeText? {α : Type} (result : Except ReadError (α × List Char)) : Option α :=
  match result with
  | .ok (value, rest) => if isFinished rest then some value else none
  | .error _ => none

def innerReader : Reader Json :=
  Json.reader (Json.depthLimit - 1)

def knownOnce? (keys : List String) (written : List (String × Json)) :
    Option (List (String × Json)) :=
  let known := written.filter fun member => keys.contains member.1
  if (known.map (·.1)).Nodup then some known else none

def ConfigLayer.ofText? (text : String) : Option ConfigLayer :=
  match skipBlanks text.toList with
  | '{' :: rest =>
    ((wholeText? (readTable (fun _ => innerReader) rest)).bind (knownOnce? configKeys)).map ofMembers
  | _ => none

/-- The layer of a configuration file; one that cannot be used is like an empty one. -/
def ConfigLayer.ofFile (content : Option ByteArray) : ConfigLayer :=
  ((content.bind String.fromUTF8?).bind ofText?).getD .empty

end SchemaTypes
