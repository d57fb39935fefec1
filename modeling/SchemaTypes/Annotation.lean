import SchemaTypes.Marker

namespace SchemaTypes

/-- The hint that a node's own members call for. -/
def hint? (members : List (String × Json)) : Option String :=
  if hasMember enumKey members then none
  else ((members.lookup markerKey).map hintText).filter fun hint => !hint.isEmpty

def addHint (hint : Option String) (members : List (String × Json)) : List (String × Json) :=
  match hint with
  | none => members
  | some hint => putMember hintKey (.string hint) members

namespace Json

mutual

def annotate : Json → Json
  | array elements => array (annotateElements elements)
  | object members => object (addHint (hint? members) (annotateMembers members))
  | value => value

def annotateElements : List Json → List Json
  | [] => []
  | element :: elements => annotate element :: annotateElements elements

def annotateMembers : List (String × Json) → List (String × Json)
  | [] => []
  | (key, value) :: members => (key, annotate value) :: annotateMembers members

end

mutual

def namesDecimal : Json → Bool
  | array elements => anyNamesDecimal elements
  | object members =>
    (members.lookup markerKey).any (namesMarker decimalMarker) || memberNamesDecimal members
  | _ => false

def anyNamesDecimal : List Json → Bool
  | [] => false
  | element :: elements => namesDecimal element || anyNamesDecimal elements

def memberNamesDecimal : List (String × Json) → Bool
  | [] => false
  | (_, value) :: members => namesDecimal value || memberNamesDecimal members

end

end Json

end SchemaTypes
