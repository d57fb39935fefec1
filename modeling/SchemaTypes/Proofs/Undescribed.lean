import SchemaTypes.Annotation
import SchemaTypes.Proofs.Documentation
import SchemaTypes.Proofs.SchemaNodes

namespace SchemaTypes

namespace Json

def blankText : Json → Json
  | string _ => string ""
  | value => value

mutual

def undescribed : Json → Json
  | array elements => array (undescribedElements elements)
  | object members => object (undescribedMembers members)
  | value => value

def undescribedElements : List Json → List Json
  | [] => []
  | element :: elements => undescribed element :: undescribedElements elements

def undescribedMembers : List (String × Json) → List (String × Json)
  | [] => []
  | (key, value) :: members =>
    (key,
      if key = "enum" ∨ key = "const" then value
      else if key = "description" then value.blankText
      else if key = "properties" then undescribedTable value
      else undescribed value) :: undescribedMembers members

/-- The value of `properties`, whose own members are schemas by name. -/
def undescribedTable : Json → Json
  | array elements => array (undescribedElements elements)
  | object named => object (undescribedNamed named)
  | value => value

def undescribedNamed : List (String × Json) → List (String × Json)
  | [] => []
  | (name, value) :: named => (name, undescribed value) :: undescribedNamed named

end

def undescribedMember (key : String) (value : Json) : Json :=
  if key = "enum" ∨ key = "const" then value
  else if key = "description" then value.blankText
  else if key = "properties" then value.undescribedTable
  else value.undescribed

theorem undescribedElements_eq (elements : List Json) :
    undescribedElements elements = elements.map undescribed := by
  induction elements with
  | nil => rfl
  | cons element elements ih => rw [undescribedElements, ih, List.map_cons]

theorem undescribedMembers_eq (members : List (String × Json)) :
    undescribedMembers members =
      members.map fun member => (member.1, undescribedMember member.1 member.2) := by
  induction members with
  | nil => rfl
  | cons member members ih =>
    rw [undescribedMembers, ih, List.map_cons]
    rfl

theorem undescribedNamed_eq (named : List (String × Json)) :
    undescribedNamed named = named.map fun member => (member.1, member.2.undescribed) := by
  induction named with
  | nil => rfl
  | cons member named ih => rw [undescribedNamed, ih, List.map_cons]

theorem lookup_undescribedMembers (key : String) (members : List (String × Json)) :
    (undescribedMembers members).lookup key = (members.lookup key).map (undescribedMember key) := by
  rw [undescribedMembers_eq, lookup_map_member undescribedMember]

theorem lookup_undescribedNamed (key : String) (named : List (String × Json)) :
    (undescribedNamed named).lookup key = (named.lookup key).map undescribed := by
  rw [undescribedNamed_eq, lookup_map_member fun _ => undescribed]

/-- Keywords of other meanings hold values whose parts may be nodes. -/
theorem undescribedMember_eq {key : String} (value : Json)
    (other : key ∉ ["enum", "const", "description", "properties"]) :
    undescribedMember key value = value.undescribed := by
  simp only [List.mem_cons, List.not_mem_nil, or_false, not_or] at other
  simp only [undescribedMember, other, or_self, if_false]

theorem lookup_undescribed (key : String) (other : key ∉ ["enum", "const", "description", "properties"])
    (members : List (String × Json)) :
    (undescribedMembers members).lookup key = (members.lookup key).map undescribed := by
  rw [lookup_undescribedMembers]
  exact Option.map_congr fun value _ => undescribedMember_eq value other

theorem string?_undescribed (value : Json) : value.undescribed.string? = value.string? := by
  cases value <;> rfl

theorem nat?_undescribed (value : Json) : value.undescribed.nat? = value.nat? := by
  cases value <;> rfl

theorem filterMap_undescribed (elements : List Json) :
    (undescribedElements elements).filterMap string? = elements.filterMap string? := by
  rw [undescribedElements_eq, List.filterMap_map]
  exact congrArg (elements.filterMap ·) (funext string?_undescribed)

theorem mapM_undescribed (elements : List Json) :
    (undescribedElements elements).mapM string? = elements.mapM string? := by
  induction elements with
  | nil => rfl
  | cons element elements ih =>
    rw [undescribedElements, List.mapM_cons, List.mapM_cons, string?_undescribed, ih]

theorem strings?_undescribed (value : Json) : value.undescribed.strings? = value.strings? := by
  cases value with
  | array elements => exact mapM_undescribed elements
  | _ => rfl

theorem hintText_undescribed (value : Json) : hintText value.undescribed = hintText value := by
  cases value with
  | array elements =>
    rw [undescribed, hintText, hintText, hintMembers, hintMembers, filterMap_undescribed]
  | _ => rfl

theorem namesMarker_undescribed (name : String) (value : Json) :
    namesMarker name value.undescribed = namesMarker name value := by
  cases value with
  | array elements => rw [undescribed, namesMarker, namesMarker, filterMap_undescribed]
  | _ => rfl

theorem hint?_undescribedMembers (members : List (String × Json)) :
    hint? (undescribedMembers members) = hint? members := by
  have marker := lookup_undescribed markerKey (by decide) members
  have listed : hasMember enumKey (undescribedMembers members) = hasMember enumKey members := by
    rw [hasMember, lookup_undescribedMembers, Option.isSome_map, ← hasMember]
  rw [hint?, hint?, listed, marker, Option.map_map, Function.comp_def]
  simp only [hintText_undescribed]

theorem hint?_undescribedNamed (named : List (String × Json)) :
    hint? (undescribedNamed named) = hint? named := by
  have listed : hasMember enumKey (undescribedNamed named) = hasMember enumKey named := by
    rw [hasMember, lookup_undescribedNamed, Option.isSome_map, ← hasMember]
  rw [hint?, hint?, listed, lookup_undescribedNamed, Option.map_map, Function.comp_def]
  simp only [hintText_undescribed]

theorem putMember_map (change : String → Json → Json) {key : String} {value : Json}
    (fixed : change key value = value) (members : List (String × Json)) :
    putMember key value (members.map fun member => (member.1, change member.1 member.2)) =
      (putMember key value members).map fun member => (member.1, change member.1 member.2) := by
  induction members with
  | nil => simp [putMember, fixed]
  | cons member members ih =>
    rw [List.map_cons, putMember, putMember]
    split
    · rw [List.map_cons, fixed]
    · rw [List.map_cons, ih]

theorem addHint_undescribedMembers (hint : Option String) (members : List (String × Json)) :
    addHint hint (undescribedMembers members) = undescribedMembers (addHint hint members) := by
  cases hint with
  | none => rfl
  | some hint =>
    rw [addHint, addHint, undescribedMembers_eq, undescribedMembers_eq]
    exact putMember_map undescribedMember (undescribedMember_eq (string hint) (by decide)) members

theorem addHint_undescribedNamed (hint : Option String) (named : List (String × Json)) :
    addHint hint (undescribedNamed named) = undescribedNamed (addHint hint named) := by
  cases hint with
  | none => rfl
  | some hint =>
    rw [addHint, addHint, undescribedNamed_eq, undescribedNamed_eq]
    exact putMember_map (fun _ => undescribed) rfl named

theorem annotate_blankText (value : Json) : value.blankText.annotate = value.annotate.blankText := by
  cases value <;> rfl

mutual

theorem annotate_undescribed (value : Json) :
    value.undescribed.annotate = value.annotate.undescribed := by
  cases value with
  | array elements =>
    rw [undescribed, annotate, annotate, undescribed, annotateElements_undescribed elements]
  | object members =>
    rw [undescribed, annotate, annotate, undescribed, annotateMembers_undescribed members,
      hint?_undescribedMembers, addHint_undescribedMembers]
  | _ => rfl
termination_by structural value

theorem annotateElements_undescribed (elements : List Json) :
    annotateElements (undescribedElements elements) =
      undescribedElements (annotateElements elements) := by
  cases elements with
  | nil => rfl
  | cons element elements =>
    rw [undescribedElements, annotateElements, annotateElements, undescribedElements,
      annotate_undescribed element, annotateElements_undescribed elements]
termination_by structural elements

theorem annotateMembers_undescribed (members : List (String × Json)) :
    annotateMembers (undescribedMembers members) = undescribedMembers (annotateMembers members) := by
  match members with
  | [] => rfl
  | (key, value) :: members =>
    rw [undescribedMembers, annotateMembers, annotateMembers, undescribedMembers,
      annotateMembers_undescribed members, ← annotate_undescribed value, ← annotate_blankText,
      ← annotateTable_undescribed value, apply_ite annotate, apply_ite annotate, apply_ite annotate]
termination_by structural members

theorem annotateTable_undescribed (value : Json) :
    value.undescribedTable.annotate = value.annotate.undescribedTable := by
  cases value with
  | array elements =>
    rw [undescribedTable, annotate, annotate, undescribedTable, annotateElements_undescribed elements]
  | object named =>
    rw [undescribedTable, annotate, annotate, undescribedTable, annotateNamed_undescribed named,
      hint?_undescribedNamed, addHint_undescribedNamed]
  | _ => rfl
termination_by structural value

theorem annotateNamed_undescribed (named : List (String × Json)) :
    annotateMembers (undescribedNamed named) = undescribedNamed (annotateMembers named) := by
  match named with
  | [] => rfl
  | (name, value) :: named =>
    rw [undescribedNamed, annotateMembers, annotateMembers, undescribedNamed,
      annotate_undescribed value, annotateNamed_undescribed named]
termination_by structural named

end

theorem namesDecimal_blankText (value : Json) : value.blankText.namesDecimal = value.namesDecimal := by
  cases value <;> rfl

theorem any_marker_undescribed (marker : Option Json) :
    (marker.map undescribed).any (namesMarker decimalMarker) =
      marker.any (namesMarker decimalMarker) := by
  cases marker with
  | none => rfl
  | some marker => exact namesMarker_undescribed decimalMarker marker

mutual

theorem namesDecimal_undescribed (value : Json) :
    value.undescribed.namesDecimal = value.namesDecimal := by
  cases value with
  | array elements =>
    rw [undescribed, namesDecimal, namesDecimal, anyNamesDecimal_undescribed elements]
  | object members =>
    rw [undescribed, namesDecimal, namesDecimal, memberNamesDecimal_undescribed members,
      lookup_undescribed markerKey (by decide), any_marker_undescribed]
  | _ => rfl
termination_by structural value

theorem anyNamesDecimal_undescribed (elements : List Json) :
    anyNamesDecimal (undescribedElements elements) = anyNamesDecimal elements := by
  cases elements with
  | nil => rfl
  | cons element elements =>
    rw [undescribedElements, anyNamesDecimal, anyNamesDecimal, namesDecimal_undescribed element,
      anyNamesDecimal_undescribed elements]
termination_by structural elements

theorem memberNamesDecimal_undescribed (members : List (String × Json)) :
    memberNamesDecimal (undescribedMembers members) = memberNamesDecimal members := by
  match members with
  | [] => rfl
  | (key, value) :: members =>
    rw [undescribedMembers, memberNamesDecimal, memberNamesDecimal,
      memberNamesDecimal_undescribed members, apply_ite namesDecimal, apply_ite namesDecimal,
      apply_ite namesDecimal, namesDecimal_blankText, namesDecimal_undescribed value,
      tableNamesDecimal_undescribed value, ite_self, ite_self, ite_self]
termination_by structural members

theorem tableNamesDecimal_undescribed (value : Json) :
    value.undescribedTable.namesDecimal = value.namesDecimal := by
  cases value with
  | array elements =>
    rw [undescribedTable, namesDecimal, namesDecimal, anyNamesDecimal_undescribed elements]
  | object named =>
    rw [undescribedTable, namesDecimal, namesDecimal, namedNamesDecimal_undescribed named,
      lookup_undescribedNamed, any_marker_undescribed]
  | _ => rfl
termination_by structural value

theorem namedNamesDecimal_undescribed (named : List (String × Json)) :
    memberNamesDecimal (undescribedNamed named) = memberNamesDecimal named := by
  match named with
  | [] => rfl
  | (name, value) :: named =>
    rw [undescribedNamed, memberNamesDecimal, memberNamesDecimal, namesDecimal_undescribed value,
      namedNamesDecimal_undescribed named]
termination_by structural named

end

end Json

open Json

theorem stringMember_undescribed (key : String)
    (other : key ∉ ["enum", "const", "description", "properties"]) (members : List (String × Json)) :
    stringMember key (undescribedMembers members) = stringMember key members := by
  rw [stringMember, stringMember, lookup_undescribed key other, Option.bind_map]
  exact congrArg _ (funext string?_undescribed)

theorem description_undescribed (members : List (String × Json)) :
    stringMember "description" (undescribedMembers members) =
      blankDocs (stringMember "description" members) := by
  rw [stringMember, stringMember, lookup_undescribedMembers]
  cases members.lookup "description" with
  | none => rfl
  | some value => cases value <;> rfl

theorem readKeyword_undescribed {Content : Type} (key : String) {read : Json → Keyword Content}
    (other : key ∉ ["enum", "const", "description", "properties"])
    (same : ∀ value, read value.undescribed = read value) (members : List (String × Json)) :
    readKeyword key read (undescribedMembers members) = readKeyword key read members := by
  rw [readKeyword, readKeyword, lookup_undescribed key other]
  cases members.lookup key with
  | none => rfl
  | some value => exact same value

theorem readKinds_undescribed (value : Json) : readKinds value.undescribed = readKinds value := by
  cases value with
  | array names => rw [undescribed, readKinds, readKinds, filterMap_undescribed]
  | _ => rfl

theorem readRequired_undescribed (value : Json) :
    readRequired value.undescribed = readRequired value := by
  cases value with
  | array names => rw [undescribed, readRequired, readRequired, mapM_undescribed]
  | _ => rfl

theorem lookup_payload (key : String) (payload : key ∈ ["enum", "const"])
    (members : List (String × Json)) : (undescribedMembers members).lookup key = members.lookup key := by
  have kept : ∀ value, undescribedMember key value = value := by
    intro value
    simp only [List.mem_cons, List.not_mem_nil, or_false] at payload
    simp only [undescribedMember, payload, if_true]
  rw [lookup_undescribedMembers, funext kept]
  exact Option.map_id'

theorem natMember_undescribed (key : String)
    (other : key ∉ ["enum", "const", "description", "properties"]) (members : List (String × Json)) :
    ((undescribedMembers members).lookup key).bind Json.nat? = (members.lookup key).bind Json.nat? := by
  rw [lookup_undescribed key other, Option.bind_map]
  exact congrArg _ (funext nat?_undescribed)

theorem readHead_undescribed (members : List (String × Json)) :
    readHead (undescribedMembers members) =
      { readHead members with description := blankDocs (readHead members).description } := by
  have title := stringMember_undescribed "title" (by decide) members
  have verbatim := stringMember_undescribed "tsType" (by decide) members
  have description := description_undescribed members
  have literals : (undescribedMembers members).lookup "enum" = members.lookup "enum" :=
    lookup_payload "enum" (by decide) members
  have enumeration : readKeyword "enum" (fun value => .ofShape .enumNotArray value.elements?)
      (undescribedMembers members) =
        readKeyword "enum" (fun value => .ofShape .enumNotArray value.elements?) members := by
    rw [readKeyword, readKeyword, literals]
  have constant := lookup_payload "const" (by decide) members
  have enumNames : ((undescribedMembers members).lookup "tsEnumNames").bind Json.strings? =
      (members.lookup "tsEnumNames").bind Json.strings? := by
    rw [lookup_undescribed "tsEnumNames" (by decide), Option.bind_map]
    exact congrArg _ (funext strings?_undescribed)
  have kinds : readKeyword "type" (fun value => .ofShape .typeNotNames (readKinds value))
      (undescribedMembers members) =
        readKeyword "type" (fun value => .ofShape .typeNotNames (readKinds value)) members := by
    apply readKeyword_undescribed "type" (by decide)
    intro value
    rw [readKinds_undescribed]
  have required := readKeyword_undescribed "required" (by decide) readRequired_undescribed members
  have least := natMember_undescribed "minItems" (by decide) members
  have most := natMember_undescribed "maxItems" (by decide) members
  simp only [readHead, title, verbatim, description, enumeration, constant, enumNames, kinds, required,
    least, most]

end SchemaTypes
