import SchemaTypes.Draft
import SchemaTypes.Name
import SchemaTypes.TypeExpr.Combine

/-!
From schemas to declarations. A node with a title becomes a declaration of its own and is referred to
by name; every other schema is typed in place. The root is declared first, and each declaration
stands before those that its body brings.
-/

namespace SchemaTypes

def maxSpelledElements : Nat := 20

def listFrom (item : TypeExpr) (least : Nat) : TypeExpr :=
  if least = 0 ∨ maxSpelledElements < least then .list item
  else .tuple (List.replicate least item) least (some item)

/-- A list of one item type with bounds on its length. Bounds that admit no length bound nothing. -/
def boundedList (item : TypeExpr) (least : Nat) : Option Nat → TypeExpr
  | none => listFrom item least
  | some most =>
    if most < least then .list item
    else if most ≤ maxSpelledElements then .tuple (List.replicate most item) least none
    else listFrom item least

def canBeEnumMember : Json → Bool
  | .string _ => true
  | .number _ => true
  | _ => false

/-- Named members: one name for each value, and all values strings or numbers. -/
def enumMembers? (head : Head) : Option (List (String × Json)) :=
  match head.enumeration, head.enumNames with
  | .given values, some names =>
    if names.length = values.length ∧ values.all canBeEnumMember then some (names.zip values) else none
  | _, _ => none

/-- The name a nested schema is declared under, before it is made unique. -/
def declaredBase? (schema : Schema) : Option String :=
  schema.head?.bind fun head =>
    if head.verbatim.isSome then none
    else (head.title.map safeName).filter fun name => !name.isEmpty

def declarationOfType (name : String) (docs : Option String) : TypeExpr → Declaration
  | .object fields index => .interface name docs fields index
  | type => .typeAlias name docs type

def declarationDraft (name : String) (schema : Schema) (body : Draft TypeExpr) : Draft Declaration :=
  match schema.head?.bind enumMembers? with
  | some members => pure (.enumeration name schema.description members)
  | none => declarationOfType name schema.description <$> body

/-- Declares a schema under a free name and refers to it. -/
def declare (base : String) (schema : Schema) (body : Draft TypeExpr) : Draft TypeExpr := fun taken =>
  let name := freshName base taken
  let drafted := declarationDraft name schema body (taken ++ [name])
  ⟨drafted.warnings,
    drafted.outcome.map fun (declaration, inner) => (.reference name, declaration :: inner)⟩

def place (schema : Schema) (body : Draft TypeExpr) : Draft TypeExpr :=
  match declaredBase? schema with
  | some base => declare base schema body
  | none => body

/-- The kinds that decide about a node: those it names, or the one that its other keywords suggest. -/
def effectiveKinds (kinds : Keyword (List Kind)) (objectShaped arrayShaped : Bool) :
    Keyword (List Kind) :=
  match kinds with
  | .absent =>
    if objectShaped then .given [.object] else if arrayShaped then .given [.array] else .absent
  | kinds => kinds

def kindDraft (object array : Draft TypeExpr) : Kind → Draft TypeExpr
  | .string => pure .string
  | .number => pure .number
  | .integer => pure .number
  | .boolean => pure .boolean
  | .null => pure .null
  | .object => object
  | .array => array
  | .other _ => pure .unknown

def kindDrafts (object array : Draft TypeExpr) : List Kind → Draft (List TypeExpr)
  | [] => pure []
  | kind :: kinds => do
    let type ← kindDraft object array kind
    (type :: ·) <$> kindDrafts object array kinds

def typedPart (kinds : Keyword (List Kind)) (object array : Draft TypeExpr) :
    Draft (Option TypeExpr) :=
  match kinds with
  | .absent => pure none
  | .malformed fault => Draft.refuse fault
  | .given kinds => (some ∘ TypeExpr.unionOf) <$> kindDrafts object array kinds

/-- The fixed answers of a node, which no other keyword changes. -/
def fixedType (head : Head) : Keyword TypeExpr :=
  match head.verbatim with
  | some text => .given (.verbatim text)
  | none =>
    match head.enumeration with
    | .given values => .given (TypeExpr.unionOf (values.map TypeExpr.literal))
    | .malformed fault => .malformed fault
    | .absent =>
      match head.constant with
      | some value => .given (.literal value)
      | none => .absent

def bound (ignoreBounds : Bool) (given : Option Nat) : Option Nat :=
  if ignoreBounds then none else given

def noMoreThan (most : Option Nat) (types : List TypeExpr) : List TypeExpr :=
  match most with
  | none => types
  | some most => types.take most

def isFull (most : Option Nat) (count : Nat) : Bool :=
  match most with
  | none => false
  | some most => most ≤ count

def positionalTuple (least : Option Nat) (elements : List TypeExpr) (rest : Option TypeExpr) :
    TypeExpr :=
  .tuple elements (min (least.getD elements.length) elements.length) rest

mutual

/-- The type of a schema in place, whatever its title. -/
def Schema.body (ignoreBounds : Bool) : Schema → Draft TypeExpr
  | .always true => pure .unknown
  | .always false => pure .never
  | .foreign => do
    Draft.warn
    pure .unknown
  | .node head allOf anyOf oneOf properties additionalProperties items additionalItems =>
    match fixedType head with
    | .given type => pure type
    | .malformed fault => Draft.refuse fault
    | .absent => do
      let all ← armDrafts ignoreBounds "allOf" allOf
      let any ← armDrafts ignoreBounds "anyOf" anyOf
      let one ← armDrafts ignoreBounds "oneOf" oneOf
      let objectShaped :=
        properties.isPresent || additionalProperties.isPresent || head.required.isPresent
      let typed ← typedPart (effectiveKinds head.kinds objectShaped items.isPresent)
        (do
          let required ← Draft.ofKeyword [] head.required
          let fields ← fieldDrafts ignoreBounds required properties
          .object fields <$> indexDraft ignoreBounds additionalProperties)
        (itemsDraft ignoreBounds (bound ignoreBounds head.minItems) (bound ignoreBounds head.maxItems)
          (fun full => restDraft ignoreBounds full additionalItems) items)
      pure (TypeExpr.intersectionOf
        ((all.map TypeExpr.intersectionOf).toList ++ (any.map TypeExpr.unionOf).toList ++
          (one.map TypeExpr.unionOf).toList ++ typed.toList))

def armDrafts (ignoreBounds : Bool) (key : String) :
    Keyword (List Schema) → Draft (Option (List TypeExpr))
  | .absent => pure none
  | .malformed fault => Draft.refuse fault
  | .given schemas => some <$> (eachDraft ignoreBounds 0 schemas).within [key]

def eachDraft (ignoreBounds : Bool) (index : Nat) : List Schema → Draft (List TypeExpr)
  | [] => pure []
  | schema :: schemas => do
    let type ← (place schema (schema.body ignoreBounds)).within [Nat.repr index]
    (type :: ·) <$> eachDraft ignoreBounds (index + 1) schemas

def fieldDrafts (ignoreBounds : Bool) (required : List String) :
    Keyword (List (String × Schema)) → Draft (List (Field TypeExpr))
  | .absent => pure []
  | .malformed fault => Draft.refuse fault
  | .given schemas => (eachField ignoreBounds required schemas).within ["properties"]

def eachField (ignoreBounds : Bool) (required : List String) :
    List (String × Schema) → Draft (List (Field TypeExpr))
  | [] => pure []
  | (name, schema) :: schemas => do
    let type ← (place schema (schema.body ignoreBounds)).within [name]
    (⟨name, type, required.contains name, schema.description⟩ :: ·) <$>
      eachField ignoreBounds required schemas

def indexDraft (ignoreBounds : Bool) : Keyword Schema → Draft (Option TypeExpr)
  | .absent => pure (some .unknown)
  | .malformed fault => Draft.refuse fault
  | .given (.always false) => pure none
  | .given schema =>
    some <$> (place schema (schema.body ignoreBounds)).within ["additionalProperties"]

def itemsDraft (ignoreBounds : Bool) (least most : Option Nat)
    (restOf : Bool → Draft (Option TypeExpr)) : Keyword (Items Schema) → Draft TypeExpr
  | .absent => pure (boundedList .unknown (least.getD 0) most)
  | .malformed fault => Draft.refuse fault
  | .given (.every schema) => do
    let item ← (place schema (schema.body ignoreBounds)).within ["items"]
    pure (boundedList item (least.getD 0) most)
  | .given (.positional schemas) => do
    let types ← (eachDraft ignoreBounds 0 schemas).within ["items"]
    let elements := noMoreThan most types
    let rest ← restOf (isFull most elements.length)
    pure (positionalTuple least elements rest)

def restDraft (ignoreBounds full : Bool) : Option Schema → Draft (Option TypeExpr)
  | some (.always false) => pure none
  | some schema =>
    if full then pure none
    else some <$> (place schema (schema.body ignoreBounds)).within ["additionalItems"]
  | none => pure (if full then none else some .unknown)

end

def fallbackRootName : String := "Root"

/-- The first usable name among the title, the suggested name and the fallback. -/
def rootBase (schema : Schema) (suggested : String) : String :=
  let usable name := !(safeName name).isEmpty
  match schema.title.filter usable with
  | some title => safeName title
  | none => if usable suggested then safeName suggested else fallbackRootName

def Schema.declarations (schema : Schema) (suggested : String) (ignoreBounds : Bool) :
    Drafted (List Declaration) :=
  let drafted := declare (rootBase schema suggested) schema (schema.body ignoreBounds) []
  ⟨drafted.warnings, drafted.outcome.map fun result => (result.2, [])⟩

end SchemaTypes
