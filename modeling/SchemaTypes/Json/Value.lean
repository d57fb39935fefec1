import SchemaTypes.Json.Number
import SchemaTypes.Json.Members

namespace SchemaTypes

inductive Json where
  | null
  | boolean (value : Bool)
  | number (value : Number)
  | string (value : String)
  | array (elements : List Json)
  | object (members : List (String × Json))
  deriving Repr

namespace Json

instance : Inhabited Json := ⟨null⟩

mutual

def equal : Json → Json → Bool
  | null, null => true
  | boolean left, boolean right => left == right
  | number left, number right => decide (left = right)
  | string left, string right => decide (left = right)
  | array left, array right => equalElements left right
  | object left, object right => equalMembers left right
  | _, _ => false

def equalElements : List Json → List Json → Bool
  | [], [] => true
  | left :: lefts, right :: rights => equal left right && equalElements lefts rights
  | _, _ => false

def equalMembers : List (String × Json) → List (String × Json) → Bool
  | [], [] => true
  | (leftKey, left) :: lefts, (rightKey, right) :: rights =>
    decide (leftKey = rightKey) && (equal left right && equalMembers lefts rights)
  | _, _ => false

end

mutual

theorem equal_iff (left right : Json) : equal left right = true ↔ left = right := by
  cases left <;> cases right <;> simp [equal, equalElements_iff, equalMembers_iff]

theorem equalElements_iff (lefts rights : List Json) :
    equalElements lefts rights = true ↔ lefts = rights := by
  cases lefts <;> cases rights <;> simp [equalElements, equal_iff, equalElements_iff]

theorem equalMembers_iff (lefts rights : List (String × Json)) :
    equalMembers lefts rights = true ↔ lefts = rights := by
  match lefts, rights with
  | [], [] => simp [equalMembers]
  | [], _ :: _ => simp [equalMembers]
  | _ :: _, [] => simp [equalMembers]
  | (leftKey, left) :: lefts, (rightKey, right) :: rights =>
    simp [equalMembers, equal_iff left right, equalMembers_iff lefts rights, and_assoc]

end

instance : DecidableEq Json := fun left right =>
  decidable_of_iff (equal left right = true) (equal_iff left right)

mutual

/-- Members in key order and one zero for the doubles, at every depth. -/
def canonical : Json → Json
  | null => null
  | boolean value => boolean value
  | number value => number value.canonical
  | string value => string value
  | array elements => array (canonicalElements elements)
  | object members => object (canonicalMembers members)

def canonicalElements : List Json → List Json
  | [] => []
  | element :: elements => canonical element :: canonicalElements elements

def canonicalMembers : List (String × Json) → List (String × Json)
  | [] => []
  | (key, value) :: members => placeByKey (key, canonical value) (canonicalMembers members)

end

def same (left right : Json) : Bool :=
  decide (left.canonical = right.canonical)

theorem same_iff (left right : Json) : left.same right = true ↔ left.canonical = right.canonical := by
  simp [same]

def member? (key : String) : Json → Option Json
  | object members => members.lookup key
  | _ => none

def string? : Json → Option String
  | string value => some value
  | _ => none

def boolean? : Json → Option Bool
  | boolean value => some value
  | _ => none

def nat? : Json → Option Nat
  | number value => value.nat?
  | _ => none

def elements? : Json → Option (List Json)
  | array elements => some elements
  | _ => none

def members? : Json → Option (List (String × Json))
  | object members => some members
  | _ => none

def strings? (value : Json) : Option (List String) :=
  value.elements?.bind (·.mapM string?)

theorem string?_eq_some {value : Json} {text : String} :
    value.string? = some text ↔ value = string text := by
  cases value <;> simp [string?]

theorem boolean?_eq_some {value : Json} {flag : Bool} :
    value.boolean? = some flag ↔ value = boolean flag := by
  cases value <;> simp [boolean?]

theorem mapM_string?_eq_some {values : List Json} {texts : List String} :
    values.mapM string? = some texts ↔ values = texts.map string := by
  induction values generalizing texts with
  | nil => cases texts <;> simp
  | cons value values ih =>
    simp only [List.mapM_cons, Option.bind_eq_bind, Option.bind_eq_some_iff, string?_eq_some, ih]
    constructor
    · rintro ⟨text, rfl, others, rfl, same⟩
      cases same
      rfl
    · cases texts with
      | nil => exact nofun
      | cons text texts =>
        intro same
        obtain ⟨rfl, rfl⟩ := List.cons.inj same
        exact ⟨text, rfl, texts, rfl, rfl⟩

theorem strings?_eq_some {value : Json} {texts : List String} :
    value.strings? = some texts ↔ value = array (texts.map string) := by
  cases value <;> simp [strings?, elements?, mapM_string?_eq_some]

end Json

end SchemaTypes
