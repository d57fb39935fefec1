import SchemaTypes.Json.Value

/-!
Type expressions and the declarations that carry them. Fields are generic in the type they hold, so
that types and fields recurse through one inductive type.
-/

namespace SchemaTypes

structure Field (Content : Type) where
  name : String
  content : Content
  required : Bool
  docs : Option String
  deriving DecidableEq, Repr

inductive TypeExpr where
  | unknown
  | never
  | null
  | boolean
  | number
  | string
  | literal (value : Json)
  | verbatim (text : String)
  | reference (name : String)
  | list (item : TypeExpr)
  | tuple (elements : List TypeExpr) (required : Nat) (rest : Option TypeExpr)
  | object (fields : List (Field TypeExpr)) (index : Option TypeExpr)
  | union (arms : List TypeExpr)
  | intersection (parts : List TypeExpr)
  deriving Repr

instance : Inhabited TypeExpr := ⟨.unknown⟩

inductive Declaration where
  | interface (name : String) (docs : Option String) (fields : List (Field TypeExpr))
      (index : Option TypeExpr)
  | typeAlias (name : String) (docs : Option String) (type : TypeExpr)
  | enumeration (name : String) (docs : Option String) (members : List (String × Json))
  deriving Repr

def Declaration.name : Declaration → String
  | interface name _ _ _ => name
  | typeAlias name _ _ => name
  | enumeration name _ _ => name

namespace TypeExpr

mutual

def equal : TypeExpr → TypeExpr → Bool
  | unknown, unknown => true
  | never, never => true
  | null, null => true
  | boolean, boolean => true
  | number, number => true
  | string, string => true
  | literal left, literal right => decide (left = right)
  | verbatim left, verbatim right => decide (left = right)
  | reference left, reference right => decide (left = right)
  | list left, list right => equal left right
  | tuple lefts leftRequired leftRest, tuple rights rightRequired rightRest =>
    equalAll lefts rights && (decide (leftRequired = rightRequired) && equalOption leftRest rightRest)
  | object lefts leftIndex, object rights rightIndex =>
    equalFields lefts rights && equalOption leftIndex rightIndex
  | union lefts, union rights => equalAll lefts rights
  | intersection lefts, intersection rights => equalAll lefts rights
  | _, _ => false

def equalAll : List TypeExpr → List TypeExpr → Bool
  | [], [] => true
  | left :: lefts, right :: rights => equal left right && equalAll lefts rights
  | _, _ => false

def equalOption : Option TypeExpr → Option TypeExpr → Bool
  | none, none => true
  | some left, some right => equal left right
  | _, _ => false

def equalFields : List (Field TypeExpr) → List (Field TypeExpr) → Bool
  | [], [] => true
  | ⟨leftName, left, leftRequired, leftDocs⟩ :: lefts,
    ⟨rightName, right, rightRequired, rightDocs⟩ :: rights =>
    decide (leftName = rightName ∧ leftRequired = rightRequired ∧ leftDocs = rightDocs) &&
      (equal left right && equalFields lefts rights)
  | _, _ => false

end

mutual

theorem equal_iff (left right : TypeExpr) : equal left right = true ↔ left = right := by
  cases left <;> cases right <;>
    simp [equal, equal_iff, equalAll_iff, equalOption_iff, equalFields_iff]
termination_by structural left

theorem equalAll_iff (lefts rights : List TypeExpr) :
    equalAll lefts rights = true ↔ lefts = rights := by
  cases lefts <;> cases rights <;> simp [equalAll, equal_iff, equalAll_iff]
termination_by structural lefts

theorem equalOption_iff (left right : Option TypeExpr) :
    equalOption left right = true ↔ left = right := by
  cases left <;> cases right <;> simp [equalOption, equal_iff]
termination_by structural left

theorem equalFields_iff (lefts rights : List (Field TypeExpr)) :
    equalFields lefts rights = true ↔ lefts = rights := by
  match lefts, rights with
  | [], [] => simp [equalFields]
  | [], _ :: _ => simp [equalFields]
  | _ :: _, [] => simp [equalFields]
  | ⟨leftName, left, leftRequired, leftDocs⟩ :: lefts,
    ⟨rightName, right, rightRequired, rightDocs⟩ :: rights =>
    simp only [equalFields, Bool.and_eq_true, decide_eq_true_eq, equal_iff left right,
      equalFields_iff lefts rights, List.cons.injEq, Field.mk.injEq]
    constructor
    · rintro ⟨⟨rfl, rfl, rfl⟩, rfl, rfl⟩
      exact ⟨⟨rfl, rfl, rfl, rfl⟩, rfl⟩
    · rintro ⟨⟨rfl, rfl, rfl, rfl⟩, rfl⟩
      exact ⟨⟨rfl, rfl, rfl⟩, rfl, rfl⟩
termination_by structural lefts

end

instance : DecidableEq TypeExpr := fun left right =>
  decidable_of_iff (equal left right = true) (equal_iff left right)

mutual

def canonical : TypeExpr → TypeExpr
  | literal value => literal value.canonical
  | list item => list (canonical item)
  | tuple elements required rest => tuple (canonicalAll elements) required (canonicalOption rest)
  | object fields index => object (canonicalFields fields) (canonicalOption index)
  | union arms => union (canonicalAll arms)
  | intersection parts => intersection (canonicalAll parts)
  | type => type

def canonicalAll : List TypeExpr → List TypeExpr
  | [] => []
  | type :: types => canonical type :: canonicalAll types

def canonicalOption : Option TypeExpr → Option TypeExpr
  | none => none
  | some type => some (canonical type)

def canonicalFields : List (Field TypeExpr) → List (Field TypeExpr)
  | [] => []
  | ⟨name, content, required, docs⟩ :: fields =>
    ⟨name, canonical content, required, docs⟩ :: canonicalFields fields

end

def same (left right : TypeExpr) : Bool :=
  decide (left.canonical = right.canonical)

theorem same_iff (left right : TypeExpr) :
    left.same right = true ↔ left.canonical = right.canonical := by
  simp [same]

end TypeExpr

deriving instance DecidableEq for Declaration

end SchemaTypes
