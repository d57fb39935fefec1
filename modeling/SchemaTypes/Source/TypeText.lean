import SchemaTypes.Source.Layout
import SchemaTypes.Settings.Options
import SchemaTypes.TypeExpr.Basic

namespace SchemaTypes

def parenthesized (needed : Bool) (text : String) : String :=
  if needed then "(" ++ text ++ ")" else text

namespace TypeExpr

def isCompound : TypeExpr → Bool
  | union _ => true
  | intersection _ => true
  | verbatim text => text.toList.any fun char => char = '|' || char = '&' || char = ' '
  | _ => false

def bindsInUnion : TypeExpr → Bool
  | intersection _ => true
  | verbatim text => text.toList.contains '&'
  | _ => false

def unknownText (flags : Flags) : String :=
  if flags.unknownAny then "unknown" else "any"

def objectText (flags : Flags) (depth : Nat) (fields : List String) (index : Option String) : String :=
  match fields, index with
  | [], none => "\x7b\x7d"
  | fields, index =>
    let indexLine :=
      match index with
      | none => ""
      | some type =>
        indentation (depth + 1) ++ "[k: string]: " ++ type ++
          (if flags.strictIndex then " | undefined" else "") ++ ";\n"
    "\x7b\n" ++ String.join fields ++ indexLine ++ indentation depth ++ "\x7d"

def fieldText (depth : Nat) (name : String) (required : Bool) (docs : Option String) (type : String) :
    String :=
  docBlock depth docs ++ indentation depth ++ memberKey name ++ (if required then "" else "?") ++
    ": " ++ type ++ ";\n"

mutual

def render (flags : Flags) (depth : Nat) : TypeExpr → String
  | unknown => unknownText flags
  | never => "never"
  | null => "null"
  | boolean => "boolean"
  | number => "number"
  | string => "string"
  | literal value => value.text
  | verbatim text => text
  | reference name => name
  | list item => parenthesized item.isCompound (render flags depth item) ++ "[]"
  | tuple elements required none =>
    "[" ++ String.intercalate ", " (renderElements flags depth required elements) ++ "]"
  | tuple elements required (some rest) =>
    "[" ++ String.intercalate ", "
      (renderElements flags depth required elements ++
        ["..." ++ parenthesized rest.isCompound (render flags depth rest) ++ "[]"]) ++ "]"
  | object fields none => objectText flags depth (renderFields flags (depth + 1) fields) none
  | object fields (some index) =>
    objectText flags depth (renderFields flags (depth + 1) fields)
      (some (render flags (depth + 1) index))
  | union arms => String.intercalate " | " (renderArms flags depth arms)
  | intersection parts => String.intercalate " & " (renderParts flags depth parts)

/-- Elements of a tuple; those after the required ones are optional. -/
def renderElements (flags : Flags) (depth required : Nat) : List TypeExpr → List String
  | [] => []
  | element :: elements =>
    (if required = 0 then parenthesized element.isCompound (render flags depth element) ++ "?"
      else render flags depth element) :: renderElements flags depth (required - 1) elements

def renderFields (flags : Flags) (depth : Nat) : List (Field TypeExpr) → List String
  | [] => []
  | ⟨name, content, required, docs⟩ :: fields =>
    fieldText depth name required docs (render flags depth content) :: renderFields flags depth fields

def renderArms (flags : Flags) (depth : Nat) : List TypeExpr → List String
  | [] => []
  | arm :: arms => parenthesized arm.bindsInUnion (render flags depth arm) :: renderArms flags depth arms

def renderParts (flags : Flags) (depth : Nat) : List TypeExpr → List String
  | [] => []
  | part :: parts =>
    parenthesized part.isCompound (render flags depth part) :: renderParts flags depth parts

end

def optionalText (flags : Flags) (depth : Nat) (type : TypeExpr) : String :=
  parenthesized type.isCompound (type.render flags depth) ++ "?"

variable {flags : Flags} {depth : Nat}

theorem renderElements_zero (elements : List TypeExpr) :
    renderElements flags depth 0 elements = elements.map (optionalText flags depth) := by
  induction elements with
  | nil => rfl
  | cons element elements ih =>
    rw [renderElements, if_pos rfl, List.map_cons, ← ih]
    rfl

theorem renderElements_length (elements : List TypeExpr) :
    renderElements flags depth elements.length elements = elements.map (render flags depth) := by
  induction elements with
  | nil => rfl
  | cons element elements ih =>
    rw [renderElements, List.length_cons, if_neg (Nat.succ_ne_zero _), List.map_cons, ← ih]
    rfl

theorem renderElements_append {required : Nat} {first : List TypeExpr}
    (enough : required ≤ first.length) (later : List TypeExpr) :
    renderElements flags depth required (first ++ later) =
      renderElements flags depth required first ++ later.map (optionalText flags depth) := by
  induction first generalizing required with
  | nil =>
    obtain rfl : required = 0 := Nat.le_zero.mp enough
    exact renderElements_zero later
  | cons element first ih =>
    have fewer : required - 1 ≤ first.length := Nat.sub_le_iff_le_add.mpr enough
    rw [List.cons_append, renderElements, renderElements, List.cons_append, ih fewer]

theorem renderArms_eq_map (arms : List TypeExpr) :
    renderArms flags depth arms =
      arms.map fun arm => parenthesized arm.bindsInUnion (render flags depth arm) := by
  induction arms with
  | nil => rfl
  | cons arm arms ih => rw [renderArms, List.map_cons, ih]

theorem renderParts_eq_map (parts : List TypeExpr) :
    renderParts flags depth parts =
      parts.map fun part => parenthesized part.isCompound (render flags depth part) := by
  induction parts with
  | nil => rfl
  | cons part parts ih => rw [renderParts, List.map_cons, ih]

end TypeExpr

end SchemaTypes
