import SchemaTypes.Proofs.Occurrences
import SchemaTypes.Proofs.Operands

/-!
Normal forms. A union has several arms, no two of them the same and none of them a union; an
intersection has several parts, none of them an intersection; a tuple has the elements that it requires.
Merging flattens one level only, which is enough for types that are normal already, so normal forms are
kept by all ways to compose types and typing comes to no other types.
-/

namespace SchemaTypes

namespace TypeExpr

/-- The type itself is in normal form, whatever the types in it are. -/
def IsNormalHere : TypeExpr → Prop
  | tuple elements required _ => required ≤ elements.length
  | union arms =>
    2 ≤ arms.length ∧ arms.Pairwise (fun arm other => arm.same other = false) ∧
      ∀ arm ∈ arms, arm.isUnion = false
  | intersection parts => 2 ≤ parts.length ∧ ∀ part ∈ parts, part.isIntersection = false
  | _ => True

/-- What is merged into a union is no union, even if it was an arm of one. -/
theorem isUnion_arm {type arm : TypeExpr} (normal : type.IsNormalHere) (inside : arm ∈ type.arms) :
    arm.isUnion = false := by
  cases type with
  | union arms => exact normal.2.2 arm inside
  | _ =>
    obtain rfl := List.mem_singleton.mp inside
    rfl

theorem isIntersection_part {type part : TypeExpr} (normal : type.IsNormalHere)
    (inside : part ∈ type.parts) : part.isIntersection = false := by
  cases type with
  | intersection parts => exact normal.2 part inside
  | _ =>
    obtain rfl := List.mem_singleton.mp inside
    rfl

theorem distinct_pairwise (types : List TypeExpr) :
    (distinct types).Pairwise fun type other => type.same other = false := by
  induction types with
  | nil => exact List.Pairwise.nil
  | cons type types ih =>
    rw [distinct_cons, List.pairwise_cons]
    refine ⟨fun other kept => ?_, ih.filter _⟩
    simpa using (List.mem_filter.mp kept).2

theorem normal_rules (ignoreBounds : Bool) (environment : List Declaration) :
    DeepRules ignoreBounds environment (fun _ => True) IsNormalHere where
  plain := by simp [IsNormalHere]
  literal _ := trivial
  reference _ := trivial
  verbatim _ _ _ _ := trivial
  list _ := trivial
  tuple _ _ _ enough := enough
  object _ _ _ _ _ := trivial
  union types each several := by
    refine ⟨several, distinct_pairwise _, fun arm kept => ?_⟩
    obtain ⟨type, inside, here⟩ := List.mem_flatMap.mp (distinct_subset _ kept)
    exact isUnion_arm (each type inside type .here) here
  intersection types each several := by
    refine ⟨several, fun part kept => ?_⟩
    obtain ⟨type, inside, here⟩ := List.mem_flatMap.mp kept
    exact isIntersection_part (each type inside type .here) here

end TypeExpr

open TypeExpr

/--
Every type that occurs in a declaration is in normal form. Of the elements of a tuple the required ones
are written first, as many as are required, and every later one with a question mark.
-/
theorem declarations_normal {value : Json} {suggested : String} {ignoreBounds : Bool}
    {declarations : List Declaration}
    (drawn : ((Schema.ofJson value).declarations suggested ignoreBounds).outcome =
      .ok (declarations, [])) :
    ∀ declaration ∈ declarations, ∀ type, declaration.Contains type →
      type.IsNormalHere ∧
        ∀ elements required rest, type = .tuple elements required rest →
          ∃ first later, elements = first ++ later ∧ first.length = required ∧
            ∀ flags depth, renderElements flags depth required elements =
              first.map (render flags depth) ++ later.map (optionalText flags depth) := by
  intro declaration inside type contains
  have throughout : (Schema.ofJson value).Throughout fun _ => True :=
    throughout_ofJson (fun _ _ => trivial) fun _ _ => trivial
  have holds := declarations_hold (normal_rules ignoreBounds declarations).invariant throughout
    drawn declaration inside
  have normal : type.IsNormalHere := by
    cases declaration with
    | interface => exact holds type contains
    | typeAlias => exact holds type contains
    | enumeration => exact contains.elim
  refine ⟨normal, ?_⟩
  rintro elements required rest rfl
  have enough : (elements.take required).length = required := List.length_take_of_le normal
  refine ⟨elements.take required, elements.drop required, ?_, enough, fun flags depth => ?_⟩
  · exact (List.take_append_drop required elements).symm
  · have counted := @renderElements_length flags depth (elements.take required)
    rw [enough] at counted
    rw [← counted, ← renderElements_append (Nat.le_of_eq enough.symm), List.take_append_drop]

def mixedOrder : Json :=
  .object [("title", .string "Order"), ("properties", .object [
    ("state", .object [("anyOf", .array [
      .object [("type", .array [.string "string", .string "null"])],
      .object [("oneOf", .array [
        .object [("type", .string "null")], .object [("enum", .array [.boolean true])]])]])]),
    ("lines", .object [("minItems", .number (.integer 1)), ("items", .array [
      .object [("type", .string "string")], .object [("type", .string "number")]])]),
    ("ref", .object [("allOf", .array [
      .object [("allOf", .array [.object [("title", .string "Ref")], .boolean true])],
      .object [("type", .string "string")]])])])]

def stateType : TypeExpr := .union [.string, .null, .literal (.boolean true)]

def linesType : TypeExpr := .tuple [.string, .number] 1 (some .unknown)

def refType : TypeExpr := .intersection [.reference "Ref", .unknown, .string]

def orderFields : List (Field TypeExpr) := [
  ⟨"state", stateType, false, none⟩, ⟨"lines", linesType, false, none⟩, ⟨"ref", refType, false, none⟩]

theorem mixedOrder_normal :
    ((Schema.ofJson mixedOrder).declarations "" false).outcome =
        .ok ([.interface "Order" none orderFields (some .unknown), .typeAlias "Ref" none .unknown],
          []) ∧
      stateType.IsNormalHere ∧ linesType.IsNormalHere ∧ refType.IsNormalHere := by
  have drawn : ((Schema.ofJson mixedOrder).declarations "" false).outcome =
      .ok ([.interface "Order" none orderFields (some .unknown), .typeAlias "Ref" none .unknown],
        []) := by decide +kernel
  have normal := declarations_normal drawn _ List.mem_cons_self
  refine ⟨drawn, ?_, ?_, ?_⟩
  · exact (normal stateType (.deeper (by simp [TypeExpr.inner, orderFields]) .here)).1
  · exact (normal linesType (.deeper (by simp [TypeExpr.inner, orderFields]) .here)).1
  · exact (normal refType (.deeper (by simp [TypeExpr.inner, orderFields]) .here)).1

end SchemaTypes
