import Mathlib.Data.List.Induction
import SchemaTypes.Proofs.Inhabitants
import SchemaTypes.Proofs.NormalForms
import SchemaTypes.Proofs.ValueEquality

/-!
Merging in parts. A union or an intersection comes out the same whether its types are merged at once or
some of them before the others, because an arm is kept if and only if no same arm comes before it, and
what is merged first takes the place that its types had.
-/

namespace SchemaTypes

namespace TypeExpr

def anySame (types : List TypeExpr) (type : TypeExpr) : Bool :=
  types.any fun other => other.same type

/-- The types before which no same type stands, in their order. -/
def firstOccurrences (types : List TypeExpr) : List TypeExpr :=
  (types.zipIdx.filter fun (type, position) => !anySame (types.take position) type).map (·.1)

def ofArms : List TypeExpr → TypeExpr
  | [] => never
  | [arm] => arm
  | arms => union arms

theorem distinct_append (types others : List TypeExpr) :
    distinct (types ++ others) =
      distinct types ++ (distinct others).filter fun other => !anySame types other := by
  induction types with
  | nil => simp [distinct_nil, anySame]
  | cons type types ih =>
    have split : ∀ other,
        (!anySame (type :: types) other) = (!type.same other && !anySame types other) := by
      simp [anySame]
    rw [List.cons_append, distinct_cons, distinct_cons, ih, List.filter_append, List.filter_filter,
      List.cons_append]
    simp only [split]

theorem distinct_eq_nil {types : List TypeExpr} : distinct types = [] ↔ types = [] := by
  cases types with
  | nil => simp [distinct_nil]
  | cons type types => simp [distinct_cons]

theorem distinct_concat (types : List TypeExpr) (type : TypeExpr) :
    distinct (types ++ [type]) = distinct types ++ if anySame types type then [] else [type] := by
  rw [distinct_append]
  cases here : anySame types type <;> simp [distinct_cons, distinct_nil, here]

theorem anySame_distinct (types : List TypeExpr) (type : TypeExpr) :
    anySame (distinct types) type = anySame types type := by
  rw [Bool.eq_iff_iff, anySame, anySame, List.any_eq_true, List.any_eq_true]
  constructor
  · rintro ⟨other, kept, same⟩
    exact ⟨other, distinct_subset types kept, same⟩
  · rintro ⟨other, inside, same⟩
    obtain ⟨kept, there, equal⟩ := exists_distinct inside
    exact ⟨kept, there, (same_iff kept type).mpr (equal.trans ((same_iff other type).mp same))⟩

theorem distinct_of_pairwise {types : List TypeExpr}
    (apart : types.Pairwise fun type other => type.same other = false) : distinct types = types := by
  induction types with
  | nil => rfl
  | cons type types ih =>
    obtain ⟨first, rest⟩ := List.pairwise_cons.mp apart
    rw [distinct_cons, ih rest, List.filter_eq_self.mpr]
    intro other inside
    rw [first other inside, Bool.not_false]

theorem distinct_distinct (types : List TypeExpr) : distinct (distinct types) = distinct types :=
  distinct_of_pairwise (distinct_pairwise types)

/-- Types may be thinned out before their neighbours are known. -/
theorem distinct_between (before types after : List TypeExpr) :
    distinct (before ++ distinct types ++ after) = distinct (before ++ types ++ after) := by
  have front : distinct (before ++ distinct types) = distinct (before ++ types) := by
    rw [distinct_append, distinct_append, distinct_distinct]
  have alike : ∀ type, anySame (before ++ distinct types) type = anySame (before ++ types) type := by
    intro type
    rw [anySame, anySame, List.any_append, List.any_append, ← anySame, ← anySame, ← anySame,
      anySame_distinct]
  calc
    _ = distinct (before ++ distinct types) ++
        (distinct after).filter fun type => !anySame (before ++ distinct types) type :=
      distinct_append _ after
    _ = distinct (before ++ types) ++
        (distinct after).filter fun type => !anySame (before ++ types) type := by
      simp only [front, alike]
    _ = distinct (before ++ types ++ after) := (distinct_append _ after).symm

theorem firstOccurrences_concat (types : List TypeExpr) (type : TypeExpr) :
    firstOccurrences (types ++ [type]) =
      firstOccurrences types ++ if anySame types type then [] else [type] := by
  rw [firstOccurrences, firstOccurrences, List.zipIdx_append, List.filter_append, List.map_append]
  congr 2
  -- What comes last is not among the earlier types of any before it.
  · refine List.filter_congr fun entry inside => ?_
    obtain ⟨other, position⟩ := entry
    have before : position ≤ types.length := by
      have bounds := List.mem_zipIdx inside
      omega
    simp only [List.take_append_of_le_length before]
  · cases here : anySame types type <;> simp [here]

theorem distinct_eq_firstOccurrences (types : List TypeExpr) :
    distinct types = firstOccurrences types := by
  induction types using List.reverseRecOn with
  | nil => rfl
  | append_singleton types type ih => rw [distinct_concat, firstOccurrences_concat, ih]

theorem unionOf_eq (types : List TypeExpr) :
    unionOf types = ofArms (distinct (types.flatMap arms)) :=
  rfl

theorem unionOf_congr {types others : List TypeExpr}
    (same : distinct (types.flatMap arms) = distinct (others.flatMap arms)) :
    unionOf types = unionOf others := by
  rw [unionOf_eq, unionOf_eq, same]

theorem intersectionOf_congr {types others : List TypeExpr}
    (same : types.flatMap parts = others.flatMap parts) :
    intersectionOf types = intersectionOf others := by
  rw [intersectionOf, intersectionOf, same]

section

variable {merged : List TypeExpr}

theorem IsNormalHere.arms_ne_nil {type : TypeExpr} (normal : type.IsNormalHere) :
    type.arms ≠ [] := by
  cases type with
  | union arms =>
    intro nothing
    obtain rfl : arms = [] := nothing
    exact absurd normal.1 (by decide)
  | _ => exact List.cons_ne_nil _ _

theorem IsNormalHere.parts_ne_nil {type : TypeExpr} (normal : type.IsNormalHere) :
    type.parts ≠ [] := by
  cases type with
  | intersection parts =>
    intro nothing
    obtain rfl : parts = [] := nothing
    exact absurd normal.1 (by decide)
  | _ => exact List.cons_ne_nil _ _

theorem flatMap_ne_nil {pieces : TypeExpr → List TypeExpr} (some_merged : merged ≠ [])
    (filled : ∀ type ∈ merged, pieces type ≠ []) : merged.flatMap pieces ≠ [] := by
  obtain ⟨type, inside⟩ := List.exists_mem_of_ne_nil merged some_merged
  intro nothing
  exact filled type inside (List.flatMap_eq_nil_iff.mp nothing type inside)

theorem arms_of_not_isUnion {type : TypeExpr} (single : type.isUnion = false) : type.arms = [type] := by
  cases type with
  | union => cases single
  | _ => rfl

theorem parts_of_not_isIntersection {type : TypeExpr} (single : type.isIntersection = false) :
    type.parts = [type] := by
  cases type with
  | intersection => cases single
  | _ => rfl

theorem arms_unionOf (some_merged : merged ≠ []) (normal : ∀ type ∈ merged, type.IsNormalHere) :
    (unionOf merged).arms = distinct (merged.flatMap arms) := by
  have some_arms := flatMap_ne_nil some_merged fun type inside => (normal type inside).arms_ne_nil
  unfold unionOf
  split
  · rename_i nothing
    exact absurd (distinct_eq_nil.mp nothing) some_arms
  · rename_i arm alone
    -- The arm stands for the union, so it has to be shown that it is none itself.
    have kept : arm ∈ distinct (merged.flatMap arms) := by simp [alone]
    obtain ⟨type, inside, here⟩ := List.mem_flatMap.mp (distinct_subset _ kept)
    rw [alone]
    exact arms_of_not_isUnion (isUnion_arm (normal type inside) here)
  · rfl

theorem parts_intersectionOf (some_merged : merged ≠ [])
    (normal : ∀ type ∈ merged, type.IsNormalHere) :
    (intersectionOf merged).parts = merged.flatMap parts := by
  have filled := flatMap_ne_nil some_merged fun type inside => (normal type inside).parts_ne_nil
  unfold intersectionOf
  split
  · rename_i nothing
    exact absurd nothing filled
  · rename_i part alone
    have kept : part ∈ merged.flatMap parts := by simp [alone]
    obtain ⟨type, inside, here⟩ := List.mem_flatMap.mp kept
    rw [alone]
    exact parts_of_not_isIntersection (isIntersection_part (normal type inside) here)
  · rfl

theorem unionOf_between (some_merged : merged ≠ []) (normal : ∀ type ∈ merged, type.IsNormalHere)
    (before after : List TypeExpr) :
    unionOf (before ++ [unionOf merged] ++ after) = unionOf (before ++ merged ++ after) := by
  apply unionOf_congr
  simp only [List.flatMap_append, List.flatMap_singleton, arms_unionOf some_merged normal,
    distinct_between]

theorem intersectionOf_between (some_merged : merged ≠ [])
    (normal : ∀ type ∈ merged, type.IsNormalHere) (before after : List TypeExpr) :
    intersectionOf (before ++ [intersectionOf merged] ++ after) =
      intersectionOf (before ++ merged ++ after) := by
  apply intersectionOf_congr
  simp only [List.flatMap_append, List.flatMap_singleton, parts_intersectionOf some_merged normal]

end

end TypeExpr

open TypeExpr

/--
Types in normal form may be merged in parts: with some of them merged before, a union or an intersection
is the same value, arms in the same order. A union keeps of each arm the first occurrence and no other;
literals, which repeat no key, are compared up to the order of members and the sign of a zero. Whatever
values verbatim texts may have, a union has those that any of its types has, and an intersection those
that all of them have.
-/
theorem merged_in_parts {first merged last : List TypeExpr} (some_merged : merged ≠ [])
    (normal : ∀ type ∈ merged, type.IsNormalHere) :
    unionOf (first ++ [unionOf merged] ++ last) = unionOf (first ++ merged ++ last) ∧
      intersectionOf (first ++ [intersectionOf merged] ++ last) =
        intersectionOf (first ++ merged ++ last) ∧
      (∀ types, unionOf types = ofArms (firstOccurrences (types.flatMap arms))) ∧
      (∀ left right : Json, left.hasDistinctKeys = true → right.hasDistinctKeys = true →
        ((literal left).same (literal right) = true ↔ left.SameValue right)) ∧
      (∀ declarations, IsValuation (Inhabits declarations)) ∧
      ∀ has, IsValuation has → ∀ value types,
        (has value (unionOf types) ↔ ∃ type ∈ types, has value type) ∧
          (has value (intersectionOf types) ↔ ∀ type ∈ types, has value type) := by
  refine ⟨unionOf_between some_merged normal first last,
    intersectionOf_between some_merged normal first last, fun types => ?_, ?_, ?_, ?_⟩
  · rw [unionOf_eq, distinct_eq_firstOccurrences]
  · intro left right distinct distinct'
    rw [← Json.same_iff_sameValue distinct distinct', same_iff, Json.same_iff, canonical, canonical,
      literal.injEq]
  · exact fun declarations => isValuation_inhabits
  · exact fun has valuation value types => ⟨valuation.unionOf_iff, valuation.intersectionOf_iff⟩

def netAndTax : TypeExpr :=
  .literal (.object [("net", .number (.integer 1)), ("tax", .number (.integer 0))])

def taxAndNet : TypeExpr :=
  .literal (.object [("tax", .number (.integer 0)), ("net", .number (.integer 1))])

def doubleZero (negative : Bool) : TypeExpr :=
  .literal (.number (.double (.zero negative)))

def integerZero : TypeExpr :=
  .literal (.number (.integer 0))

def datedPrice : TypeExpr :=
  .intersection [.reference "Price", .reference "Dated"]

def priceTypes : List TypeExpr :=
  [.union [taxAndNet, .string], datedPrice, integerZero]

theorem priceTypes_merged :
    priceTypes ≠ [] ∧ (∀ type ∈ priceTypes, type.IsNormalHere) ∧
      unionOf ([netAndTax, doubleZero false] ++ [unionOf priceTypes] ++ [doubleZero true, .null]) =
        .union [netAndTax, doubleZero false, .string, datedPrice, integerZero, .null] ∧
      intersectionOf ([datedPrice] ++ [intersectionOf priceTypes] ++ [.null]) =
        .intersection [.reference "Price", .reference "Dated", .union [taxAndNet, .string],
          .reference "Price", .reference "Dated", integerZero, .null] := by
  have some_types : priceTypes ≠ [] := List.cons_ne_nil _ _
  have normal : ∀ type ∈ priceTypes, type.IsNormalHere := by
    simp only [priceTypes, List.forall_mem_cons, List.not_mem_nil, false_implies, implies_true,
      and_true]
    refine ⟨⟨Nat.le_refl 2, ?_, ?_⟩, ⟨Nat.le_refl 2, ?_⟩, trivial⟩
    · decide +kernel
    · decide
    · decide
  have inUnion := (@merged_in_parts [netAndTax, doubleZero false] priceTypes [doubleZero true, .null]
    some_types normal).1
  have inIntersection := (@merged_in_parts [datedPrice] priceTypes [.null] some_types normal).2.1
  refine ⟨some_types, normal, inUnion.trans ?_, inIntersection.trans ?_⟩
  · decide +kernel
  · decide +kernel

end SchemaTypes
