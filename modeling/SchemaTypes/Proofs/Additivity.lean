import SchemaTypes.Pointer
import SchemaTypes.Proofs.Hints

/-!
Annotation only adds. Without hints an annotated value is the value without hints, in the same order;
and each of its nodes has the hint that its marker calls for, or else the hint it had before.
-/

namespace SchemaTypes

section

variable {Value : Type} {key : String}

theorem hasMember_iff {members : List (String × Value)} :
    hasMember key members = true ↔ key ∈ members.map (·.1) := by
  induction members with
  | nil => simp [hasMember]
  | cons member members ih =>
    obtain ⟨name, content⟩ := member
    rw [hasMember] at ih ⊢
    by_cases found : key = name
    · simp [found]
    · rw [lookup_cons_of_ne found]
      simp only [List.map_cons, List.mem_cons, found, false_or]
      exact ih

theorem keys_putMember (value : Value) (members : List (String × Value)) :
    (putMember key value members).map (·.1) =
      if hasMember key members then members.map (·.1) else members.map (·.1) ++ [key] := by
  simp only [hasMember_iff]
  induction members with
  | nil => simp [putMember]
  | cons member members ih =>
    by_cases found : member.1 = key
    · simp [putMember, found]
    · have other : ¬key = member.1 := fun same => found same.symm
      rw [putMember, if_neg found, List.map_cons, ih]
      simp only [List.map_cons, List.mem_cons, other, false_or]
      split <;> simp

end

namespace Json

mutual

/-- The value with every hint deleted, along with whatever stands under it. -/
def withoutHints : Json → Json
  | array elements => array (withoutHintsInAll elements)
  | object members => object (withoutHintsAmong members)
  | value => value

def withoutHintsInAll : List Json → List Json
  | [] => []
  | element :: elements => withoutHints element :: withoutHintsInAll elements

def withoutHintsAmong : List (String × Json) → List (String × Json)
  | [] => []
  | (key, value) :: members =>
    if key = hintKey then withoutHintsAmong members
    else (key, withoutHints value) :: withoutHintsAmong members

end

theorem withoutHintsAmong_putMember (value : Json) (members : List (String × Json)) :
    withoutHintsAmong (putMember hintKey value members) = withoutHintsAmong members := by
  induction members with
  | nil => simp [putMember, withoutHintsAmong]
  | cons member members ih =>
    obtain ⟨name, content⟩ := member
    by_cases found : name = hintKey
    · simp [putMember, withoutHintsAmong, found]
    · simp [putMember, withoutHintsAmong, found, ih]

theorem withoutHintsAmong_addHint (hint : Option String) (members : List (String × Json)) :
    withoutHintsAmong (addHint hint members) = withoutHintsAmong members := by
  cases hint with
  | none => rfl
  | some hint => exact withoutHintsAmong_putMember (.string hint) members

mutual

theorem withoutHints_annotate (value : Json) : value.annotate.withoutHints = value.withoutHints := by
  cases value with
  | array elements =>
    rw [annotate, withoutHints, withoutHints, withoutHintsInAll_annotateElements elements]
  | object members =>
    rw [annotate, withoutHints, withoutHints, withoutHintsAmong_addHint,
      withoutHintsAmong_annotateMembers members]
  | _ => rfl

theorem withoutHintsInAll_annotateElements (elements : List Json) :
    withoutHintsInAll (annotateElements elements) = withoutHintsInAll elements := by
  cases elements with
  | nil => rfl
  | cons element elements =>
    rw [annotateElements, withoutHintsInAll, withoutHintsInAll, withoutHints_annotate element,
      withoutHintsInAll_annotateElements elements]

theorem withoutHintsAmong_annotateMembers (members : List (String × Json)) :
    withoutHintsAmong (annotateMembers members) = withoutHintsAmong members := by
  match members with
  | [] => rfl
  | (key, value) :: members =>
    rw [annotateMembers, withoutHintsAmong, withoutHintsAmong, withoutHints_annotate value,
      withoutHintsAmong_annotateMembers members]

end

end Json

open Json

theorem hint?_eq_some {members : List (String × Json)} {hint : String} :
    hint? members = some hint ↔
      hasMember enumKey members = false ∧
        ∃ marker, members.lookup markerKey = some marker ∧ hintText marker = hint ∧ hint ≠ "" := by
  rw [hint?]
  cases hasMember enumKey members with
  | true => simp
  | false =>
    rw [if_neg Bool.false_ne_true, Option.filter_eq_some_iff, Option.map_eq_some_iff]
    simp only [true_and, Bool.not_eq_true', String.isEmpty_eq_false_iff]
    constructor
    · rintro ⟨⟨marker, found, same⟩, filled⟩
      exact ⟨marker, found, same, filled⟩
    · rintro ⟨marker, found, same, filled⟩
      exact ⟨⟨marker, found, same⟩, filled⟩

theorem keys_annotateMembers (members : List (String × Json)) :
    (annotateMembers members).map (·.1) = members.map (·.1) := by
  rw [annotateMembers_eq, List.map_map]
  rfl

theorem lookup_annotateMembers (key : String) (members : List (String × Json)) :
    (annotateMembers members).lookup key = (members.lookup key).map annotate := by
  rw [annotateMembers_eq, lookup_map_member fun _ => annotate]

theorem annotatedNode_hinted {members : List (String × Json)} {hint : String}
    (called : hint? members = some hint) :
    (annotatedNode members).lookup hintKey = some (.string hint) ∧
      (annotatedNode members).map (·.1) =
        if hasMember hintKey members then members.map (·.1) else members.map (·.1) ++ [hintKey] := by
  have present : hasMember hintKey (annotateMembers members) = hasMember hintKey members := by
    rw [hasMember, lookup_annotateMembers, Option.isSome_map, hasMember]
  rw [annotatedNode, called, addHint]
  refine ⟨lookup_putMember_self hintKey (.string hint) (annotateMembers members), ?_⟩
  rw [keys_putMember, present, keys_annotateMembers]

theorem annotatedNode_unhinted {members : List (String × Json)} (uncalled : hint? members = none) :
    (annotatedNode members).lookup hintKey = (members.lookup hintKey).map annotate ∧
      (annotatedNode members).map (·.1) = members.map (·.1) := by
  rw [annotatedNode, uncalled, addHint]
  exact ⟨lookup_annotateMembers hintKey members, keys_annotateMembers members⟩

namespace Json

/-- One step is taken after annotation as before, unless it is to a hint that is written over. -/
theorem part?_annotate {token : String} {value : Json}
    (kept : ∀ members, value = .object members → token = hintKey → hint? members = none) :
    value.annotate.part? token = (value.part? token).map annotate := by
  cases value with
  | object members =>
    by_cases hinting : token = hintKey
    · subst hinting
      exact (annotatedNode_unhinted (kept members rfl rfl)).1
    · exact lookup_annotatedNode hinting members
  | array elements =>
    rw [annotate, annotateElements_eq, part?, part?]
    cases elementIndex? token with
    | none => rfl
    | some position => exact List.getElem?_map
  | _ => rfl

theorem select?_annotate {pointer : Pointer} (around : hintKey ∉ pointer) (value : Json) :
    value.annotate.select? pointer = (value.select? pointer).map annotate := by
  induction pointer generalizing value with
  | nil => rfl
  | cons token pointer ih =>
    rw [List.mem_cons, not_or] at around
    rw [select?, select?, part?_annotate fun _ _ same => absurd same.symm around.1]
    cases value.part? token with
    | none => rfl
    | some part => exact ih around.2 part

end Json

/--
Annotation is additive. Without hints nothing has changed, not even the order of keys. A node that is
reached without a step to a hint, lists no literals and has a marker that maps to some text gets this
text as its hint, in the place of the old hint if it had one and last otherwise; any other node keeps
its keys, and its hint if it had one, annotated.
-/
theorem annotate_additive (value : Json) :
    value.annotate.withoutHints = value.withoutHints ∧
      ∀ (pointer : Pointer) (members : List (String × Json)), hintKey ∉ pointer →
        value.select? pointer = some (.object members) →
          ∃ annotated, value.annotate.select? pointer = some (.object annotated) ∧
            (∀ marker, hasMember enumKey members = false → members.lookup markerKey = some marker →
              hintText marker ≠ "" →
                annotated.lookup hintKey = some (.string (hintText marker)) ∧
                  annotated.map (·.1) =
                    if hasMember hintKey members then members.map (·.1)
                    else members.map (·.1) ++ [hintKey]) ∧
            ((hasMember enumKey members = true ∨
                ∀ marker, members.lookup markerKey = some marker → hintText marker = "") →
              annotated.lookup hintKey = (members.lookup hintKey).map annotate ∧
                annotated.map (·.1) = members.map (·.1)) := by
  refine ⟨withoutHints_annotate value, fun pointer members around found => ?_⟩
  refine ⟨annotatedNode members, ?_, ?_, ?_⟩
  · rw [select?_annotate around, found]
    rfl
  · intro marker open_ended marked filled
    apply annotatedNode_hinted
    exact hint?_eq_some.mpr ⟨open_ended, marker, marked, rfl, filled⟩
  · intro uncalled
    apply annotatedNode_unhinted
    rw [Option.eq_none_iff_forall_ne_some]
    intro hint called
    obtain ⟨open_ended, marker, marked, same, filled⟩ := hint?_eq_some.mp called
    rcases uncalled with closed | empty
    · rw [open_ended] at closed
      cases closed
    · rw [empty marker marked] at same
      exact filled same.symm

/-- An order whose first total has a hint that holds a marked value, and whose second lists literals. -/
def markedOrder : Json :=
  .object [("properties", .array [
    .object [
      ("tsType", .object [("bsonType", .string "date")]),
      ("bsonType", .array [.string "decimal", .string "objectId", .string "null"])],
    .object [
      ("bsonType", .string "decimal"),
      ("tsType", .object [("bsonType", .string "date")]),
      ("enum", .array [.object [("bsonType", .string "bool")]])]])]

theorem markedOrder_additive :
    (∃ annotated, markedOrder.annotate.select? ["properties", "0"] = some (.object annotated) ∧
      annotated.lookup "tsType" = some (.string "Decimal128|null") ∧
      annotated.map (·.1) = ["tsType", "bsonType"]) ∧
    ∃ annotated, markedOrder.annotate.select? ["properties", "1"] = some (.object annotated) ∧
      annotated.lookup "tsType" =
        some (.object [("bsonType", .string "date"), ("tsType", .string "Date")]) ∧
      annotated.map (·.1) = ["bsonType", "tsType", "enum"] := by
  have nodes := (annotate_additive markedOrder).2
  constructor
  · obtain ⟨annotated, found, hinted, _⟩ := nodes ["properties", "0"] _ (by decide) rfl
    obtain ⟨hint, keys⟩ := hinted (.array [.string "decimal", .string "objectId", .string "null"])
      (by decide +kernel) (by decide +kernel) (by decide +kernel)
    exact ⟨annotated, found, hint, keys⟩
  · obtain ⟨annotated, found, _, unhinted⟩ := nodes ["properties", "1"] _ (by decide) rfl
    obtain ⟨hint, keys⟩ := unhinted (Or.inl (by decide +kernel))
    exact ⟨annotated, found, hint, keys⟩

end SchemaTypes
