import SchemaTypes.Proofs.Selections

/-!
Annotation settles a value. Annotating a marker does not change what it maps to, so an annotated node
calls for the hint that it was given and for no other, and annotating once more changes nothing.
-/

namespace SchemaTypes

open Json

theorem hintMembers_annotate (marker : Json) : hintMembers marker.annotate = hintMembers marker := by
  cases marker with
  | array names => rw [annotate, hintMembers, hintMembers, texts_annotateElements]
  | _ => rfl

theorem hintText_annotate (marker : Json) : hintText marker.annotate = hintText marker := by
  rw [hintText, hintText, hintMembers_annotate]

/-- A hint depends on `bsonType` and `enum` only, and these are no hints that could be written over. -/
theorem hint?_annotatedNode (members : List (String × Json)) :
    hint? (annotatedNode members) = hint? members := by
  have marker := lookup_annotatedNode (by decide : markerKey ≠ hintKey) members
  have listing : hasMember enumKey (annotatedNode members) = hasMember enumKey members := by
    rw [hasMember, hasMember, lookup_annotatedNode (by decide), Option.isSome_map]
  rw [hint?, hint?, marker, listing, Option.map_map]
  simp only [Function.comp_def, hintText_annotate]

theorem isHintSettled_annotatedNode (members : List (String × Json)) :
    isHintSettled (annotatedNode members) = true := by
  rw [isHintSettled, hint?_annotatedNode]
  cases called : hint? members with
  | none => rfl
  | some hint =>
    have written := (annotatedNode_hinted called).1
    simpa [stringMember_eq_some] using written

theorem settled_annotate (value : Json) : value.annotate.everyObject isHintSettled = true := by
  cases value with
  | array elements =>
    rw [annotate, annotateElements_eq, everyObject_array, List.forall_mem_map]
    exact fun element _ => settled_annotate element
  | object members =>
    rw [annotate, ← annotatedNode, everyObject_object]
    refine ⟨isHintSettled_annotatedNode members, fun member inside => ?_⟩
    -- A member is the hint that was written, or a member from before, annotated.
    rcases mem_annotatedNode inside with ⟨hint, written⟩ | ⟨⟨_, part⟩, before, annotated⟩
    · rw [written]
      rfl
    · rw [annotated]
      exact settled_annotate part
  | _ => rfl
termination_by sizeOf value
decreasing_by
  · have smaller := List.sizeOf_lt_of_mem ‹_›
    simp only [array.sizeOf_spec]
    omega
  · have smaller := List.sizeOf_lt_of_mem before
    simp only [object.sizeOf_spec, Prod.mk.sizeOf_spec] at smaller ⊢
    omega

/--
Annotation is idempotent, to the order of the keys. Each object of an annotated value calls for the hint
that the object it was made from called for, if for any, and has this hint already.
-/
theorem annotate_idempotent (value : Json) :
    value.annotate.annotate = value.annotate ∧
      ∀ (pointer : Pointer) (annotated : List (String × Json)),
        value.annotate.select? pointer = some (.object annotated) →
          ∃ members, value.select? pointer = some (.object members) ∧
            hint? annotated = hint? members ∧
            ∀ hint, hint? members = some hint → annotated.lookup hintKey = some (.string hint) := by
  constructor
  · rw [annotate_eq_self]
    exact settled_annotate value
  · intro pointer annotated found
    obtain ⟨members, source, _, rfl⟩ := select?_annotate_iff.mp found
    have same := hint?_annotatedNode members
    exact ⟨members, source, same, fun hint called => (annotatedNode_hinted called).1⟩

theorem markedOrder_settled :
    markedOrder.annotate.annotate = markedOrder.annotate ∧
      ∃ annotated, markedOrder.annotate.select? ["properties", "0"] = some (.object annotated) ∧
        hint? annotated = some "Decimal128|null" ∧
          annotated.lookup hintKey = some (.string "Decimal128|null") := by
  obtain ⟨same, again⟩ := annotate_idempotent markedOrder
  obtain ⟨members, source, called, written⟩ := again ["properties", "0"] _ rfl
  obtain rfl := Json.object.inj (Option.some.inj source)
  have hint : hint? [("tsType", .object [("bsonType", .string "date")]),
      ("bsonType", .array [.string "decimal", .string "objectId", .string "null"])] =
        some "Decimal128|null" := by
    decide +kernel
  exact ⟨same, _, rfl, called.trans hint, written _ hint⟩

end SchemaTypes
