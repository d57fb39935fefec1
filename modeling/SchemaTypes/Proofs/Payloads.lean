import SchemaTypes.Proofs.Additivity
import SchemaTypes.Proofs.TypingSteps

/-!
Literals under annotation. A node is found after annotation exactly if no step to it is a hint that is
written over, and its literals are annotated like everything else: they are kept as they are exactly if
no object in them calls for a hint other than the one that it has.
-/

namespace SchemaTypes

def payloadKeys : List String := ["enum", "const"]

/-- A node that calls for no hint but the one that it has. -/
def isHintSettled (members : List (String × Json)) : Bool :=
  (hint? members).all fun hint => stringMember hintKey members = some hint

section

variable {Value : Type} {key : String} {value : Value} {members : List (String × Value)}

theorem putMember_of_lookup (found : members.lookup key = some value) :
    putMember key value members = members := by
  induction members with
  | nil => cases found
  | cons member members ih =>
    obtain ⟨name, content⟩ := member
    by_cases same : name = key
    · subst same
      rw [List.lookup_cons_self, Option.some.injEq] at found
      rw [putMember, if_pos rfl, found]
    · rw [lookup_cons_of_ne (Ne.symm same)] at found
      rw [putMember, if_neg same, ih found]

theorem putMember_map_eq_self (change : Value → Value) (fixed : change value = value) :
    putMember key value (members.map fun member => (member.1, change member.2)) = members ↔
      (members.map fun member => (member.1, change member.2)) = members ∧
        members.lookup key = some value := by
  constructor
  · intro undone
    have here := lookup_putMember_self key value (members.map fun member => (member.1, change member.2))
    rw [undone] at here
    refine ⟨?_, here⟩
    induction members with
    | nil => rfl
    | cons member members ih =>
      obtain ⟨name, content⟩ := member
      rw [List.map_cons, putMember] at undone
      split at undone
      · obtain ⟨first, others⟩ := List.cons.inj undone
        cases first
        rw [List.map_cons, fixed, others]
      · rename_i other
        obtain ⟨first, others⟩ := List.cons.inj undone
        rw [lookup_cons_of_ne (Ne.symm other)] at here
        rw [List.map_cons, first, ih others here]
  · rintro ⟨unchanged, here⟩
    rw [unchanged]
    exact putMember_of_lookup here

end

theorem stringMember_eq_some {key text : String} {members : List (String × Json)} :
    stringMember key members = some text ↔ members.lookup key = some (.string text) := by
  rw [stringMember, Option.bind_eq_some_iff]
  simp only [Json.string?_eq_some, exists_eq_right]

theorem annotatedNode_eq_self {members : List (String × Json)} :
    annotatedNode members = members ↔
      Json.annotateMembers members = members ∧ isHintSettled members = true := by
  rw [annotatedNode, isHintSettled]
  cases hint? members with
  | none => simp [addHint]
  | some hint =>
    rw [addHint, annotateMembers_eq, putMember_map_eq_self Json.annotate rfl]
    simp [stringMember_eq_some]

namespace Json

mutual

/-- Annotation leaves a value as it is exactly if every object in it is settled. -/
theorem annotate_eq_self (value : Json) :
    value.annotate = value ↔ value.everyObject isHintSettled = true := by
  match value with
  | .array elements =>
    rw [annotate, everyObject, array.injEq, annotateElements_eq_self elements]
  | .object members =>
    rw [annotate, everyObject, object.injEq, Bool.and_eq_true, ← annotateMembers_eq_self members]
    exact annotatedNode_eq_self.trans And.comm
  | .null => simp [annotate, everyObject]
  | .boolean _ => simp [annotate, everyObject]
  | .number _ => simp [annotate, everyObject]
  | .string _ => simp [annotate, everyObject]

theorem annotateElements_eq_self (elements : List Json) :
    annotateElements elements = elements ↔ everyObjectAmong isHintSettled elements = true := by
  match elements with
  | [] => simp [annotateElements, everyObjectAmong]
  | element :: elements =>
    rw [annotateElements, everyObjectAmong, List.cons.injEq, Bool.and_eq_true,
      annotate_eq_self element, annotateElements_eq_self elements]

theorem annotateMembers_eq_self (members : List (String × Json)) :
    annotateMembers members = members ↔ everyObjectUnder isHintSettled members = true := by
  match members with
  | [] => simp [annotateMembers, everyObjectUnder]
  | (key, value) :: members =>
    rw [annotateMembers, everyObjectUnder, List.cons.injEq, Bool.and_eq_true, Prod.mk.injEq,
      annotate_eq_self value, annotateMembers_eq_self members]
    simp

end

/-- A step of the pointer is to a hint that annotation writes over. -/
def Overwritten (value : Json) (pointer : Pointer) : Prop :=
  ∃ front back holder, pointer = front ++ hintKey :: back ∧
    value.select? front = some (.object holder) ∧ (hint? holder).isSome = true

theorem Overwritten.deeper {token : String} {pointer : Pointer} {value part : Json}
    (step : value.part? token = some part) (overwritten : part.Overwritten pointer) :
    value.Overwritten (token :: pointer) := by
  obtain ⟨front, back, holder, rfl, found, called⟩ := overwritten
  refine ⟨token :: front, back, holder, rfl, ?_, called⟩
  rw [select?, step]
  exact found

theorem overwritten_cons {token : String} {pointer : Pointer} {value : Json}
    (overwritten : value.Overwritten (token :: pointer)) :
    (token = hintKey ∧ ∃ members, value = .object members ∧ (hint? members).isSome = true) ∨
      ∃ part, value.part? token = some part ∧ part.Overwritten pointer := by
  obtain ⟨front, back, holder, same, found, called⟩ := overwritten
  cases front with
  | nil =>
    obtain ⟨rfl, rfl⟩ := List.cons.inj same
    cases found
    exact Or.inl ⟨rfl, holder, rfl, called⟩
  | cons first front =>
    obtain ⟨rfl, rfl⟩ := List.cons.inj same
    obtain ⟨part, step, reached⟩ := Option.bind_eq_some_iff.mp found
    exact Or.inr ⟨part, step, front, back, holder, rfl, reached, called⟩

theorem select?_annotate_of {pointer : Pointer} {value : Json}
    (kept : ¬value.Overwritten pointer) :
    value.annotate.select? pointer = (value.select? pointer).map annotate := by
  induction pointer generalizing value with
  | nil => rfl
  | cons token pointer ih =>
    -- Not being written over is kept by the steps of the pointer, from each value to its part.
    have first : ∀ members, value = .object members → token = hintKey → hint? members = none := by
      rintro members rfl rfl
      by_contra called
      exact kept ⟨[], pointer, members, rfl, rfl, Option.isSome_iff_ne_none.mpr called⟩
    rw [select?, select?, part?_annotate first]
    cases step : value.part? token with
    | none => rfl
    | some part => exact ih fun overwritten => kept (overwritten.deeper step)

/-- Whatever is found behind a hint that was written over is the text of a hint. -/
theorem string_of_overwritten {pointer : Pointer} {value found : Json}
    (overwritten : value.Overwritten pointer) (reached : value.annotate.select? pointer = some found) :
    ∃ hint, found = .string hint := by
  induction pointer generalizing value with
  | nil =>
    obtain ⟨front, back, _, same, _⟩ := overwritten
    cases front <;> cases same
  | cons token pointer ih =>
    -- A text that was written has no parts, so it is all that can be found behind the step to it.
    have written : ∀ members, value = .object members → token = hintKey →
        (hint? members).isSome = true → ∃ hint, found = .string hint := by
      rintro members rfl rfl called
      obtain ⟨hint, called⟩ := Option.isSome_iff_exists.mp called
      obtain ⟨part, step, inner⟩ := Option.bind_eq_some_iff.mp reached
      have here : part = .string hint :=
        Option.some.inj (step.symm.trans (annotatedNode_hinted called).1)
      subst here
      cases pointer with
      | nil => exact ⟨hint, (Option.some.inj inner).symm⟩
      | cons next pointer => cases inner
    rcases overwritten_cons overwritten with ⟨hinting, members, same, called⟩ | ⟨part, step, deeper⟩
    · exact written members same hinting called
    · by_cases kept : ∀ members, value = .object members → token = hintKey → hint? members = none
      · rw [select?, part?_annotate kept, step] at reached
        exact ih deeper reached
      · push Not at kept
        obtain ⟨members, same, hinting, called⟩ := kept
        exact written members same hinting (Option.isSome_iff_ne_none.mpr called)

theorem node_annotate_iff {pointer : Pointer} {value : Json} {members : List (String × Json)}
    (reached : value.select? pointer = some (.object members)) :
    (∃ annotated, value.annotate.select? pointer = some (.object annotated)) ↔
      ¬value.Overwritten pointer := by
  constructor
  · rintro ⟨annotated, found⟩ overwritten
    obtain ⟨hint, same⟩ := string_of_overwritten overwritten found
    cases same
  · intro kept
    refine ⟨annotatedNode members, ?_⟩
    rw [select?_annotate_of kept, reached]
    rfl

end Json

open Json

theorem string?_hint_annotatedNode {members : List (String × Json)} (uncalled : hint? members = none) :
    stringMember hintKey (annotatedNode members) = stringMember hintKey members := by
  rw [stringMember, stringMember, (annotatedNode_unhinted uncalled).1, Option.bind_map]
  exact congrArg _ (funext string?_annotate)

theorem body_of_enum {members : List (String × Json)} {literals : List Json}
    (unhinted : stringMember hintKey members = none)
    (listed : members.lookup "enum" = some (.array literals)) (ignoreBounds : Bool) :
    (Schema.ofJson (.object members)).body ignoreBounds =
      pure (TypeExpr.unionOf (literals.map .literal)) := by
  have fixed : fixedType (readHead members) =
      .given (TypeExpr.unionOf (literals.map .literal)) := by
    have verbatim : (readHead members).verbatim = none := unhinted
    have enumeration : (readHead members).enumeration = .given literals := by
      simp [readHead, readKeyword, listed, Json.elements?, Keyword.ofShape]
    rw [fixedType, verbatim, enumeration]
  rw [ofJson_object, body_node, fixed]

theorem body_of_const {members : List (String × Json)} {literal : Json}
    (unhinted : stringMember hintKey members = none) (unlisted : members.lookup "enum" = none)
    (constant : members.lookup "const" = some literal) (ignoreBounds : Bool) :
    (Schema.ofJson (.object members)).body ignoreBounds = pure (.literal literal) := by
  have fixed : fixedType (readHead members) = .given (.literal literal) := by
    have verbatim : (readHead members).verbatim = none := unhinted
    have enumeration : (readHead members).enumeration = .absent := by
      simp [readHead, readKeyword, unlisted]
    have constant' : (readHead members).constant = some literal := constant
    rw [fixedType, verbatim, enumeration, constant']
  rw [ofJson_object, body_node, fixed]

theorem annotate_of_canBeEnumMember {value : Json} (can : canBeEnumMember value = true) :
    value.annotate = value := by
  cases value with
  | array elements => cases can
  | object members => cases can
  | _ => rfl

theorem canBeEnumMember_annotate (value : Json) :
    canBeEnumMember value.annotate = canBeEnumMember value := by
  cases value <;> rfl

theorem strings?_annotate (value : Json) : value.annotate.strings? = value.strings? := by
  cases value with
  | array elements =>
    have same : (elements.map annotate).mapM string? = elements.mapM string? := by
      rw [List.mapM_map]
      exact congrArg (elements.mapM ·) (funext string?_annotate)
    rw [annotate, annotateElements_eq]
    exact same
  | _ => rfl

theorem enumMembers?_annotatedNode (members : List (String × Json)) :
    enumMembers? (readHead (annotatedNode members)) = enumMembers? (readHead members) := by
  have names : (readHead (annotatedNode members)).enumNames = (readHead members).enumNames := by
    simp only [readHead, lookup_annotatedNode (by decide : "tsEnumNames" ≠ hintKey), Option.bind_map]
    exact congrArg _ (funext strings?_annotate)
  have listing : (annotatedNode members).lookup "enum" = (members.lookup "enum").map annotate :=
    lookup_annotatedNode (by decide) members
  rw [enumMembers?, enumMembers?, names]
  cases named : (readHead members).enumNames with
  | none => simp
  | some texts =>
    simp only [readHead, readKeyword, listing]
    cases members.lookup "enum" with
    | none => rfl
    | some value =>
      cases value with
      | array literals =>
        simp only [Option.map_some, annotate, annotateElements_eq, elements?, Keyword.ofShape,
          List.length_map, List.all_map, Function.comp_def, canBeEnumMember_annotate]
        split
        · rename_i fits
          have each : ∀ literal ∈ literals, literal.annotate = literal := fun literal inside =>
            annotate_of_canBeEnumMember (List.all_eq_true.mp fits.2 literal inside)
          rw [List.map_congr_left each, List.map_id']
        · rfl
      | _ => rfl

/--
A node is found after annotation exactly if no step to it is to a hint that is written over. What is
found has the literals from before exactly if no object in them calls for a hint other than the one that
it has, has the named members from before in any case, and without a hint of its own is typed by its
literals after annotation.
-/
theorem literals_kept (value : Json) (pointer : Pointer) (members : List (String × Json))
    (reached : value.select? pointer = some (.object members)) :
    ((∃ annotated, value.annotate.select? pointer = some (.object annotated)) ↔
        ¬value.Overwritten pointer) ∧
      ∀ annotated, value.annotate.select? pointer = some (.object annotated) →
        (∀ key ∈ payloadKeys, ∀ payload, members.lookup key = some payload →
          (annotated.lookup key = some payload ↔ payload.everyObject isHintSettled = true)) ∧
        enumMembers? (readHead annotated) = enumMembers? (readHead members) ∧
        (hint? members = none → stringMember hintKey members = none → ∀ ignoreBounds,
          (∀ literals, members.lookup "enum" = some (.array literals) →
            (Schema.ofJson (.object annotated)).body ignoreBounds =
              pure (TypeExpr.unionOf ((literals.map annotate).map .literal))) ∧
          ∀ literal, members.lookup "enum" = none → members.lookup "const" = some literal →
            (Schema.ofJson (.object annotated)).body ignoreBounds = pure (.literal literal.annotate)) := by
  refine ⟨node_annotate_iff reached, fun annotated found => ?_⟩
  have kept : ¬value.Overwritten pointer := (node_annotate_iff reached).mp ⟨annotated, found⟩
  obtain rfl : annotatedNode members = annotated := by
    rw [select?_annotate_of kept, reached] at found
    exact Json.object.inj (Option.some.inj found)
  have apart : ∀ key ∈ payloadKeys, key ≠ hintKey := by decide
  refine ⟨?_, enumMembers?_annotatedNode members, fun uncalled unhinted ignoreBounds => ⟨?_, ?_⟩⟩
  · intro key holding payload given
    rw [lookup_annotatedNode (apart key holding), given, ← annotate_eq_self]
    simp
  · intro literals listed
    apply body_of_enum ((string?_hint_annotatedNode uncalled).trans unhinted)
    rw [lookup_annotatedNode (by decide), listed, Option.map_some, annotate, annotateElements_eq]
  · intro literal unlisted constant
    apply body_of_const ((string?_hint_annotatedNode uncalled).trans unhinted)
    · rw [lookup_annotatedNode (by decide), unlisted, Option.map_none]
    · rw [lookup_annotatedNode (by decide), constant, Option.map_some]

def markedLiterals : Json :=
  .object [("properties", .object [
    ("kept", .object [("enum", .array [
      .string "air", .object [("bsonType", .string "objectId"), ("type", .string "string")]])]),
    ("changed", .object [("const", .object [("bsonType", .string "date")])])])]

theorem markedLiterals_kept :
    (∃ annotated, markedLiterals.annotate.select? ["properties", "kept"] = some (.object annotated) ∧
      annotated.lookup "enum" = some (.array [
        .string "air", .object [("bsonType", .string "objectId"), ("type", .string "string")]])) ∧
    ∃ annotated, markedLiterals.annotate.select? ["properties", "changed"] =
        some (.object annotated) ∧
      annotated.lookup "const" ≠ some (.object [("bsonType", .string "date")]) ∧
      (Schema.ofJson (.object annotated)).body false =
        pure (.literal (.object [("bsonType", .string "date"), ("tsType", .string "Date")])) := by
  have around : ∀ name, name ≠ hintKey → ¬markedLiterals.Overwritten ["properties", name] := by
    rintro name other ⟨front, back, holder, same, _⟩
    have inside : hintKey ∈ ["properties", name] := by simp [same]
    simp [hintKey] at inside
    exact other inside.symm
  constructor
  · obtain ⟨found, kept⟩ := literals_kept markedLiterals ["properties", "kept"] _ rfl
    obtain ⟨annotated, reached⟩ := found.mpr (around "kept" (by decide))
    refine ⟨annotated, reached, ?_⟩
    exact ((kept annotated reached).1 "enum" (by decide) _ rfl).mpr (by decide +kernel)
  · obtain ⟨found, kept⟩ := literals_kept markedLiterals ["properties", "changed"] _ rfl
    obtain ⟨annotated, reached⟩ := found.mpr (around "changed" (by decide))
    obtain ⟨held, _, typed⟩ := kept annotated reached
    refine ⟨annotated, reached, fun same => ?_, ?_⟩
    · have settled := (held "const" (by decide) _ rfl).mp same
      revert settled
      decide +kernel
    · rw [(typed (by decide +kernel) (by decide +kernel) false).2 _ rfl rfl]
      congr 2

end SchemaTypes
