import SchemaTypes.Proofs.Events
import SchemaTypes.Proofs.TypingSteps

/-!
Lengths of arrays. A list type admits every length, and a tuple type those from its required elements
to all that are spelled out, or on where more may follow. A list keeps its lengths when the bounds are
ignored. Positional elements are all required then, so they do only if no bound was below their number.
-/

namespace SchemaTypes

open Draft

def TypeExpr.AdmitsLength : TypeExpr → Nat → Prop
  | .list _, _ => True
  | .tuple elements required rest, length =>
    required ≤ length ∧ (rest = none → length ≤ elements.length)
  | _, _ => False

/-- The node has no fixed answer, combines nothing, and is of the one kind of arrays. -/
structure ArrayNode (members : List (String × Json)) : Prop where
  unfixed : Unfixed members
  uncombined : ∀ key ∈ combiningKeys, members.lookup key = none
  kind : effectiveNames members = ["array"]

section

variable {ignoreBounds : Bool} {members : List (String × Json)} {declared : List Declaration}
  {type : TypeExpr}

theorem effectiveKinds_of_names {name : String} {names : List String}
    (kinds : effectiveNames members = name :: names) :
    effectiveKinds (readHead members).kinds
        (hasMember "properties" members || hasMember "additionalProperties" members ||
          hasMember "required" members) (hasMember "items" members) =
      .given ((name :: names).map Kind.ofName) := by
  simp only [readHead, readKeyword]
  unfold effectiveNames at kinds
  cases found : members.lookup "type" with
  | none =>
    simp only [found] at kinds
    simp only [effectiveKinds]
    split at kinds
    · rename_i shaped
      rw [if_pos shaped, ← kinds]
      rfl
    · rename_i unshaped
      rw [if_neg unshaped]
      split at kinds
      · rename_i shaped
        rw [if_pos shaped, ← kinds]
        rfl
      · cases kinds
  | some value =>
    simp only [found] at kinds
    cases named : typeNames? value with
    | none => simp [named] at kinds
    | some others =>
      obtain rfl : others = name :: names := by simpa [named] using kinds
      simp only [readKinds_eq, named]
      rfl

theorem boundedList_arms (item : TypeExpr) (least : Nat) (most : Option Nat) :
    (boundedList item least most).arms = [boundedList item least most] ∧
      (boundedList item least most).parts = [boundedList item least most] := by
  unfold boundedList listFrom
  repeat' split
  all_goals exact ⟨rfl, rfl⟩

theorem arrayDraft_arms {head : Head} {items : Keyword (Items Schema)}
    {additionalItems : Option Schema}
    (drawn : (arrayDraft ignoreBounds head items additionalItems).Contributes type declared) :
    type.arms = [type] ∧ type.parts = [type] := by
  rcases placed_itemsDraft drawn with ⟨_, rfl⟩ | ⟨_, _, _, _, rfl⟩ | ⟨_, _, _, _, _, _, rfl⟩
  · exact boundedList_arms _ _ _
  · exact boundedList_arms _ _ _
  · exact ⟨rfl, rfl⟩

theorem unionOf_single (arms : type.arms = [type]) : TypeExpr.unionOf [type] = type := by
  simp [TypeExpr.unionOf, arms, TypeExpr.distinct_cons, TypeExpr.distinct_nil]

theorem combined_single (parts : type.parts = [type]) : combined none none none (some type) = type := by
  simp [combined, TypeExpr.intersectionOf, parts]

def arrayTypeDraft (ignoreBounds : Bool) (members : List (String × Json)) : Draft TypeExpr :=
  arrayDraft ignoreBounds (readHead members) (Schema.itemsOf members) (Schema.additionalItemsOf members)

theorem ArrayNode.body_eq (array : ArrayNode members) :
    (Schema.ofJson (.object members)).body ignoreBounds =
      (fun type => combined none none none (some (TypeExpr.unionOf [type]))) <$>
        arrayTypeDraft ignoreBounds members := by
  have unfixed : fixedType (readHead members) = .absent := by
    simp [fixedType, readHead, readKeyword, array.unfixed.verbatim, array.unfixed.enumeration,
      array.unfixed.constant]
  have uncombined : ∀ key ∈ combiningKeys, ∀ fault, Schema.armsOf key fault members = .absent := by
    intro key combining fault
    simp [Schema.armsOf, readKeyword, array.uncombined key combining]
  have kinds : effectiveKinds (readHead members).kinds
      ((Schema.propertiesOf members).isPresent || (Schema.additionalPropertiesOf members).isPresent ||
        (readHead members).required.isPresent) (Schema.itemsOf members).isPresent =
      .given [.array] := by
    simp only [Schema.propertiesOf, Schema.additionalPropertiesOf, Schema.itemsOf,
      isPresent_readKeyword, isPresent_required]
    exact effectiveKinds_of_names array.kind
  rw [ofJson_object, body_node, unfixed]
  simp only [openDraft, uncombined "allOf" (by decide), uncombined "anyOf" (by decide),
    uncombined "oneOf" (by decide), armDrafts, Draft.pure_bind, ownDraft, kinds, typedPart, kindDrafts,
    kindDraft, map_pure, bind_pure_comp, Functor.map_map]
  rfl

theorem ArrayNode.drafted (array : ArrayNode members)
    (drawn : ((Schema.ofJson (.object members)).body ignoreBounds).Contributes type declared) :
    (arrayTypeDraft ignoreBounds members).Contributes type declared := by
  rw [array.body_eq] at drawn
  obtain ⟨type, drafted, rfl⟩ := contributes_map drawn
  have single := arrayDraft_arms drafted
  rw [unionOf_single single.1, combined_single single.2]
  exact drafted

theorem itemsOf_array {parts : List Json} (given : members.lookup "items" = some (.array parts)) :
    Schema.itemsOf members = .given (.positional (parts.map Schema.ofJson)) := by
  simp [Schema.itemsOf, readKeyword, given, Schema.itemsOf?, Schema.listOf?, Json.elements?,
    Keyword.ofShape]

theorem arrayDraft_cases
    (drawn : (arrayTypeDraft ignoreBounds members).Contributes type declared) :
    (∃ item, (∀ parts, members.lookup "items" ≠ some (.array parts)) ∧
        type = boundedList item ((bound ignoreBounds (readHead members).minItems).getD 0)
          (bound ignoreBounds (readHead members).maxItems)) ∨
      ∃ parts types rest, members.lookup "items" = some (.array parts) ∧
        types.length = parts.length ∧
        (restDraft ignoreBounds (isFull (bound ignoreBounds (readHead members).maxItems)
            (noMoreThan (bound ignoreBounds (readHead members).maxItems) types).length)
          (Schema.additionalItemsOf members)).Contributes rest declared ∧
        type = positionalTuple (bound ignoreBounds (readHead members).minItems)
          (noMoreThan (bound ignoreBounds (readHead members).maxItems) types) rest := by
  rcases placed_itemsDraft drawn with ⟨absent, same⟩ | ⟨schema, item, every, _, same⟩ |
    ⟨schemas, types, rest, positional, placed, resting, same⟩
  · refine Or.inl ⟨.unknown, ?_, same⟩
    intro parts given
    rw [itemsOf_array given] at absent
    cases absent
  · refine Or.inl ⟨item, ?_, same⟩
    intro parts given
    rw [itemsOf_array given] at every
    cases every
  · obtain ⟨parts, given, rfl⟩ := itemsOf_eq_positional positional
    have length := placed.length_eq
    rw [List.length_map] at length
    exact Or.inr ⟨parts, types, rest, given, length.symm, resting, same⟩

/-- A tuple that may not go on when the bounds are ignored may not go on when they count. -/
theorem restless_of_unbounded {full : Bool} {restriction : Option Schema}
    {rest : Option TypeExpr} {declared' : List Declaration}
    (unbounded : (restDraft true false restriction).Contributes none declared)
    (bounded : (restDraft false full restriction).Contributes rest declared') : rest = none := by
  rcases placed_restDraft unbounded with ⟨_, full | never⟩ | ⟨_, given⟩ | ⟨_, _, _, _, given, _⟩
  · cases full
  · subst never
    exact contributes_pure bounded
  · cases given
  · cases given

theorem admitsLength_positionalTuple {least : Option Nat} {elements : List TypeExpr}
    {rest : Option TypeExpr} {length : Nat} :
    (positionalTuple least elements rest).AdmitsLength length ↔
      min (least.getD elements.length) elements.length ≤ length ∧
        (rest = none → length ≤ elements.length) :=
  Iff.rfl

theorem length_noMoreThan_eq_min (most : Option Nat) (types : List TypeExpr) :
    (noMoreThan most types).length = min (most.getD types.length) types.length := by
  cases most <;> simp [noMoreThan]

/--
A bounded tuple admits its number of required elements, and an unbounded one no less than all that are
spelled out; so neither bound is below these.
-/
theorem positionalTuple_kept_iff (least most : Option Nat) {types others : List TypeExpr}
    {rest rest' : Option TypeExpr} (same : others.length = types.length)
    (restless : rest' = none → rest = none) :
    (∀ length, (positionalTuple least (noMoreThan most types) rest).AdmitsLength length →
        (positionalTuple none others rest').AdmitsLength length) ↔
      (∀ limit, least = some limit → types.length ≤ limit) ∧
        ∀ limit, most = some limit → types.length ≤ limit := by
  simp only [admitsLength_positionalTuple, length_noMoreThan_eq_min, same, Option.getD_none,
    Nat.min_self]
  constructor
  · intro kept
    have shortest := kept _ ⟨Nat.le_refl _, fun _ => Nat.min_le_right _ _⟩
    have needed := shortest.1
    constructor
    · rintro limit rfl
      simp only [Option.getD_some] at needed
      omega
    · rintro limit rfl
      simp only [Option.getD_some] at needed
      omega
  · rintro ⟨atLeast, atMost⟩ length ⟨enough, limited⟩
    have untruncated : min (most.getD types.length) types.length = types.length := by
      cases most with
      | none => exact Nat.min_self _
      | some limit => exact Nat.min_eq_right (atMost limit rfl)
    have all : min (least.getD types.length) types.length = types.length := by
      cases least with
      | none => exact Nat.min_self _
      | some limit => exact Nat.min_eq_right (atLeast limit rfl)
    rw [untruncated] at enough limited
    rw [all] at enough
    exact ⟨enough, fun closed => limited (restless closed)⟩

end

/--
Ignoring the bounds of an array keeps every length that its type admits, just if its positional
elements, where it has some, are no more than any of its bounds.
-/
theorem lengths_kept_iff {members : List (String × Json)} (array : ArrayNode members)
    {taken taken' : List String} {type free : TypeExpr} {declared declared' : List Declaration}
    (bounded : ((Schema.ofJson (.object members)).body false).Yields taken type declared)
    (unbounded : ((Schema.ofJson (.object members)).body true).Yields taken' free declared') :
    (∀ length, type.AdmitsLength length → free.AdmitsLength length) ↔
      ∀ parts, members.lookup "items" = some (.array parts) → ∀ key ∈ ["minItems", "maxItems"],
        ∀ limit, (members.lookup key).bind Json.nat? = some limit → parts.length ≤ limit := by
  rcases arrayDraft_cases (array.drafted unbounded.contributes) with ⟨item, listed, rfl⟩ |
    ⟨parts, types', rest', given, length', resting', rfl⟩
  · have kept : ∀ length, (boundedList item 0 none).AdmitsLength length := fun _ => trivial
    exact ⟨fun _ parts given => absurd given (listed parts), fun _ length _ => kept length⟩
  · rcases arrayDraft_cases (array.drafted bounded.contributes) with ⟨item, listed, rfl⟩ |
      ⟨others, types, rest, given', length, resting, rfl⟩
    · exact absurd given (listed parts)
    · obtain rfl : others = parts := Json.array.inj (Option.some.inj (given'.symm.trans given))
      have restless : rest' = none → rest = none := by
        rintro rfl
        exact restless_of_unbounded resting' resting
      have kept := positionalTuple_kept_iff ((members.lookup "minItems").bind Json.nat?)
        ((members.lookup "maxItems").bind Json.nat?) (length'.trans length.symm) restless
      apply kept.trans
      rw [length, given]
      simp

def pairNode (key : String) (limit : Int) : List (String × Json) :=
  [("items", .array [.object [("type", .string "string")], .object [("type", .string "number")]]),
    (key, .number (.integer limit))]

theorem lengths_kept_of_two :
    ArrayNode (pairNode "maxItems" 2) ∧
      ((Schema.ofJson (.object (pairNode "maxItems" 2))).body false).Yields []
        (.tuple [.string, .number] 2 none) [] ∧
      ((Schema.ofJson (.object (pairNode "maxItems" 2))).body true).Yields []
        (.tuple [.string, .number] 2 (some .unknown)) [] ∧
      ∀ length, (TypeExpr.tuple [.string, .number] 2 none).AdmitsLength length →
        (TypeExpr.tuple [.string, .number] 2 (some .unknown)).AdmitsLength length := by
  have array : ArrayNode (pairNode "maxItems" 2) := ⟨⟨rfl, rfl, rfl⟩, by decide, by decide⟩
  have bounded : ((Schema.ofJson (.object (pairNode "maxItems" 2))).body false).Yields []
      (.tuple [.string, .number] 2 none) [] := rfl
  have unbounded : ((Schema.ofJson (.object (pairNode "maxItems" 2))).body true).Yields []
      (.tuple [.string, .number] 2 (some .unknown)) [] := rfl
  refine ⟨array, bounded, unbounded, (lengths_kept_iff array bounded unbounded).mpr ?_⟩
  intro parts given key bounding limit limited
  have two : parts.length = 2 := by
    obtain rfl : [_, _] = parts := Json.array.inj (Option.some.inj given)
    rfl
  rcases List.mem_pair.mp bounding with rfl | rfl
  · cases limited
  · obtain rfl : 2 = limit := Option.some.inj limited
    exact Nat.le_of_eq two

/-- One element is enough only as long as the bounds count. -/
theorem lengths_lost_of_one :
    ArrayNode (pairNode "minItems" 1) ∧
      ((Schema.ofJson (.object (pairNode "minItems" 1))).body false).Yields []
        (.tuple [.string, .number] 1 (some .unknown)) [] ∧
      ((Schema.ofJson (.object (pairNode "minItems" 1))).body true).Yields []
        (.tuple [.string, .number] 2 (some .unknown)) [] ∧
      (TypeExpr.tuple [.string, .number] 1 (some .unknown)).AdmitsLength 1 ∧
      ¬(TypeExpr.tuple [.string, .number] 2 (some .unknown)).AdmitsLength 1 := by
  refine ⟨⟨⟨rfl, rfl, rfl⟩, by decide, by decide⟩, rfl, rfl, ?_, ?_⟩
  · simp [TypeExpr.AdmitsLength]
  · simp [TypeExpr.AdmitsLength]

end SchemaTypes
