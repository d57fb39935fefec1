import SchemaTypes.Proofs.ArrayLengths

/-!
Lists of one item type. Bounds that some length meets are kept exactly as long as they take no more
than twenty spelled elements, of a lower bound alone if the upper one is too great; all other bounds
are dropped. Every element has the item's type.
-/

namespace SchemaTypes

open Draft

/-- Every element has the item's type, whether it is spelled out or not. -/
inductive TypeExpr.IsListOf : TypeExpr → TypeExpr → Prop
  | list (item : TypeExpr) : IsListOf (.list item) item
  | tuple {item : TypeExpr} {elements : List TypeExpr} {required : Nat} {rest : Option TypeExpr}
      (spelled : ∀ element ∈ elements, element = item)
      (resting : ∀ type, rest = some type → type = item) (enough : required ≤ elements.length)
      (few : elements.length ≤ 20) : IsListOf (.tuple elements required rest) item

/-- The bounds admit some length, and the greatest that they admit can be spelled out. -/
def ClosesAt (least : Nat) (most : Option Nat) (limit : Nat) : Prop :=
  most = some limit ∧ least ≤ limit ∧ limit ≤ 20

/-- The bounds ask for elements that can be spelled out, and an upper bound, if any, cannot be. -/
def StartsAt (least : Nat) (most : Option Nat) : Prop :=
  0 < least ∧ least ≤ 20 ∧ ∀ limit, most = some limit → 20 < limit ∧ least ≤ limit

section

variable {item : TypeExpr} {least : Nat} {most : Option Nat}

theorem boundedList_of_closesAt {limit : Nat} (closes : ClosesAt least most limit) :
    boundedList item least most = .tuple (List.replicate limit item) least none := by
  obtain ⟨rfl, meets, few⟩ := closes
  have spelled : limit ≤ maxSpelledElements := few
  rw [boundedList, if_neg (Nat.not_lt.mpr meets), if_pos spelled]

theorem listFrom_of_few (positive : 0 < least) (few : least ≤ 20) :
    listFrom item least = .tuple (List.replicate least item) least (some item) := by
  have spelled : ¬(least = 0 ∨ maxSpelledElements < least) := by
    simp only [maxSpelledElements]
    omega
  rw [listFrom, if_neg spelled]

theorem boundedList_of_startsAt (starts : StartsAt least most) :
    boundedList item least most = .tuple (List.replicate least item) least (some item) := by
  obtain ⟨positive, few, above⟩ := starts
  cases most with
  | none => exact listFrom_of_few positive few
  | some limit =>
    obtain ⟨many, meets⟩ := above limit rfl
    have unspelled : ¬limit ≤ maxSpelledElements := Nat.not_le.mpr many
    rw [boundedList, if_neg (Nat.not_lt.mpr meets), if_neg unspelled, listFrom_of_few positive few]

theorem listFrom_of_not_few (many : 0 < least → 20 < least) : listFrom item least = .list item := by
  have unspelled : least = 0 ∨ maxSpelledElements < least := by
    simp only [maxSpelledElements]
    omega
  rw [listFrom, if_pos unspelled]

theorem boundedList_of_neither (unclosed : ∀ limit, ¬ClosesAt least most limit)
    (unstarted : ¬StartsAt least most) : boundedList item least most = .list item := by
  cases most with
  | none =>
    apply listFrom_of_not_few
    intro positive
    by_contra few
    exact unstarted ⟨positive, by omega, fun limit given => nomatch given⟩
  | some limit =>
    by_cases contradictory : limit < least
    · rw [boundedList, if_pos contradictory]
    · have many : 20 < limit := by
        by_contra few
        exact unclosed limit ⟨rfl, by omega, by omega⟩
      have unspelled : ¬limit ≤ maxSpelledElements := Nat.not_le.mpr many
      rw [boundedList, if_neg contradictory, if_neg unspelled]
      apply listFrom_of_not_few
      intro positive
      by_contra few
      refine unstarted ⟨positive, by omega, fun other given => ?_⟩
      obtain rfl := Option.some.inj given
      exact ⟨many, by omega⟩

theorem isListOf_boundedList (item : TypeExpr) (least : Nat) (most : Option Nat) :
    (boundedList item least most).IsListOf item := by
  by_cases closed : ∃ limit, ClosesAt least most limit
  · obtain ⟨limit, closes⟩ := closed
    rw [boundedList_of_closesAt closes]
    have length : (List.replicate limit item).length = limit := List.length_replicate
    apply TypeExpr.IsListOf.tuple
    · exact fun _ inside => List.eq_of_mem_replicate inside
    · exact fun _ given => nomatch given
    · rw [length]
      exact closes.2.1
    · rw [length]
      exact closes.2.2
  · by_cases starts : StartsAt least most
    · rw [boundedList_of_startsAt starts]
      have length : (List.replicate least item).length = least := List.length_replicate
      apply TypeExpr.IsListOf.tuple
      · exact fun _ inside => List.eq_of_mem_replicate inside
      · exact fun _ given => (Option.some.inj given).symm
      · exact Nat.le_of_eq length.symm
      · rw [length]
        exact starts.2.1
    · rw [boundedList_of_neither (not_exists.mp closed) starts]
      exact .list item

end

section

variable {ignoreBounds : Bool} {members : List (String × Json)} {taken : List String}
  {declared : List Declaration} {type : TypeExpr}

def itemDraft (ignoreBounds : Bool) (members : List (String × Json)) : Draft TypeExpr :=
  match members.lookup "items" with
  | none => pure .unknown
  | some value =>
    (place (Schema.ofJson value) ((Schema.ofJson value).body ignoreBounds)).within ["items"]

theorem itemsOf_none (absent : members.lookup "items" = none) : Schema.itemsOf members = .absent := by
  rw [Schema.itemsOf, readKeyword, absent]

theorem itemsOf_single {value : Json} (given : members.lookup "items" = some value)
    (single : ¬value.IsForeign) : Schema.itemsOf members = .given (.every (Schema.ofJson value)) := by
  cases value with
  | boolean admits =>
    rw [Schema.itemsOf, readKeyword, given]
    rfl
  | object inner =>
    rw [Schema.itemsOf, readKeyword, given]
    rfl
  | _ => exact absurd trivial single

theorem arrayTypeDraft_single
    (single : ∀ value, members.lookup "items" = some value → ¬value.IsForeign) :
    arrayTypeDraft ignoreBounds members =
      (fun item => boundedList item ((bound ignoreBounds (readHead members).minItems).getD 0)
        (bound ignoreBounds (readHead members).maxItems)) <$> itemDraft ignoreBounds members := by
  rw [arrayTypeDraft, arrayDraft, itemDraft]
  cases given : members.lookup "items" with
  | none =>
    rw [itemsOf_none given]
    rfl
  | some value =>
    rw [itemsOf_single given (single value given), itemsDraft]
    exact bind_pure_comp _ _

theorem ArrayNode.yields (array : ArrayNode members) :
    ((Schema.ofJson (.object members)).body ignoreBounds).Yields taken type declared ↔
      (arrayTypeDraft ignoreBounds members).Yields taken type declared := by
  have own : ∀ type, (arrayTypeDraft ignoreBounds members).Yields taken type declared →
      combined none none none (some (TypeExpr.unionOf [type])) = type := by
    intro type drawn
    have single := arrayDraft_arms drawn.contributes
    rw [unionOf_single single.1, combined_single single.2]
  rw [array.body_eq, yields_map]
  constructor
  · rintro ⟨type, drawn, rfl⟩
    rw [own type drawn]
    exact drawn
  · intro drawn
    exact ⟨type, drawn, (own type drawn).symm⟩

end

def leastLength (members : List (String × Json)) : Nat :=
  ((members.lookup "minItems").bind Json.nat?).getD 0

def mostLength (members : List (String × Json)) : Option Nat :=
  (members.lookup "maxItems").bind Json.nat?

/--
An array whose elements all have one type is drafted if this type is. Its type then has this item
everywhere and admits just the lengths of its bounds, or from its lower bound on, or all of them. A node
of no other kind has this array type for its own.
-/
theorem lengths_bounded {members : List (String × Json)}
    (single : ∀ value, members.lookup "items" = some value → ¬value.IsForeign) (taken : List String)
    (declared : List Declaration) :
    (ArrayNode members → ∀ type,
      ((Schema.ofJson (.object members)).body false).Yields taken type declared ↔
        (arrayTypeDraft false members).Yields taken type declared) ∧
    ((∃ type, (arrayTypeDraft false members).Yields taken type declared) ↔
      ∃ item, (itemDraft false members).Yields taken item declared) ∧
    ∀ type, (arrayTypeDraft false members).Yields taken type declared →
      (∃ item, (itemDraft false members).Yields taken item declared ∧ type.IsListOf item) ∧
      (∀ limit, ClosesAt (leastLength members) (mostLength members) limit →
        ∀ length, type.AdmitsLength length ↔ leastLength members ≤ length ∧ length ≤ limit) ∧
      (StartsAt (leastLength members) (mostLength members) →
        ∀ length, type.AdmitsLength length ↔ leastLength members ≤ length) ∧
      ((∀ limit, ¬ClosesAt (leastLength members) (mostLength members) limit) →
        ¬StartsAt (leastLength members) (mostLength members) →
          ∀ length, type.AdmitsLength length) := by
  have drafted : ∀ type, (arrayTypeDraft false members).Yields taken type declared ↔
      ∃ item, (itemDraft false members).Yields taken item declared ∧
        type = boundedList item (leastLength members) (mostLength members) := by
    intro type
    rw [arrayTypeDraft_single single]
    exact yields_map
  refine ⟨fun array type => array.yields, ?_, fun type drawn => ?_⟩
  · constructor
    · rintro ⟨type, drawn⟩
      obtain ⟨item, drawn, _⟩ := (drafted type).mp drawn
      exact ⟨item, drawn⟩
    · rintro ⟨item, drawn⟩
      exact ⟨_, (drafted _).mpr ⟨item, drawn, rfl⟩⟩
  · obtain ⟨item, itemDrawn, rfl⟩ := (drafted type).mp drawn
    refine ⟨⟨item, itemDrawn, isListOf_boundedList item _ _⟩, ?_, ?_, ?_⟩
    · intro limit closes length
      rw [boundedList_of_closesAt closes]
      simp [TypeExpr.AdmitsLength]
    · intro starts length
      rw [boundedList_of_startsAt starts]
      simp [TypeExpr.AdmitsLength]
    · intro unclosed unstarted length
      rw [boundedList_of_neither unclosed unstarted]
      trivial

/-- Two tags at least. An upper bound of more than twenty is not spelled out. -/
def tagList : List (String × Json) := [
  ("type", .string "array"),
  ("items", .object [("title", .string "Tag"), ("type", .string "string")]),
  ("minItems", .number (.integer 2)),
  ("maxItems", .number (.integer 21))]

def tagDeclaration : Declaration := .typeAlias "Tag" none .string

theorem tagList_starts :
    ArrayNode tagList ∧
      ((Schema.ofJson (.object tagList)).body false).Yields []
        (.tuple [.reference "Tag", .reference "Tag"] 2 (some (.reference "Tag"))) [tagDeclaration] ∧
      ∀ length, (TypeExpr.tuple [.reference "Tag", .reference "Tag"] 2
        (some (.reference "Tag"))).AdmitsLength length ↔ 2 ≤ length := by
  have array : ArrayNode tagList := ⟨⟨rfl, rfl, rfl⟩, by decide, by decide⟩
  have drawn : ((Schema.ofJson (.object tagList)).body false).Yields []
      (.tuple [.reference "Tag", .reference "Tag"] 2 (some (.reference "Tag"))) [tagDeclaration] := by
    rfl
  have single : ∀ value, tagList.lookup "items" = some value → ¬value.IsForeign := by
    intro value given
    obtain rfl := Option.some.inj given
    exact not_false
  have starts : StartsAt (leastLength tagList) (mostLength tagList) := by
    refine ⟨by decide, by decide, fun limit given => ?_⟩
    obtain rfl : 21 = limit := Option.some.inj given
    decide
  obtain ⟨own, _, lengths⟩ := lengths_bounded single [] [tagDeclaration]
  obtain ⟨_, _, from_two, _⟩ := lengths _ ((own array _).mp drawn)
  exact ⟨array, drawn, from_two starts⟩

end SchemaTypes
