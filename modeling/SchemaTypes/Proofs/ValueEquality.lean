import Mathlib.Data.List.Nodup
import SchemaTypes.Proofs.Selections

namespace SchemaTypes

section

variable {Value : Type}

theorem lookup_placeByKey (key : String) (member : String × Value) (members : List (String × Value)) :
    (placeByKey member members).lookup key = (member :: members).lookup key := by
  induction members with
  | nil => rfl
  | cons next members ih =>
    rw [placeByKey]
    split
    · rfl
    · rename_i later
      have other : next.1 ≠ member.1 := fun same => later (same ▸ String.le_refl _)
      obtain ⟨name, value⟩ := member
      obtain ⟨first, content⟩ := next
      by_cases here : key = first
      · rw [here, List.lookup_cons_self, lookup_cons_of_ne other, List.lookup_cons_self]
      · rw [lookup_cons_of_ne here, ih, List.lookup_cons, List.lookup_cons, lookup_cons_of_ne here]

theorem placeByKey_perm (member : String × Value) (members : List (String × Value)) :
    (placeByKey member members).Perm (member :: members) := by
  induction members with
  | nil => exact .refl _
  | cons next members ih =>
    rw [placeByKey]
    split
    · exact .refl _
    · exact (ih.cons next).trans (.swap member next members)

/-- The keys come in order, a repeated one in its turns. -/
def InKeyOrder (members : List (String × Value)) : Prop :=
  members.Pairwise fun member other => member.1 ≤ other.1

theorem placeByKey_inKeyOrder {members : List (String × Value)} (ordered : InKeyOrder members)
    (member : String × Value) : InKeyOrder (placeByKey member members) := by
  induction members with
  | nil => exact List.pairwise_singleton _ member
  | cons next members ih =>
    obtain ⟨least, rest⟩ := List.pairwise_cons.mp ordered
    rw [placeByKey]
    split
    · rename_i before
      refine List.pairwise_cons.mpr ⟨fun other inside => ?_, ordered⟩
      rcases List.mem_cons.mp inside with rfl | later
      · exact before
      · exact String.le_trans before (least other later)
    · rename_i later
      refine List.pairwise_cons.mpr ⟨fun other inside => ?_, ih rest⟩
      rcases List.mem_cons.mp ((placeByKey_perm member members).mem_iff.mp inside) with rfl | inside
      · exact (String.le_total next.1 other.1).resolve_right later
      · exact least other inside

end

namespace Double

theorem eq_zero {value : Double} (nothing : value.rank = 0) : value = zero value.negative := by
  obtain ⟨negative, rank, finite⟩ := value
  obtain rfl : rank = 0 := nothing
  rfl

theorem unsignedZero_eq {value other : Double} (equal : value.unsignedZero = other.unsignedZero) :
    value = other ∨ value.rank = 0 ∧ other.rank = 0 := by
  unfold unsignedZero at equal
  split at equal
  · split at equal
    · exact Or.inr ⟨‹_›, ‹_›⟩
    · rename_i something
      exact absurd (congrArg rank equal.symm) something
  · split at equal
    · rename_i something _
      exact absurd (congrArg rank equal) something
    · exact Or.inl equal

end Double

namespace Json

theorem eq_of_lookup {members others : List (String × Json)} (ordered : InKeyOrder members)
    (ordered' : InKeyOrder others) (distinct : (members.map (·.1)).Nodup)
    (distinct' : (others.map (·.1)).Nodup) (alike : ∀ key, members.lookup key = others.lookup key) :
    members = others := by
  -- No key is repeated, so a member is in a list just if it is found under its key.
  have known : ∀ member, member ∈ members ↔ member ∈ others := by
    intro member
    constructor
    · exact fun inside => mem_of_lookup ((alike member.1).symm.trans (lookup_of_mem distinct inside))
    · exact fun inside => mem_of_lookup ((alike member.1).trans (lookup_of_mem distinct' inside))
  refine List.Perm.eq_of_pairwise ?_ ordered ordered'
    ((List.perm_ext_iff_of_nodup (.of_map (·.1) distinct) (.of_map (·.1) distinct')).mpr known)
  intro member other inside inside' before after
  have keys : member.1 = other.1 := String.le_antisymm before after
  have here := lookup_of_mem distinct' ((known member).mp inside)
  rw [keys, lookup_of_mem distinct' inside'] at here
  exact Prod.ext keys (Option.some.inj here).symm

theorem canonicalElements_eq (elements : List Json) :
    canonicalElements elements = elements.map canonical := by
  induction elements with
  | nil => rfl
  | cons element elements ih => rw [canonicalElements, ih, List.map_cons]

theorem lookup_canonicalMembers (key : String) (members : List (String × Json)) :
    (canonicalMembers members).lookup key = (members.lookup key).map canonical := by
  induction members with
  | nil => rfl
  | cons member members ih =>
    obtain ⟨name, value⟩ := member
    rw [canonicalMembers, lookup_placeByKey]
    by_cases here : key = name
    · rw [here, List.lookup_cons_self, List.lookup_cons_self, Option.map_some]
    · rw [lookup_cons_of_ne here, lookup_cons_of_ne here, ih]

theorem canonicalMembers_inKeyOrder (members : List (String × Json)) :
    InKeyOrder (canonicalMembers members) := by
  induction members with
  | nil => exact List.Pairwise.nil
  | cons member members ih => exact placeByKey_inKeyOrder ih _

theorem keys_canonicalMembers (members : List (String × Json)) :
    ((canonicalMembers members).map (·.1)).Perm (members.map (·.1)) := by
  induction members with
  | nil => exact .refl _
  | cons member members ih =>
    obtain ⟨name, value⟩ := member
    exact ((placeByKey_perm _ _).map _).trans (ih.cons name)

theorem canonical_array_iff {elements others : List Json} :
    (array elements).canonical = (array others).canonical ↔
      elements.length = others.length ∧
        ∀ (position : Nat) (element other : Json), elements[position]? = some element →
          others[position]? = some other → element.canonical = other.canonical := by
  rw [canonical, canonical, array.injEq, canonicalElements_eq, canonicalElements_eq]
  constructor
  · intro images
    refine ⟨by simpa using congrArg List.length images, fun position element other here there => ?_⟩
    have image := congrArg (·[position]?) images
    simpa only [List.getElem?_map, here, there, Option.map_some, Option.some.injEq] using image
  · rintro ⟨lengths, each⟩
    refine List.ext_getElem (by simpa using lengths) fun position inside inside' => ?_
    rw [List.length_map] at inside inside'
    rw [List.getElem_map, List.getElem_map]
    exact each position _ _ (List.getElem?_eq_getElem inside) (List.getElem?_eq_getElem inside')

theorem canonical_object_iff {members others : List (String × Json)}
    (distinct : (members.map (·.1)).Nodup) (distinct' : (others.map (·.1)).Nodup) :
    (object members).canonical = (object others).canonical ↔
      (∀ key, hasMember key members = hasMember key others) ∧
        ∀ (key : String) (value other : Json), members.lookup key = some value →
          others.lookup key = some other → value.canonical = other.canonical := by
  rw [canonical, canonical, object.injEq]
  constructor
  · intro equal
    have found : ∀ key, (members.lookup key).map canonical = (others.lookup key).map canonical := by
      intro key
      rw [← lookup_canonicalMembers, ← lookup_canonicalMembers, equal]
    refine ⟨fun key => ?_, fun key value other here there => ?_⟩
    · simpa [hasMember] using congrArg Option.isSome (found key)
    · simpa [here, there] using found key
  · rintro ⟨names, each⟩
    refine eq_of_lookup (canonicalMembers_inKeyOrder members) (canonicalMembers_inKeyOrder others)
      ((keys_canonicalMembers members).nodup_iff.mpr distinct)
      ((keys_canonicalMembers others).nodup_iff.mpr distinct') fun key => ?_
    rw [lookup_canonicalMembers, lookup_canonicalMembers]
    have named := names key
    cases here : members.lookup key with
    | none =>
      cases there : others.lookup key with
      | none => rfl
      | some other => simp [hasMember, here, there] at named
    | some value =>
      cases there : others.lookup key with
      | none => simp [hasMember, here, there] at named
      | some other => rw [Option.map_some, Option.map_some, each key value other here there]

/-- Equality up to the order of members and the sign of a zero. -/
inductive SameValue : Json → Json → Prop
  | null : SameValue null null
  | boolean (value : Bool) : SameValue (boolean value) (boolean value)
  | string (value : String) : SameValue (string value) (string value)
  | integer (value : Int) : SameValue (number (.integer value)) (number (.integer value))
  | double (value : Double) : SameValue (number (.double value)) (number (.double value))
  | zero (negative negative' : Bool) :
      SameValue (number (.double (.zero negative))) (number (.double (.zero negative')))
  | array {elements others : List Json} (lengths : elements.length = others.length)
      (each : ∀ (position : Nat) (element other : Json), elements[position]? = some element →
        others[position]? = some other → SameValue element other) :
      SameValue (array elements) (array others)
  | object {members others : List (String × Json)}
      (names : ∀ key, hasMember key members = hasMember key others)
      (each : ∀ (key : String) (value other : Json), members.lookup key = some value →
        others.lookup key = some other → SameValue value other) :
      SameValue (object members) (object others)

theorem sameValue_number {number other : Number} (equal : number.canonical = other.canonical) :
    SameValue (.number number) (.number other) := by
  cases number with
  | integer value =>
    cases other with
    | integer value' =>
      obtain rfl := Number.integer.inj equal
      exact .integer value
    | double => cases equal
  | double value =>
    cases other with
    | integer => cases equal
    | double value' =>
      rcases Double.unsignedZero_eq (Number.double.inj equal) with rfl | ⟨nothing, nothing'⟩
      · exact .double value
      · rw [Double.eq_zero nothing, Double.eq_zero nothing']
        exact .zero value.negative value'.negative

theorem sameValue_of_canonical {left right : Json} (distinct : left.hasDistinctKeys = true)
    (distinct' : right.hasDistinctKeys = true) (equal : left.canonical = right.canonical) :
    SameValue left right := by
  cases left with
  | null =>
    cases right <;> cases equal
    exact .null
  | boolean value =>
    cases right <;> cases equal
    exact .boolean value
  | string value =>
    cases right <;> cases equal
    exact .string value
  | number number =>
    cases right with
    | number other => exact sameValue_number (Json.number.inj equal)
    | _ => cases equal
  | array elements =>
    cases right with
    | array others =>
      obtain ⟨lengths, each⟩ := canonical_array_iff.mp equal
      rw [hasDistinctKeys_array] at distinct distinct'
      refine .array lengths fun position element other here there => ?_
      exact sameValue_of_canonical (distinct element (List.mem_of_getElem? here))
        (distinct' other (List.mem_of_getElem? there)) (each position element other here there)
    | _ => cases equal
  | object members =>
    cases right with
    | object others =>
      obtain ⟨names, each⟩ :=
        (canonical_object_iff (keys_nodup distinct) (keys_nodup distinct')).mp equal
      refine .object names fun key value other here there => ?_
      exact sameValue_of_canonical (everyObject_of_lookup distinct here)
        (everyObject_of_lookup distinct' there) (each key value other here there)
    | _ => cases equal
termination_by sizeOf left
decreasing_by
  all_goals subst_vars
  · have smaller := List.sizeOf_lt_of_mem (List.mem_of_getElem? here)
    simp only [array.sizeOf_spec]
    omega
  · have smaller := sizeOf_lookup_lt here
    simp only [object.sizeOf_spec]
    omega

theorem SameValue.canonical_eq {left right : Json} (same : SameValue left right)
    (distinct : left.hasDistinctKeys = true) (distinct' : right.hasDistinctKeys = true) :
    left.canonical = right.canonical := by
  induction same with
  | zero negative negative' => rfl
  | array lengths _ ih =>
    rw [hasDistinctKeys_array] at distinct distinct'
    refine canonical_array_iff.mpr ⟨lengths, fun position element other here there => ?_⟩
    exact ih position element other here there (distinct element (List.mem_of_getElem? here))
      (distinct' other (List.mem_of_getElem? there))
  | object names _ ih =>
    refine (canonical_object_iff (keys_nodup distinct) (keys_nodup distinct')).mpr
      ⟨names, fun key value other here there => ?_⟩
    exact ih key value other here there (everyObject_of_lookup distinct here)
      (everyObject_of_lookup distinct' there)
  | _ => rfl

theorem same_iff_sameValue {left right : Json} (distinct : left.hasDistinctKeys = true)
    (distinct' : right.hasDistinctKeys = true) : left.same right = true ↔ SameValue left right := by
  rw [same_iff]
  exact ⟨sameValue_of_canonical distinct distinct', fun same => same.canonical_eq distinct distinct'⟩

end Json

end SchemaTypes
