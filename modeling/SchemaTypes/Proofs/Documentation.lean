import SchemaTypes.Proofs.Distinct
import SchemaTypes.Proofs.TypeParts
import SchemaTypes.Schema.Typing

namespace SchemaTypes

def blankDocs (docs : Option String) : Option String :=
  docs.map fun _ => ""

def Declaration.docs : Declaration → Option String
  | interface _ docs _ _ => docs
  | typeAlias _ docs _ => docs
  | enumeration _ docs _ => docs

namespace TypeExpr

mutual

def undocumented : TypeExpr → TypeExpr
  | list item => list (undocumented item)
  | tuple elements required rest => tuple (undocumentedAll elements) required (undocumentedOption rest)
  | object fields index => object (undocumentedFields fields) (undocumentedOption index)
  | union arms => union (undocumentedAll arms)
  | intersection parts => intersection (undocumentedAll parts)
  | type => type

def undocumentedAll : List TypeExpr → List TypeExpr
  | [] => []
  | type :: types => undocumented type :: undocumentedAll types

def undocumentedOption : Option TypeExpr → Option TypeExpr
  | none => none
  | some type => some (undocumented type)

def undocumentedFields : List (Field TypeExpr) → List (Field TypeExpr)
  | [] => []
  | ⟨name, content, required, docs⟩ :: fields =>
    ⟨name, undocumented content, required, blankDocs docs⟩ :: undocumentedFields fields

end

def undocumentedField (field : Field TypeExpr) : Field TypeExpr :=
  ⟨field.name, field.content.undocumented, field.required, blankDocs field.docs⟩

theorem undocumentedAll_eq (types : List TypeExpr) : undocumentedAll types = types.map undocumented := by
  induction types with
  | nil => rfl
  | cons type types ih => rw [undocumentedAll, ih, List.map_cons]

theorem undocumentedOption_eq (type : Option TypeExpr) :
    undocumentedOption type = type.map undocumented := by
  cases type <;> rfl

theorem undocumentedFields_eq (fields : List (Field TypeExpr)) :
    undocumentedFields fields = fields.map undocumentedField := by
  induction fields with
  | nil => rfl
  | cons field fields ih =>
    rw [undocumentedFields, ih, List.map_cons]
    rfl

mutual

def everywhere (check : TypeExpr → Bool) : TypeExpr → Bool
  | list item => check (list item) && everywhere check item
  | tuple elements required rest =>
    check (tuple elements required rest) && (everywhereAll check elements && everywhereOption check rest)
  | object fields index =>
    check (object fields index) && (everywhereFields check fields && everywhereOption check index)
  | union arms => check (union arms) && everywhereAll check arms
  | intersection parts => check (intersection parts) && everywhereAll check parts
  | type => check type

def everywhereAll (check : TypeExpr → Bool) : List TypeExpr → Bool
  | [] => true
  | type :: types => everywhere check type && everywhereAll check types

def everywhereOption (check : TypeExpr → Bool) : Option TypeExpr → Bool
  | none => true
  | some type => everywhere check type

def everywhereFields (check : TypeExpr → Bool) : List (Field TypeExpr) → Bool
  | [] => true
  | ⟨_, content, _, _⟩ :: fields => everywhere check content && everywhereFields check fields

end

section

variable {check : TypeExpr → Bool}

theorem everywhereAll_iff {types : List TypeExpr} :
    everywhereAll check types = true ↔ ∀ type ∈ types, type.everywhere check = true := by
  induction types with
  | nil => simp [everywhereAll]
  | cons type types ih => simp [everywhereAll, ih]

theorem everywhereOption_iff {type : Option TypeExpr} :
    everywhereOption check type = true ↔
      ∀ content, type = some content → content.everywhere check = true := by
  cases type <;> simp [everywhereOption]

theorem everywhereFields_iff {fields : List (Field TypeExpr)} :
    everywhereFields check fields = true ↔
      ∀ field ∈ fields, field.content.everywhere check = true := by
  induction fields with
  | nil => simp [everywhereFields]
  | cons field fields ih => simp [everywhereFields, ih]

theorem everywhere_tuple {elements : List TypeExpr} {required : Nat} {rest : Option TypeExpr} :
    (tuple elements required rest).everywhere check = true ↔ check (tuple elements required rest) = true ∧
      (∀ element ∈ elements, element.everywhere check = true) ∧
        ∀ type, rest = some type → type.everywhere check = true := by
  rw [everywhere, Bool.and_eq_true, Bool.and_eq_true, everywhereAll_iff, everywhereOption_iff]

theorem everywhere_object {fields : List (Field TypeExpr)} {index : Option TypeExpr} :
    (object fields index).everywhere check = true ↔ check (object fields index) = true ∧
      (∀ field ∈ fields, field.content.everywhere check = true) ∧
        ∀ type, index = some type → type.everywhere check = true := by
  rw [everywhere, Bool.and_eq_true, Bool.and_eq_true, everywhereFields_iff, everywhereOption_iff]

theorem everywhere_union {arms : List TypeExpr} :
    (union arms).everywhere check = true ↔ check (union arms) = true ∧
      ∀ arm ∈ arms, arm.everywhere check = true := by
  rw [everywhere, Bool.and_eq_true, everywhereAll_iff]

theorem everywhere_intersection {parts : List TypeExpr} :
    (intersection parts).everywhere check = true ↔ check (intersection parts) = true ∧
      ∀ part ∈ parts, part.everywhere check = true := by
  rw [everywhere, Bool.and_eq_true, everywhereAll_iff]

theorem everywhere_iff {type : TypeExpr} :
    type.everywhere check = true ↔
      check type = true ∧ ∀ part ∈ type.inner, part.everywhere check = true := by
  cases type with
  | list item => simp [everywhere, inner]
  | tuple elements required rest =>
    rw [everywhere_tuple]
    simp [inner, List.mem_append, or_imp, forall_and]
  | object fields index =>
    rw [everywhere_object]
    simp [inner, List.mem_append, or_imp, forall_and]
  | union arms => exact everywhere_union
  | intersection parts => exact everywhere_intersection
  | _ => simp [everywhere, inner]

end

theorem everywhere_and {check other : TypeExpr → Bool} {type : TypeExpr} :
    type.everywhere (fun type => check type && other type) = true ↔
      type.everywhere check = true ∧ type.everywhere other = true := by
  induction type using innerInduction with
  | step type ih =>
    rw [everywhere_iff, everywhere_iff, everywhere_iff, Bool.and_eq_true]
    constructor
    · intro whole
      obtain ⟨⟨own, own'⟩, below⟩ := whole
      have each : ∀ part ∈ type.inner, part.everywhere check = true ∧ part.everywhere other = true :=
        fun part inside => (ih part inside).mp (below part inside)
      refine ⟨⟨own, ?_⟩, own', ?_⟩
      · intro part inside
        exact (each part inside).1
      · intro part inside
        exact (each part inside).2
    · intro both
      obtain ⟨⟨own, below⟩, own', below'⟩ := both
      refine ⟨⟨own, own'⟩, fun part inside => ?_⟩
      exact (ih part inside).mpr ⟨below part inside, below' part inside⟩

mutual

theorem canonical_undocumented (type : TypeExpr) :
    type.undocumented.canonical = type.canonical.undocumented := by
  cases type with
  | list item => simp only [undocumented, canonical, canonical_undocumented item]
  | tuple elements required rest =>
    simp only [undocumented, canonical, canonicalAll_undocumented elements,
      canonicalOption_undocumented rest]
  | object fields index =>
    simp only [undocumented, canonical, canonicalFields_undocumented fields,
      canonicalOption_undocumented index]
  | union arms => simp only [undocumented, canonical, canonicalAll_undocumented arms]
  | intersection parts => simp only [undocumented, canonical, canonicalAll_undocumented parts]
  | _ => rfl
termination_by structural type

theorem canonicalAll_undocumented (types : List TypeExpr) :
    canonicalAll (undocumentedAll types) = undocumentedAll (canonicalAll types) := by
  cases types with
  | nil => rfl
  | cons type types =>
    simp only [undocumentedAll, canonicalAll, canonical_undocumented type,
      canonicalAll_undocumented types]
termination_by structural types

theorem canonicalOption_undocumented (type : Option TypeExpr) :
    canonicalOption (undocumentedOption type) = undocumentedOption (canonicalOption type) := by
  cases type with
  | none => rfl
  | some type => simp only [undocumentedOption, canonicalOption, canonical_undocumented type]
termination_by structural type

theorem canonicalFields_undocumented (fields : List (Field TypeExpr)) :
    canonicalFields (undocumentedFields fields) = undocumentedFields (canonicalFields fields) := by
  match fields with
  | [] => rfl
  | ⟨name, content, required, docs⟩ :: fields =>
    simp only [undocumentedFields, canonicalFields, canonical_undocumented content,
      canonicalFields_undocumented fields]
termination_by structural fields

end

def armsApart : TypeExpr → Bool
  | union arms => arms.all fun arm => arms.all fun other =>
    decide (arm.undocumented = other.undocumented → arm = other)
  | _ => true

/-- No two arms of a union, at any depth, differ in documentation only. -/
def toldApart (type : TypeExpr) : Bool :=
  type.canonical.everywhere armsApart

theorem toldApart_of_canonical {type other : TypeExpr} (same : type.canonical = other.canonical)
    (apart : type.toldApart = true) : other.toldApart = true := by
  rw [toldApart, ← same]
  exact apart

/-- Of these types, any that have the same form without documentation have the same form with it. -/
def Discerned (types : List TypeExpr) : Prop :=
  ∀ type ∈ types, ∀ other ∈ types,
    type.canonical.undocumented = other.canonical.undocumented → type.canonical = other.canonical

theorem toldApart_union {arms : List TypeExpr} :
    (union arms).toldApart = true ↔ Discerned arms ∧ ∀ arm ∈ arms, arm.toldApart = true := by
  rw [toldApart, canonical, canonicalAll_eq, everywhere_union]
  simp only [armsApart, List.all_eq_true, List.mem_map, forall_exists_index, and_imp,
    forall_apply_eq_imp_iff₂, decide_eq_true_eq, toldApart, Discerned]

theorem toldApart_intersection {parts : List TypeExpr} :
    (intersection parts).toldApart = true ↔ ∀ part ∈ parts, part.toldApart = true := by
  rw [toldApart, canonical, canonicalAll_eq, everywhere_intersection]
  simp [armsApart, toldApart]

theorem toldApart_list {item : TypeExpr} : (list item).toldApart = item.toldApart := by
  simp only [toldApart, canonical, everywhere, armsApart, Bool.true_and]

theorem toldApart_tuple {elements : List TypeExpr} {required : Nat} {rest : Option TypeExpr} :
    (tuple elements required rest).toldApart = true ↔
      (∀ element ∈ elements, element.toldApart = true) ∧
        ∀ type, rest = some type → type.toldApart = true := by
  rw [toldApart, canonical, canonicalAll_eq, canonicalOption_eq, everywhere_tuple]
  simp [armsApart, toldApart]

theorem toldApart_object {fields : List (Field TypeExpr)} {index : Option TypeExpr} :
    (object fields index).toldApart = true ↔
      (∀ field ∈ fields, field.content.toldApart = true) ∧
        ∀ type, index = some type → type.toldApart = true := by
  rw [toldApart, canonical, canonicalFields_eq, canonicalOption_eq, everywhere_object]
  simp [armsApart, toldApart]

theorem undocumented_arms (type : TypeExpr) : type.undocumented.arms = type.arms.map undocumented := by
  cases type with
  | union => simp only [undocumented, arms, undocumentedAll_eq]
  | _ => rfl

theorem undocumented_parts (type : TypeExpr) :
    type.undocumented.parts = type.parts.map undocumented := by
  cases type with
  | intersection => simp only [undocumented, parts, undocumentedAll_eq]
  | _ => rfl

theorem distinct_undocumented {types : List TypeExpr} (discerned : Discerned types) :
    distinct (types.map undocumented) = (distinct types).map undocumented := by
  induction types with
  | nil => rfl
  | cons type types ih =>
    have rest : Discerned types := fun first inside second inside' =>
      discerned first (List.mem_cons_of_mem type inside) second (List.mem_cons_of_mem type inside')
    rw [List.map_cons, distinct_cons, distinct_cons, ih rest, List.map_cons, List.filter_map]
    congr 2
    apply List.filter_congr
    intro other kept
    have inside : other ∈ type :: types := List.mem_cons_of_mem type (distinct_subset types kept)
    have sameness : type.undocumented.same other.undocumented = type.same other := by
      rw [Bool.eq_iff_iff, same_iff, same_iff, canonical_undocumented, canonical_undocumented]
      constructor
      · exact discerned type List.mem_cons_self other inside
      · intro equal
        rw [equal]
    rw [Function.comp_apply, sameness]

theorem toldApart_arms {types : List TypeExpr} (apart : (unionOf types).toldApart = true) :
    Discerned (types.flatMap arms) ∧ ∀ arm ∈ types.flatMap arms, arm.toldApart = true := by
  have keptApart : Discerned (distinct (types.flatMap arms)) ∧
      ∀ arm ∈ distinct (types.flatMap arms), arm.toldApart = true := by
    unfold unionOf at apart
    split at apart
    · rename_i nothing
      simp [nothing, Discerned]
    · rename_i arm alone
      simp [alone, Discerned, apart]
    · exact toldApart_union.mp apart
  obtain ⟨discerned, each⟩ := keptApart
  constructor
  · intro arm inside other inside' same
    obtain ⟨first, kept, equal⟩ := exists_distinct inside
    obtain ⟨second, kept', equal'⟩ := exists_distinct inside'
    rw [← equal, ← equal'] at same ⊢
    exact discerned first kept second kept' same
  · intro arm inside
    obtain ⟨first, kept, equal⟩ := exists_distinct inside
    exact toldApart_of_canonical equal (each first kept)

/-- A union tells its arms apart only if each type that it is built from does. -/
theorem toldApart_of_unionOf {types : List TypeExpr} (apart : (unionOf types).toldApart = true) :
    ∀ type ∈ types, type.toldApart = true := by
  obtain ⟨discerned, each⟩ := toldApart_arms apart
  intro type inside
  have below : ∀ arm ∈ type.arms, arm ∈ types.flatMap arms :=
    fun arm here => List.mem_flatMap.mpr ⟨type, inside, here⟩
  cases type with
  | union arms =>
    refine toldApart_union.mpr ⟨?_, fun arm here => each arm (below arm here)⟩
    exact fun arm here other there => discerned arm (below arm here) other (below other there)
  | _ => exact each _ (below _ (List.mem_singleton_self _))

theorem undocumented_unionOf {types : List TypeExpr} (apart : (unionOf types).toldApart = true) :
    (unionOf types).undocumented = unionOf (types.map undocumented) := by
  have flattened : (types.map undocumented).flatMap arms = (types.flatMap arms).map undocumented := by
    rw [List.flatMap_map, List.map_flatMap]
    exact congrArg (types.flatMap ·) (funext undocumented_arms)
  rw [unionOf, unionOf, flattened, distinct_undocumented (toldApart_arms apart).1]
  split
  · rename_i nothing
    rw [nothing]
    rfl
  · rename_i arm alone
    rw [alone]
    rfl
  · rename_i kept several several'
    cases here : distinct (types.flatMap arms) with
    | nil => exact absurd here several
    | cons first others =>
      cases others with
      | nil => exact absurd here (several' first)
      | cons second others => simp only [undocumented, undocumentedAll_eq, List.map_cons]

theorem toldApart_of_intersectionOf {types : List TypeExpr}
    (apart : (intersectionOf types).toldApart = true) : ∀ type ∈ types, type.toldApart = true := by
  have each : ∀ part ∈ types.flatMap parts, part.toldApart = true := by
    unfold intersectionOf at apart
    split at apart
    · rename_i nothing
      simp [nothing]
    · rename_i part alone
      simp [alone, apart]
    · exact toldApart_intersection.mp apart
  intro type inside
  have below : ∀ part ∈ type.parts, part ∈ types.flatMap parts :=
    fun part here => List.mem_flatMap.mpr ⟨type, inside, here⟩
  cases type with
  | intersection parts => exact toldApart_intersection.mpr fun part here => each part (below part here)
  | _ => exact each _ (below _ (List.mem_singleton_self _))

theorem undocumented_intersectionOf (types : List TypeExpr) :
    (intersectionOf types).undocumented = intersectionOf (types.map undocumented) := by
  have flattened : (types.map undocumented).flatMap parts = (types.flatMap parts).map undocumented := by
    rw [List.flatMap_map, List.map_flatMap]
    exact congrArg (types.flatMap ·) (funext undocumented_parts)
  rw [intersectionOf, intersectionOf, flattened]
  cases types.flatMap parts with
  | nil => rfl
  | cons first others =>
    cases others with
    | nil => rfl
    | cons second others => simp only [undocumented, undocumentedAll_eq, List.map_cons]

end TypeExpr

end SchemaTypes
