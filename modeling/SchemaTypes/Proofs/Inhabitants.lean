import Mathlib.Data.List.Basic
import SchemaTypes.Proofs.Distinct
import SchemaTypes.Schema.Typing

/-!
The values of a type. A name stands for the type of the first declaration under it, so a value
inhabits a name exactly if it inhabits what is declared. Values depend on literals only up to the
comparison of literals, and unions and intersections in normal form have the values that any union or
intersection of the same types would have.
-/

namespace SchemaTypes

def Declaration.type : Declaration → TypeExpr
  | interface _ _ fields index => .object fields index
  | typeAlias _ _ type => type
  | enumeration _ _ members => .union (members.map fun member => .literal member.2)

def declarationNamed? (declarations : List Declaration) (name : String) : Option Declaration :=
  declarations.find? fun declaration => decide (declaration.name = name)

/-- Texts that stand verbatim have no values here, because nothing is known of them. -/
inductive Inhabits (declarations : List Declaration) : Json → TypeExpr → Prop
  | unknown {value : Json} : Inhabits declarations value .unknown
  | null : Inhabits declarations .null .null
  | boolean {truth : Bool} : Inhabits declarations (.boolean truth) .boolean
  | number {number : Number} : Inhabits declarations (.number number) .number
  | string {text : String} : Inhabits declarations (.string text) .string
  | literal {value literal : Json} (same : literal.same value = true) :
      Inhabits declarations value (.literal literal)
  | reference {value : Json} {name : String} {declaration : Declaration}
      (found : declarationNamed? declarations name = some declaration)
      (declared : Inhabits declarations value declaration.type) :
      Inhabits declarations value (.reference name)
  | list {elements : List Json} {item : TypeExpr}
      (each : ∀ element ∈ elements, Inhabits declarations element item) :
      Inhabits declarations (.array elements) (.list item)
  | tuple {elements : List Json} {types : List TypeExpr} {required : Nat} {rest : Option TypeExpr}
      (enough : required ≤ elements.length)
      (limited : rest = none → elements.length ≤ types.length)
      (spelled : ∀ (position : Nat) (element : Json) (type : TypeExpr),
        elements[position]? = some element → types[position]? = some type →
          Inhabits declarations element type)
      (after : ∀ (position : Nat) (element : Json) (type : TypeExpr),
        elements[position]? = some element → types.length ≤ position → rest = some type →
          Inhabits declarations element type) :
      Inhabits declarations (.array elements) (.tuple types required rest)
  | object {members : List (String × Json)} {fields : List (Field TypeExpr)} {index : Option TypeExpr}
      (present : ∀ field ∈ fields, field.required = true → hasMember field.name members = true)
      (declared : ∀ field ∈ fields, ∀ value, members.lookup field.name = some value →
        Inhabits declarations value field.content)
      (closed : index = none → ∀ member ∈ members, member.1 ∈ fields.map (·.name))
      (indexed : ∀ type, index = some type → ∀ member ∈ members, member.1 ∉ fields.map (·.name) →
        Inhabits declarations member.2 type) :
      Inhabits declarations (.object members) (.object fields index)
  | union {value : Json} {arms : List TypeExpr} {arm : TypeExpr} (here : arm ∈ arms)
      (inner : Inhabits declarations value arm) : Inhabits declarations value (.union arms)
  | intersection {value : Json} {parts : List TypeExpr}
      (each : ∀ part ∈ parts, Inhabits declarations value part) :
      Inhabits declarations value (.intersection parts)

open TypeExpr

variable {declarations : List Declaration}

theorem exists_of_map_eq {Content Image : Type} {make : Content → Image} {sources others : List Content}
    (same : sources.map make = others.map make) {other : Content} (inside : other ∈ others) :
    ∃ source ∈ sources, make source = make other := by
  have image : make other ∈ others.map make := List.mem_map_of_mem inside
  rw [← same] at image
  exact List.mem_map.mp image

theorem getElem?_of_map_eq {Content Image : Type} {make : Content → Image}
    {sources others : List Content} (same : sources.map make = others.map make) {position : Nat}
    {other : Content} (here : others[position]? = some other) :
    ∃ source, sources[position]? = some source ∧ make source = make other := by
  have image : (others.map make)[position]? = some (make other) := by
    rw [List.getElem?_map, here, Option.map_some]
  rw [← same, List.getElem?_map] at image
  exact Option.map_eq_some_iff.mp image

theorem inhabits_tuple_of_same {elements : List Json} {types others : List TypeExpr} {required : Nat}
    {rest other : Option TypeExpr} (enough : required ≤ elements.length)
    (limited : rest = none → elements.length ≤ types.length)
    (spelling : types.map canonical = others.map canonical)
    (resting : rest.map canonical = other.map canonical)
    (spelled : ∀ (position : Nat) (element : Json) (type : TypeExpr),
      elements[position]? = some element → types[position]? = some type →
        ∀ type', type.canonical = type'.canonical → Inhabits declarations element type')
    (after : ∀ (position : Nat) (element : Json) (type : TypeExpr),
      elements[position]? = some element → types.length ≤ position → rest = some type →
        ∀ type', type.canonical = type'.canonical → Inhabits declarations element type') :
    Inhabits declarations (.array elements) (.tuple others required other) := by
  have lengths : types.length = others.length := by simpa using congrArg List.length spelling
  apply Inhabits.tuple enough
  · intro nothing
    rw [← lengths]
    apply limited
    simpa [nothing] using resting
  · intro position element type here there
    obtain ⟨first, first_there, equal⟩ := getElem?_of_map_eq spelling there
    exact spelled position element first here first_there type equal
  · intro position element type here beyond resting'
    rw [resting', Option.map_some, Option.map_eq_some_iff] at resting
    obtain ⟨first, first_resting, equal⟩ := resting
    exact after position element first here (by omega) first_resting type equal

theorem inhabits_object_of_same {members : List (String × Json)} {fields others : List (Field TypeExpr)}
    {index other : Option TypeExpr}
    (listing : fields.map (fun field => { field with content := field.content.canonical }) =
      others.map fun field => { field with content := field.content.canonical })
    (indexing : index.map canonical = other.map canonical)
    (present : ∀ field ∈ fields, field.required = true → hasMember field.name members = true)
    (declared : ∀ field ∈ fields, ∀ value, members.lookup field.name = some value →
      ∀ type', field.content.canonical = type'.canonical → Inhabits declarations value type')
    (closed : index = none → ∀ member ∈ members, member.1 ∈ fields.map (·.name))
    (indexed : ∀ type, index = some type → ∀ member ∈ members, member.1 ∉ fields.map (·.name) →
      ∀ type', type.canonical = type'.canonical → Inhabits declarations member.2 type') :
    Inhabits declarations (.object members) (.object others other) := by
  have names : fields.map (·.name) = others.map (·.name) := by
    have heads := congrArg (List.map (·.name)) listing
    simpa [List.map_map, Function.comp_def] using heads
  have origin : ∀ field ∈ others, ∃ first ∈ fields, first.name = field.name ∧
      first.content.canonical = field.content.canonical ∧ first.required = field.required := by
    intro field inside
    obtain ⟨first, first_inside, equal⟩ := exists_of_map_eq listing inside
    simp only [Field.mk.injEq] at equal
    exact ⟨first, first_inside, equal.1, equal.2.1, equal.2.2.1⟩
  apply Inhabits.object
  · intro field inside required
    obtain ⟨first, first_inside, named, _, requiring⟩ := origin field inside
    rw [← named]
    exact present first first_inside (requiring.trans required)
  · intro field inside value here
    obtain ⟨first, first_inside, named, equal, _⟩ := origin field inside
    rw [← named] at here
    exact declared first first_inside value here field.content equal
  · intro nothing member inside
    rw [← names]
    apply closed _ member inside
    simpa [nothing] using indexing
  · intro type indexing' member inside undeclared
    rw [indexing', Option.map_some, Option.map_eq_some_iff] at indexing
    obtain ⟨first, first_indexing, equal⟩ := indexing
    rw [← names] at undeclared
    exact indexed first first_indexing member inside undeclared type equal

theorem Inhabits.of_same {value : Json} {type other : TypeExpr}
    (inhabits : Inhabits declarations value type) (same : type.canonical = other.canonical) :
    Inhabits declarations value other := by
  induction inhabits generalizing other with
  | unknown =>
    cases other <;> simp [canonical] at same
    exact .unknown
  | null =>
    cases other <;> simp [canonical] at same
    exact .null
  | boolean =>
    cases other <;> simp [canonical] at same
    exact .boolean
  | number =>
    cases other <;> simp [canonical] at same
    exact .number
  | string =>
    cases other <;> simp [canonical] at same
    exact .string
  | literal equal =>
    cases other <;> simp [canonical] at same
    exact .literal ((Json.same_iff _ _).mpr (same.symm.trans ((Json.same_iff _ _).mp equal)))
  | reference found _ ih =>
    cases other <;> simp [canonical] at same
    subst same
    exact .reference found (ih rfl)
  | list _ ih =>
    cases other <;> simp [canonical] at same
    exact .list fun element inside => ih element inside same
  | tuple enough limited _ _ spelled after =>
    cases other <;> simp [canonical, canonicalAll_eq, canonicalOption_eq] at same
    obtain ⟨spelling, rfl, resting⟩ := same
    apply inhabits_tuple_of_same enough limited spelling resting
    · intro position element type here there type' equal
      exact spelled position element type here there equal
    · intro position element type here beyond resting' type' equal
      exact after position element type here beyond resting' equal
  | object present _ closed _ declared indexed =>
    cases other <;> simp [canonical, canonicalFields_eq, canonicalOption_eq] at same
    apply inhabits_object_of_same same.1 same.2 present _ closed
    · intro type indexing member inside undeclared type' equal
      exact indexed type indexing member inside undeclared equal
    · intro field inside value here type' equal
      exact declared field inside value here equal
  | union here _ ih =>
    cases other <;> simp [canonical, canonicalAll_eq] at same
    obtain ⟨arm, there, equal⟩ := exists_of_map_eq same.symm here
    exact .union there (ih equal.symm)
  | intersection _ ih =>
    cases other <;> simp [canonical, canonicalAll_eq] at same
    apply Inhabits.intersection
    intro part there
    obtain ⟨first, here, equal⟩ := exists_of_map_eq same there
    exact ih first here equal

/-- What a notion of the values of types has to agree on, whatever values it gives to verbatim texts. -/
structure IsValuation (has : Json → TypeExpr → Prop) : Prop where
  of_same : ∀ {value type other}, has value type → type.canonical = other.canonical → has value other
  unknown : ∀ value, has value .unknown
  never : ∀ value, ¬has value .never
  union : ∀ value arms, has value (.union arms) ↔ ∃ arm ∈ arms, has value arm
  intersection : ∀ value parts, has value (.intersection parts) ↔ ∀ part ∈ parts, has value part

theorem isValuation_inhabits : IsValuation (Inhabits declarations) where
  of_same := Inhabits.of_same
  unknown _ := .unknown
  never value := by
    intro inhabits
    cases inhabits
  union value arms := by
    constructor
    · intro inhabits
      cases inhabits with
      | union here inner => exact ⟨_, here, inner⟩
    · rintro ⟨arm, here, inner⟩
      exact .union here inner
  intersection value parts := by
    constructor
    · intro inhabits
      cases inhabits with
      | intersection each => exact each
    · exact .intersection

namespace IsValuation

variable {has : Json → TypeExpr → Prop} {value : Json}

theorem arms_iff (valuation : IsValuation has) {type : TypeExpr} :
    has value type ↔ ∃ arm ∈ type.arms, has value arm := by
  cases type with
  | union arms => exact valuation.union value arms
  | _ => simp [arms]

theorem parts_iff (valuation : IsValuation has) {type : TypeExpr} :
    has value type ↔ ∀ part ∈ type.parts, has value part := by
  cases type with
  | intersection parts => exact valuation.intersection value parts
  | _ => simp [parts]

theorem unionOf_iff (valuation : IsValuation has) {types : List TypeExpr} :
    has value (unionOf types) ↔ ∃ type ∈ types, has value type := by
  have flattened : (∃ type ∈ types, has value type) ↔
      ∃ arm ∈ distinct (types.flatMap arms), has value arm := by
    constructor
    · rintro ⟨type, inside, inhabits⟩
      obtain ⟨arm, here, inner⟩ := valuation.arms_iff.mp inhabits
      obtain ⟨kept, there, equal⟩ := exists_distinct (List.mem_flatMap.mpr ⟨type, inside, here⟩)
      exact ⟨kept, there, valuation.of_same inner equal.symm⟩
    · rintro ⟨arm, kept, inner⟩
      obtain ⟨type, inside, here⟩ := List.mem_flatMap.mp (distinct_subset _ kept)
      exact ⟨type, inside, valuation.arms_iff.mpr ⟨arm, here, inner⟩⟩
  rw [flattened]
  unfold unionOf
  split
  · rename_i nothing
    simp [nothing, valuation.never]
  · rename_i arm alone
    simp [alone]
  · exact valuation.union value _

theorem intersectionOf_iff (valuation : IsValuation has) {types : List TypeExpr} :
    has value (intersectionOf types) ↔ ∀ type ∈ types, has value type := by
  have flattened : (∀ type ∈ types, has value type) ↔ ∀ part ∈ types.flatMap parts, has value part := by
    constructor
    · intro each part here
      obtain ⟨type, inside, there⟩ := List.mem_flatMap.mp here
      exact valuation.parts_iff.mp (each type inside) part there
    · intro each type inside
      exact valuation.parts_iff.mpr fun part here =>
        each part (List.mem_flatMap.mpr ⟨type, inside, here⟩)
  rw [flattened]
  unfold intersectionOf
  split
  · rename_i nothing
    simp [nothing, valuation.unknown]
  · rename_i part alone
    simp [alone]
  · exact valuation.intersection value _

end IsValuation

theorem inhabits_unionOf {value : Json} {types : List TypeExpr} :
    Inhabits declarations value (unionOf types) ↔ ∃ type ∈ types, Inhabits declarations value type :=
  isValuation_inhabits.unionOf_iff

theorem inhabits_intersectionOf {value : Json} {types : List TypeExpr} :
    Inhabits declarations value (intersectionOf types) ↔
      ∀ type ∈ types, Inhabits declarations value type :=
  isValuation_inhabits.intersectionOf_iff

theorem inhabits_copies {elements : List Json} {item : TypeExpr} {count : Nat} {rest : Option TypeExpr}
    {least : Nat} (each : ∀ element ∈ elements, Inhabits declarations element item)
    (enough : least ≤ elements.length) (limited : rest = none → elements.length ≤ count)
    (resting : ∀ type, rest = some type → type = item) :
    Inhabits declarations (.array elements) (.tuple (List.replicate count item) least rest) := by
  refine .tuple enough (by simpa using limited) ?_ ?_
  · intro position element type here there
    obtain rfl := List.eq_of_mem_replicate (List.mem_of_getElem? there)
    exact each element (List.mem_of_getElem? here)
  · intro position element type here _ after
    obtain rfl := resting type after
    exact each element (List.mem_of_getElem? here)

theorem inhabits_listFrom {elements : List Json} {item : TypeExpr} {least : Nat}
    (each : ∀ element ∈ elements, Inhabits declarations element item)
    (enough : least ≤ elements.length) :
    Inhabits declarations (.array elements) (listFrom item least) := by
  unfold listFrom
  split
  · exact .list each
  · exact inhabits_copies each enough (by simp) (by simp [eq_comm])

theorem inhabits_boundedList {elements : List Json} {item : TypeExpr} {least : Nat} {most : Option Nat}
    (each : ∀ element ∈ elements, Inhabits declarations element item)
    (enough : least ≤ elements.length) (limited : ∀ bound, most = some bound → elements.length ≤ bound) :
    Inhabits declarations (.array elements) (boundedList item least most) := by
  unfold boundedList
  split
  · exact inhabits_listFrom each enough
  · rename_i bound
    split
    · exact .list each
    · split
      · exact inhabits_copies each enough (fun _ => limited bound rfl) (by simp)
      · exact inhabits_listFrom each enough

end SchemaTypes
