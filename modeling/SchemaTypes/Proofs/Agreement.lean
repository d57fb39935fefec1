import SchemaTypes.Proofs.TypingSteps
import SchemaTypes.Proofs.Writing

namespace SchemaTypes

open TypeExpr

namespace Declaration

def toldApart : Declaration → Bool
  | interface _ _ fields index => (TypeExpr.object fields index).toldApart
  | typeAlias _ _ type => type.toldApart
  | enumeration _ _ _ => true

end Declaration

def TypeExpr.isWritable (permitted : Option String → Bool) (type : TypeExpr) : Bool :=
  plainTexts type && permitsFields permitted type

/-- The second type is the first without documentation, unless that decides about arms. -/
structure AgreeType (permitted : Option String → Bool) (type other : TypeExpr) : Prop where
  writable : type.everywhere (isWritable permitted) = true
  same : type.toldApart = true → type.undocumented = other

structure AgreeField (permitted : Option String → Bool) (field other : Field TypeExpr) : Prop where
  name : field.name = other.name
  required : field.required = other.required
  permits : permitted field.docs = true
  docs : other.docs = blankDocs field.docs
  content : AgreeType permitted field.content other.content

structure AgreeDeclaration (permitted : Option String → Bool) (declaration other : Declaration) :
    Prop where
  name : declaration.name = other.name
  plain : declaration.isPlainText = true
  permits : declaration.permits permitted = true
  same : declaration.toldApart = true → declaration.undocumented = other

abbrev AgreeAll (permitted : Option String → Bool) : List TypeExpr → List TypeExpr → Prop :=
  List.Forall₂ (AgreeType permitted)

abbrev AgreeOption (permitted : Option String → Bool) : Option TypeExpr → Option TypeExpr → Prop :=
  Option.Rel (AgreeType permitted)

abbrev AgreeFields (permitted : Option String → Bool) :
    List (Field TypeExpr) → List (Field TypeExpr) → Prop :=
  List.Forall₂ (AgreeField permitted)

abbrev AgreeDeclarations (permitted : Option String → Bool) :
    List Declaration → List Declaration → Prop :=
  List.Forall₂ (AgreeDeclaration permitted)

variable {permitted : Option String → Bool}

theorem names_of_agree {declared declared' : List Declaration}
    (agree : AgreeDeclarations permitted declared declared') :
    declared.map Declaration.name = declared'.map Declaration.name := by
  induction agree with
  | nil => rfl
  | cons first _ ih => rw [List.map_cons, List.map_cons, first.name, ih]

theorem everywhere_isWritable {type : TypeExpr} :
    type.everywhere (isWritable permitted) = true ↔
      type.everywhere plainTexts = true ∧ type.everywhere (permitsFields permitted) = true :=
  everywhere_and

theorem AgreeType.of_equal {type : TypeExpr} (writable : type.everywhere (isWritable permitted) = true)
    (bare : type.undocumented = type) : AgreeType permitted type type :=
  ⟨writable, fun _ => bare⟩

theorem agree_reference {name : String} (plain : name.toList.all isPlain = true) :
    AgreeType permitted (.reference name) (.reference name) :=
  .of_equal (everywhere_isWritable.mpr ⟨plain, rfl⟩) rfl

theorem agree_verbatim {text : String} (plain : text.toList.all isPlain = true) :
    AgreeType permitted (.verbatim text) (.verbatim text) :=
  .of_equal (everywhere_isWritable.mpr ⟨plain, rfl⟩) rfl

theorem agree_all {types others : List TypeExpr}
    (agree : AgreeAll permitted types others) :
    (∀ type ∈ types, type.everywhere (isWritable permitted) = true) ∧
      ((∀ type ∈ types, type.toldApart = true) → types.map undocumented = others) := by
  induction agree with
  | nil => simp
  | cons first _ ih =>
    refine ⟨?_, fun apart => ?_⟩
    · rw [List.forall_mem_cons]
      exact ⟨first.writable, ih.1⟩
    · rw [List.forall_mem_cons] at apart
      rw [List.map_cons, first.same apart.1, ih.2 apart.2]

theorem agree_option {type other : Option TypeExpr}
    (agree : AgreeOption permitted type other) :
    (∀ content, type = some content → content.everywhere (isWritable permitted) = true) ∧
      ((∀ content, type = some content → content.toldApart = true) →
        type.map undocumented = other) := by
  cases agree with
  | none => simp
  | some agree =>
    refine ⟨?_, fun apart => ?_⟩
    · intro content given
      cases given
      exact agree.writable
    · rw [Option.map_some, agree.same (apart _ rfl)]

theorem agree_fields {fields others : List (Field TypeExpr)}
    (agree : AgreeFields permitted fields others) :
    (∀ field ∈ fields, permitted field.docs = true) ∧
      (∀ field ∈ fields, field.content.everywhere (isWritable permitted) = true) ∧
        ((∀ field ∈ fields, field.content.toldApart = true) →
          fields.map undocumentedField = others) := by
  induction agree with
  | nil => simp
  | @cons field other _ _ first _ ih =>
    obtain ⟨permits, writable, same⟩ := ih
    refine ⟨?_, ?_, fun apart => ?_⟩
    · rw [List.forall_mem_cons]
      exact ⟨first.permits, permits⟩
    · rw [List.forall_mem_cons]
      exact ⟨first.content.writable, writable⟩
    · rw [List.forall_mem_cons] at apart
      rw [List.map_cons, same apart.2, undocumentedField, first.name, first.required, ← first.docs,
        first.content.same apart.1]

theorem everywhere_unionOf {types : List TypeExpr}
    (writable : ∀ type ∈ types, type.everywhere (isWritable permitted) = true) :
    (unionOf types).everywhere (isWritable permitted) = true := by
  have kept : ∀ arm ∈ distinct (types.flatMap arms), arm.everywhere (isWritable permitted) = true := by
    intro arm inside
    obtain ⟨type, there, here⟩ := List.mem_flatMap.mp (distinct_subset _ inside)
    have whole := writable type there
    cases type with
    | union arms => exact (everywhere_union.mp whole).2 arm here
    | _ =>
      obtain rfl := List.mem_singleton.mp here
      exact whole
  unfold unionOf
  split
  · rfl
  · rename_i arm alone
    exact kept arm (by simp [alone])
  · exact everywhere_union.mpr ⟨rfl, kept⟩

theorem everywhere_intersectionOf {types : List TypeExpr}
    (writable : ∀ type ∈ types, type.everywhere (isWritable permitted) = true) :
    (intersectionOf types).everywhere (isWritable permitted) = true := by
  have kept : ∀ part ∈ types.flatMap parts, part.everywhere (isWritable permitted) = true := by
    intro part inside
    obtain ⟨type, there, here⟩ := List.mem_flatMap.mp inside
    have whole := writable type there
    cases type with
    | intersection parts => exact (everywhere_intersection.mp whole).2 part here
    | _ =>
      obtain rfl := List.mem_singleton.mp here
      exact whole
  unfold intersectionOf
  split
  · rfl
  · rename_i part alone
    exact kept part (by simp [alone])
  · exact everywhere_intersection.mpr ⟨rfl, kept⟩

theorem agree_unionOf {types others : List TypeExpr}
    (agree : AgreeAll permitted types others) :
    AgreeType permitted (unionOf types) (unionOf others) := by
  obtain ⟨writable, same⟩ := agree_all agree
  refine ⟨everywhere_unionOf writable, fun apart => ?_⟩
  rw [undocumented_unionOf apart, same (toldApart_of_unionOf apart)]

theorem agree_intersectionOf {types others : List TypeExpr}
    (agree : AgreeAll permitted types others) :
    AgreeType permitted (intersectionOf types) (intersectionOf others) := by
  obtain ⟨writable, same⟩ := agree_all agree
  refine ⟨everywhere_intersectionOf writable, fun apart => ?_⟩
  rw [undocumented_intersectionOf, same (toldApart_of_intersectionOf apart)]

theorem agree_list {item other : TypeExpr} (agree : AgreeType permitted item other) :
    AgreeType permitted (.list item) (.list other) := by
  refine ⟨?_, fun apart => ?_⟩
  · rw [everywhere, Bool.and_eq_true]
    exact ⟨rfl, agree.writable⟩
  · rw [toldApart_list] at apart
    rw [undocumented, agree.same apart]

theorem agree_tuple {elements others : List TypeExpr} {rest other : Option TypeExpr}
    (agree : AgreeAll permitted elements others)
    (agree' : AgreeOption permitted rest other) (required : Nat) :
    AgreeType permitted (.tuple elements required rest) (.tuple others required other) := by
  obtain ⟨writable, same⟩ := agree_all agree
  obtain ⟨writable', same'⟩ := agree_option agree'
  refine ⟨everywhere_tuple.mpr ⟨rfl, writable, writable'⟩, fun apart => ?_⟩
  rw [toldApart_tuple] at apart
  rw [undocumented, undocumentedAll_eq, undocumentedOption_eq, same apart.1, same' apart.2]

theorem agree_object {fields others : List (Field TypeExpr)} {index other : Option TypeExpr}
    (agree : AgreeFields permitted fields others)
    (agree' : AgreeOption permitted index other) :
    AgreeType permitted (.object fields index) (.object others other) := by
  obtain ⟨permits, writable, same⟩ := agree_fields agree
  obtain ⟨writable', same'⟩ := agree_option agree'
  have own : isWritable permitted (.object fields index) = true := List.all_eq_true.mpr permits
  refine ⟨everywhere_object.mpr ⟨own, writable, writable'⟩, fun apart => ?_⟩
  rw [toldApart_object] at apart
  rw [undocumented, undocumentedFields_eq, undocumentedOption_eq, same apart.1, same' apart.2]

theorem agree_copies {item other : TypeExpr} (agree : AgreeType permitted item other) (count : Nat) :
    AgreeAll permitted (List.replicate count item) (List.replicate count other) := by
  induction count with
  | zero => exact List.Forall₂.nil
  | succ count ih => exact List.Forall₂.cons agree ih

theorem agree_listFrom {item other : TypeExpr} (agree : AgreeType permitted item other) (least : Nat) :
    AgreeType permitted (listFrom item least) (listFrom other least) := by
  unfold listFrom
  split
  · exact agree_list agree
  · exact agree_tuple (agree_copies agree least) (.some agree) least

theorem agree_boundedList {item other : TypeExpr} (agree : AgreeType permitted item other)
    (least : Nat) (most : Option Nat) :
    AgreeType permitted (boundedList item least most) (boundedList other least most) := by
  unfold boundedList
  split
  · exact agree_listFrom agree least
  · rename_i most
    split
    · exact agree_list agree
    · split
      · exact agree_tuple (agree_copies agree most) .none least
      · exact agree_listFrom agree least

theorem agree_noMoreThan {types others : List TypeExpr}
    (agree : AgreeAll permitted types others) (most : Option Nat) :
    AgreeAll permitted (noMoreThan most types) (noMoreThan most others) := by
  cases most with
  | none => exact agree
  | some most => exact List.forall₂_take most agree

theorem agree_declarationOfType {type other : TypeExpr} (agree : AgreeType permitted type other)
    {name : String} (plain : name.toList.all isPlain = true) {docs : Option String}
    (permits : permitted docs = true) :
    AgreeDeclaration permitted (declarationOfType name docs type)
      (declarationOfType name (blankDocs docs) other) := by
  obtain ⟨plainTypes, permitsTypes⟩ := everywhere_isWritable.mp agree.writable
  refine ⟨?_, ?_, ?_, ?_⟩
  · rw [declarationOfType_name, declarationOfType_name]
  · rw [Declaration.isPlainText, declarationOfType_name, Bool.and_eq_true]
    refine ⟨plain, ?_⟩
    cases type <;> exact plainTypes
  · have documented : (declarationOfType name docs type).docs = docs := by cases type <;> rfl
    rw [Declaration.permits, documented, Bool.and_eq_true]
    refine ⟨permits, ?_⟩
    cases type <;> exact permitsTypes
  · intro apart
    have apart' : type.toldApart = true := by
      cases type <;> exact apart
    rw [← agree.same apart']
    cases type with
    | object fields index =>
      simp only [declarationOfType, undocumented, Declaration.undocumented, undocumentedFields_eq,
        undocumentedOption_eq]
    | _ => rfl

end SchemaTypes
