import SchemaTypes.Proofs.DecimalImport
import SchemaTypes.Proofs.Renderings

/-!
Hints that join types with bars. Such a hint is written as it is, and the union of the same types arm by
arm; but both stand in parentheses in the same places, so wherever a hint stands, the union in its place
changes no more than the spaces of the source text.
-/

namespace SchemaTypes

open TypeExpr

def withoutSpaces (text : String) : String :=
  String.ofList (text.toList.filter fun char => char ≠ ' ')

def AlikeButSpaces (first second : String) : Prop :=
  withoutSpaces first = withoutSpaces second

theorem withoutSpaces_append (first second : String) :
    withoutSpaces (first ++ second) = withoutSpaces first ++ withoutSpaces second := by
  rw [withoutSpaces, String.toList_append, List.filter_append, String.ofList_append]
  rfl

theorem textRules_butSpaces : TextRules AlikeButSpaces where
  settled _ := rfl
  append front back := by
    rw [AlikeButSpaces, withoutSpaces_append, withoutSpaces_append, front, back]

theorem intercalate_barParts (text : String) : String.intercalate "|" (barParts text) = text := by
  have unwrapped : (barParts text).map String.toList = splitChars '|' text.toList := by
    rw [barParts, List.map_map]
    exact (List.map_congr_left fun chars _ => String.toList_ofList).trans (List.map_id _)
  apply String.toList_inj.mp
  rw [String.toList_intercalate, unwrapped]
  exact intercalate_splitChars '|' text.toList

def isMarkerType (type : String) : Bool :=
  (markerTable.map (·.2)).contains type

/-- The types that the text joins with bars, if there are several and markers stand for all of them. -/
def joinedTypes? (text : String) : Option (List String) :=
  if 2 ≤ (barParts text).length ∧ (barParts text).all isMarkerType then some (barParts text) else none

theorem isMarkerType_iff {type : String} :
    isMarkerType type = true ↔ ∃ marker, mappedType marker = some type := by
  have distinct : ∀ entry ∈ markerTable, mappedType entry.1 = some entry.2 := by decide
  rw [isMarkerType, List.contains_iff_mem, List.mem_map]
  constructor
  · rintro ⟨entry, inside, rfl⟩
    exact ⟨entry.1, distinct entry inside⟩
  · rintro ⟨marker, mapped⟩
    exact ⟨(marker, type), mem_of_lookup mapped, rfl⟩

theorem joinedTypes?_eq_some {text : String} {types : List String} :
    joinedTypes? text = some types ↔ text = String.intercalate "|" types ∧ 2 ≤ types.length ∧
      ∀ type ∈ types, ∃ marker, mappedType marker = some type := by
  simp only [joinedTypes?, Option.ite_none_right_eq_some, Option.some.injEq, List.all_eq_true,
    isMarkerType_iff]
  constructor
  · rintro ⟨⟨several, mapped⟩, rfl⟩
    exact ⟨(intercalate_barParts text).symm, several, mapped⟩
  · rintro ⟨rfl, several, mapped⟩
    have barless : ∀ type ∈ types, '|' ∉ type.toList := by
      intro type inside
      obtain ⟨marker, stands⟩ := mapped type inside
      exact mappedType_barless stands
    have filled : types ≠ [] := List.ne_nil_of_length_pos (by omega)
    rw [barParts_intercalate filled barless]
    exact ⟨⟨several, mapped⟩, rfl⟩

namespace TypeExpr

mutual

/-- The type with the union of the joined types in the place of each text that joins several. -/
def expanded : TypeExpr → TypeExpr
  | verbatim text =>
    match joinedTypes? text with
    | none => verbatim text
    | some types => union (types.map verbatim)
  | list item => list (expanded item)
  | tuple elements required rest => tuple (expandedAll elements) required (expandedOption rest)
  | object fields index => object (expandedFields fields) (expandedOption index)
  | union arms => union (expandedAll arms)
  | intersection parts => intersection (expandedAll parts)
  | type => type

def expandedAll : List TypeExpr → List TypeExpr
  | [] => []
  | type :: types => expanded type :: expandedAll types

def expandedOption : Option TypeExpr → Option TypeExpr
  | none => none
  | some type => some (expanded type)

def expandedFields : List (Field TypeExpr) → List (Field TypeExpr)
  | [] => []
  | ⟨name, content, required, docs⟩ :: fields =>
    ⟨name, expanded content, required, docs⟩ :: expandedFields fields

end

def expandedField (field : Field TypeExpr) : Field TypeExpr :=
  { field with content := field.content.expanded }

theorem expandedAll_eq (types : List TypeExpr) : expandedAll types = types.map expanded := by
  induction types with
  | nil => rfl
  | cons type types ih => rw [expandedAll, ih, List.map_cons]

theorem expandedOption_eq (type : Option TypeExpr) : expandedOption type = type.map expanded := by
  cases type <;> rfl

theorem expandedFields_eq (fields : List (Field TypeExpr)) :
    expandedFields fields = fields.map expandedField := by
  induction fields with
  | nil => rfl
  | cons field fields ih =>
    rw [expandedFields, ih, List.map_cons]
    rfl

end TypeExpr

def Declaration.expanded : Declaration → Declaration
  | interface name docs fields index =>
    interface name docs (fields.map expandedField) (index.map TypeExpr.expanded)
  | typeAlias name docs type => typeAlias name docs type.expanded
  | enumeration name docs members => enumeration name docs members

variable {flags : Flags}

theorem bindsInUnion_verbatim (text : String) :
    (verbatim text).bindsInUnion = !text.toList.all fun char => char != '&' := by
  rw [List.all_bne', Bool.not_not]
  rfl

theorem renderArms_verbatim {texts : List String}
    (unbound : ∀ text ∈ texts, (verbatim text).bindsInUnion = false) (depth : Nat) :
    renderArms flags depth (texts.map verbatim) = texts := by
  rw [renderArms_eq_map, List.map_map]
  refine (List.map_congr_left fun text inside => ?_).trans (List.map_id texts)
  rw [Function.comp_apply, unbound text inside]
  rfl

theorem isCompound_joined {texts : List String} (several : 2 ≤ texts.length) :
    (verbatim (String.intercalate "|" texts)).isCompound = true := by
  match texts, several with
  | first :: second :: others, _ =>
    rw [String.intercalate_cons_cons, isCompound, String.toList_append, String.toList_append,
      List.any_append, List.any_append]
    simp

theorem written_hint {types : List String} (several : 2 ≤ types.length)
    (mapped : ∀ type ∈ types, ∃ marker, mappedType marker = some type) :
    WrittenAs AlikeButSpaces flags (verbatim (String.intercalate "|" types))
      (union (types.map verbatim)) := by
  -- An arm is written as it is because no type of the table holds an ampersand.
  have table : ∀ entry ∈ markerTable, (entry.2.toList.all fun char => char != '&') = true := by decide
  have free : ∀ type ∈ types, (type.toList.all fun char => char != '&') = true := by
    intro type inside
    obtain ⟨marker, stands⟩ := mapped type inside
    exact table (marker, type) (mem_of_lookup stands)
  have unbound : ∀ type ∈ types, (verbatim type).bindsInUnion = false := by
    intro type inside
    rw [bindsInUnion_verbatim, free type inside]
    rfl
  refine ⟨(isCompound_joined several).symm, ?_, fun depth => ?_⟩
  · rw [bindsInUnion_verbatim, all_intercalate (by decide) free]
    rfl
  · rw [render, render, renderArms_verbatim unbound depth]
    have between : withoutSpaces "|" = withoutSpaces " | " := by decide
    exact textRules_butSpaces.intercalate between (List.forall₂_same.mpr fun _ _ => rfl)

theorem written_expanded (type : TypeExpr) : WrittenAs AlikeButSpaces flags type type.expanded := by
  induction type using innerInduction with
  | step type parts =>
    cases type with
    | verbatim text =>
      rw [expanded]
      cases joined : joinedTypes? text with
      | none => exact ⟨rfl, rfl, fun _ => rfl⟩
      | some types =>
        obtain ⟨rfl, several, mapped⟩ := joinedTypes?_eq_some.mp joined
        exact written_hint several mapped
    | list item => exact textRules_butSpaces.list (parts item (List.mem_singleton_self item))
    | tuple elements required rest =>
      have listed := written_map fun type inside => parts type (List.mem_append_left _ inside)
      have after := written_option fun type inside => parts type (List.mem_append_right _ inside)
      rw [expanded, expandedAll_eq, expandedOption_eq]
      exact textRules_butSpaces.tuple required listed after
    | object fields index =>
      have named : List.Forall₂ (FieldWrittenAs AlikeButSpaces flags) fields
          (fields.map expandedField) := by
        rw [List.forall₂_map_right_iff, List.forall₂_same]
        intro field inside
        have content := parts field.content (List.mem_append_left _ (List.mem_map_of_mem inside))
        exact ⟨rfl, rfl, fun _ => rfl, content⟩
      have indexed := written_option fun type inside => parts type (List.mem_append_right _ inside)
      rw [expanded, expandedFields_eq, expandedOption_eq]
      exact textRules_butSpaces.object named indexed
    | union arms =>
      rw [expanded, expandedAll_eq]
      exact textRules_butSpaces.union (written_map parts)
    | intersection types =>
      rw [expanded, expandedAll_eq]
      exact textRules_butSpaces.intersection (written_map parts)
    | _ => exact ⟨rfl, rfl, fun _ => rfl⟩

theorem alike_expanded (declaration : Declaration) :
    AlikeButSpaces (declaration.render flags) (declaration.expanded.render flags) := by
  cases declaration with
  | interface name docs fields index =>
    have body : WrittenAs AlikeButSpaces flags (.object fields index) _ := written_expanded _
    rw [expanded, expandedFields_eq, expandedOption_eq] at body
    exact textRules_butSpaces.interface rfl rfl body
  | typeAlias name docs type => exact textRules_butSpaces.typeAlias rfl rfl (written_expanded type)
  | enumeration name docs members => exact textRules_butSpaces.enumeration members rfl rfl

theorem expanded_joined {types : List String} (several : 2 ≤ types.length)
    (mapped : ∀ type ∈ types, ∃ marker, mappedType marker = some type) :
    (verbatim (String.intercalate "|" types)).expanded = union (types.map verbatim) := by
  rw [TypeExpr.expanded, joinedTypes?_eq_some.mpr ⟨rfl, several, mapped⟩]

/--
A hint that joins several types with bars is written as their union is. A type stands in parentheses in
the same places after each such hint has made room for its union, and the module is the same except for
spaces.
-/
theorem hints_written_as_unions (banner : String) (flags : Flags) (declarations : List Declaration) :
    (∀ types : List String, 2 ≤ types.length →
      (∀ type ∈ types, ∃ marker, mappedType marker = some type) →
        (verbatim (String.intercalate "|" types)).expanded = union (types.map verbatim)) ∧
    (∀ type : TypeExpr, type.expanded.isCompound = type.isCompound ∧
      type.expanded.bindsInUnion = type.bindsInUnion) ∧
    withoutSpaces (moduleText banner flags (declarations.map Declaration.expanded)) =
      withoutSpaces (moduleText banner flags declarations) := by
  refine ⟨fun types several mapped => expanded_joined several mapped, ?_, ?_⟩
  · intro type
    have written : WrittenAs AlikeButSpaces flags type type.expanded := written_expanded type
    exact ⟨written.compound, written.binds⟩
  · have front : AlikeButSpaces (bannerText banner) (bannerText banner) := rfl
    refine (textRules_butSpaces.moduleOf front ?_).symm
    rw [List.forall₂_map_right_iff, List.forall₂_same]
    exact fun declaration _ => alike_expanded declaration

def openDates : Declaration := .typeAlias "OpenDates" none (.list (.verbatim "Date|null"))

theorem openDates_expanded :
    openDates.expanded =
        .typeAlias "OpenDates" none (.list (.union [.verbatim "Date", .verbatim "null"])) ∧
      moduleText "" .standard [openDates] = "export type OpenDates = (Date|null)[];\n" ∧
      moduleText "" .standard [openDates.expanded] = "export type OpenDates = (Date | null)[];\n" ∧
      withoutSpaces (moduleText "" .standard [openDates.expanded]) =
        withoutSpaces (moduleText "" .standard [openDates]) := by
  obtain ⟨joined, _, written⟩ := hints_written_as_unions "" .standard [openDates]
  have mapped : ∀ type ∈ ["Date", "null"], ∃ marker, mappedType marker = some type := by
    intro type inside
    rcases List.mem_pair.mp inside with rfl | rfl
    · exact ⟨"date", by decide⟩
    · exact ⟨"null", by decide⟩
  have union := joined ["Date", "null"] (by decide) mapped
  refine ⟨?_, by decide +kernel, by decide +kernel, written⟩
  exact congrArg (fun item => Declaration.typeAlias "OpenDates" none (.list item)) union

end SchemaTypes
