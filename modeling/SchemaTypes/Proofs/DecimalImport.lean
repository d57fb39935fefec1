import SchemaTypes.Proofs.Additivity
import SchemaTypes.Proofs.Inertness
import SchemaTypes.Proofs.Pointers
import SchemaTypes.Proofs.Occurrences

/-!
The import of decimals. Detection looks at every object of the validator and typing at fewer, so a
declaration that names decimals between bars never goes without the import, which is the last line of
the banner.
-/

namespace SchemaTypes

open Json TypeExpr

def decimalType : String := "Decimal128"

def barParts (text : String) : List String :=
  (splitChars '|' text.toList).map String.ofList

theorem barParts_of_barless {text : String} (barless : '|' ∉ text.toList) : barParts text = [text] := by
  rw [barParts, splitChars_of_not_mem barless, List.map_singleton, String.ofList_toList]

theorem barParts_append {text : String} (barless : '|' ∉ text.toList) (others : String) :
    barParts (text ++ "|" ++ others) = text :: barParts others := by
  have chars : (text ++ "|" ++ others).toList = text.toList ++ '|' :: others.toList := by
    simp [String.toList_append]
  rw [barParts, chars, splitChars_append barless, List.map_cons, String.ofList_toList, barParts]

theorem barParts_intercalate {texts : List String} (several : texts ≠ [])
    (barless : ∀ text ∈ texts, '|' ∉ text.toList) :
    barParts (String.intercalate "|" texts) = texts := by
  induction texts with
  | nil => exact absurd rfl several
  | cons text texts ih =>
    rw [List.forall_mem_cons] at barless
    cases texts with
    | nil => rw [String.intercalate_singleton, barParts_of_barless barless.1]
    | cons next texts =>
      rw [String.intercalate_cons_cons, barParts_append barless.1, ih (List.cons_ne_nil _ _) barless.2]

theorem mappedType_barless {name text : String} (mapped : mappedType name = some text) :
    '|' ∉ text.toList := by
  have table : ∀ entry ∈ markerTable, '|' ∉ entry.2.toList := by decide
  exact table (name, text) (mem_of_lookup mapped)

theorem mappedType_decimal {name : String} (mapped : mappedType name = some decimalType) :
    name = decimalMarker := by
  have table : ∀ entry ∈ markerTable, entry.2 = decimalType → entry.1 = decimalMarker := by
    decide
  exact table (name, decimalType) (mem_of_lookup mapped) rfl

theorem hintMembers_barless (marker : Json) : ∀ text ∈ hintMembers marker, '|' ∉ text.toList := by
  intro text inside
  obtain ⟨name, mapped⟩ := mappedType_of_hintMembers inside
  exact mappedType_barless mapped

theorem namesMarker_of_hintMembers {marker : Json} (inside : decimalType ∈ hintMembers marker) :
    namesMarker decimalMarker marker = true := by
  cases marker with
  | string name =>
    have named : name = decimalMarker := mappedType_decimal (Option.mem_toList.mp inside)
    exact decide_eq_true named
  | array names =>
    obtain ⟨name, listed, mapped⟩ := List.mem_filterMap.mp inside
    rw [mappedType_decimal mapped] at listed
    exact List.contains_iff_mem.mpr listed
  | _ => cases inside

/-- The marker of the node is, or lists, that of decimals. -/
def marksDecimal (members : List (String × Json)) : Bool :=
  (members.lookup markerKey).any (namesMarker decimalMarker)

theorem barParts_hintText {marker : Json} (several : hintMembers marker ≠ []) :
    barParts (hintText marker) = hintMembers marker :=
  barParts_intercalate several (hintMembers_barless marker)

theorem hintMembers_of_hint? {members : List (String × Json)} {hint : String}
    (called : hint? members = some hint) :
    ∃ marker, members.lookup markerKey = some marker ∧ hintMembers marker ≠ [] ∧
      barParts hint = hintMembers marker := by
  obtain ⟨_, marker, found, rfl, filled⟩ := hint?_eq_some.mp called
  have several : hintMembers marker ≠ [] := by
    intro empty
    exact filled (by rw [hintText, empty, String.intercalate_nil])
  exact ⟨marker, found, several, barParts_hintText several⟩

theorem marksDecimal_of_hint {members : List (String × Json)} {hint : String}
    (called : hint? members = some hint) (named : decimalType ∈ barParts hint) :
    marksDecimal members = true := by
  obtain ⟨marker, found, _, parts⟩ := hintMembers_of_hint? called
  rw [parts] at named
  rw [marksDecimal, found, Option.any_some]
  exact namesMarker_of_hintMembers named

mutual

theorem namesDecimal_eq (value : Json) :
    value.namesDecimal = !value.everyObject fun members => !marksDecimal members := by
  cases value with
  | array elements => rw [namesDecimal, everyObject, anyNamesDecimal_eq elements]
  | object members =>
    rw [namesDecimal, everyObject, memberNamesDecimal_eq members, Bool.not_and, Bool.not_not,
      marksDecimal]
  | _ => rfl
termination_by structural value

theorem anyNamesDecimal_eq (elements : List Json) :
    anyNamesDecimal elements = !everyObjectAmong (fun members => !marksDecimal members) elements := by
  cases elements with
  | nil => rfl
  | cons element elements =>
    rw [anyNamesDecimal, everyObjectAmong, namesDecimal_eq element, anyNamesDecimal_eq elements,
      Bool.not_and]
termination_by structural elements

theorem memberNamesDecimal_eq (members : List (String × Json)) :
    memberNamesDecimal members = !everyObjectUnder (fun members => !marksDecimal members) members := by
  cases members with
  | nil => rfl
  | cons member members =>
    obtain ⟨key, value⟩ := member
    rw [memberNamesDecimal, everyObjectUnder, namesDecimal_eq value, memberNamesDecimal_eq members,
      Bool.not_and]
termination_by structural members

end

theorem namesDecimal_of_hasNode {value : Json} {members : List (String × Json)}
    (node : HasNode value members) (marked : marksDecimal members = true) :
    value.namesDecimal = true := by
  rw [namesDecimal_eq, Bool.not_eq_true', Bool.eq_false_iff]
  intro unmarked
  have here := check_of_hasNode unmarked node
  rw [marked] at here
  cases here

theorem drawn_of_declaredFor {validator : Json} {layer : OptionLayer} {declarations : List Declaration}
    (declared : declaredFor validator layer = .ok declarations) :
    ((Schema.ofJson validator.annotate).declarations ""
      (Options.standard.merge layer).flags.ignoreBounds).outcome = .ok (declarations, []) := by
  simp only [declaredFor, Schema.declarations] at *
  cases here : (declare (rootBase (Schema.ofJson validator.annotate) "")
      (Schema.ofJson validator.annotate) ((Schema.ofJson validator.annotate).body
      (Options.standard.merge layer).flags.ignoreBounds) []).outcome with
  | error malformed =>
    rw [here] at declared
    cases declared
  | ok result =>
    rw [here] at declared
    cases declared
    rfl

/-- A hint in a declaration that names decimals comes from a node that is marked as a decimal. -/
theorem namesDecimal_of_contains {validator : Json} (hintless : validator.isHintless = true)
    {layer : OptionLayer} {declarations : List Declaration}
    (declared : declaredFor validator layer = .ok declarations) {declaration : Declaration}
    (inside : declaration ∈ declarations) {custom : String}
    (contains : declaration.Contains (.verbatim custom)) (named : decimalType ∈ barParts custom) :
    validator.namesDecimal = true := by
  obtain ⟨annotated, node, given⟩ :=
    hint_of_contains (drawn_of_declaredFor declared) inside contains
  obtain ⟨members, node', rfl⟩ := hasNode_annotate node
  rw [hint_annotatedNode hintless node'] at given
  exact namesDecimal_of_hasNode node' (marksDecimal_of_hint given named)

def textLines (text : String) : List String :=
  (splitChars '\n' text.toList).map String.ofList

theorem textLines_append (text other : String) :
    textLines (text ++ "\n" ++ other) = textLines text ++ textLines other := by
  have chars : (text ++ "\n" ++ other).toList = text.toList ++ '\n' :: other.toList := by
    simp [String.toList_append]
  rw [textLines, chars, splitChars_append_cons, List.map_append, textLines, textLines]

theorem textLines_intercalate {texts : List String} (several : texts ≠ []) :
    textLines (String.intercalate "\n" texts) = texts.flatMap textLines := by
  induction texts with
  | nil => exact absurd rfl several
  | cons text texts ih =>
    cases texts with
    | nil => simp [String.intercalate_singleton]
    | cons next texts =>
      rw [String.intercalate_cons_cons, textLines_append, ih (List.cons_ne_nil _ _)]
      exact List.flatMap_cons.symm

theorem textLines_decimalImport : textLines decimalImport = [decimalImport] := by
  decide

theorem textLines_banner {validator : Json} (named : validator.namesDecimal = true)
    (layer : OptionLayer) :
    textLines (assignment validator layer).banner =
      (Options.standard.merge layer).banner.flatMap textLines ++ [decimalImport] := by
  have several : bannerLines validator (Options.standard.merge layer) ≠ [] := by
    simp [bannerLines, named]
  rw [assignment, textLines_intercalate several, bannerLines, if_pos named, List.flatMap_append,
    List.flatMap_singleton, textLines_decimalImport]

theorem textLines_moduleText {banner : String} (filled : banner ≠ "") (flags : Flags)
    (declarations : List Declaration) :
    textLines (moduleText banner flags declarations) =
      textLines banner ++ "" :: textLines (declarationsText flags declarations) := by
  have blank : bannerText banner = banner ++ "\n" ++ "" ++ "\n" := by
    simp [bannerText, filled, String.append_assoc]
  rw [moduleText, blank, textLines_append, textLines_append, List.append_assoc]
  rfl

/--
Whatever banner the layer gives, and if it gives none: a declaration that names decimals between bars
stands under a banner that ends in the line of the import, and that line stands alone before the
first declaration.
-/
theorem decimal_imported {validator : Json} (hintless : validator.isHintless = true)
    {layer : OptionLayer} {text : String} (compiled : compile validator layer = .ok text) :
    ∃ declarations, declaredFor validator layer = .ok declarations ∧
      ∀ declaration ∈ declarations, ∀ custom, declaration.Contains (.verbatim custom) →
        decimalType ∈ barParts custom →
          let options := Options.standard.merge layer
          textLines (assignment validator layer).banner =
              options.banner.flatMap textLines ++ [decimalImport] ∧
            textLines text = options.banner.flatMap textLines ++
              [decimalImport, ""] ++ textLines (declarationsText options.flags declarations) := by
  rw [compile_eq] at compiled
  cases declared : declaredFor validator layer with
  | error malformed =>
    rw [declared] at compiled
    cases compiled
  | ok declarations =>
    rw [declared] at compiled
    cases compiled
    refine ⟨declarations, rfl, ?_⟩
    intro declaration inside custom contains member
    have named : validator.namesDecimal = true :=
      namesDecimal_of_contains hintless declared inside contains member
    have banner := textLines_banner named layer
    have filled : (assignment validator layer).banner ≠ "" := by
      intro empty
      rw [empty] at banner
      have last := congrArg List.getLast? banner
      rw [List.getLast?_concat] at last
      exact absurd last (by decide +kernel)
    refine ⟨banner, ?_⟩
    rw [textLines_moduleText filled, banner, List.append_assoc, List.append_assoc]
    rfl

def ledger : Json :=
  .object [("title", .string "ledger"), ("properties", .object [
    ("entries", .object [("items", .object [
      ("bsonType", .array [.string "decimal", .string "null"])])])])]

def bannerless : OptionLayer := { OptionLayer.empty with banner := some [] }

def ledgerDeclaration : Declaration :=
  .interface "Ledger" none [⟨"entries", .list (.verbatim "Decimal128|null"), false, none⟩]
    (some .unknown)

theorem ledger_declared : declaredFor ledger bannerless = .ok [ledgerDeclaration] := by
  rfl

theorem ledgerDeclaration_contains : ledgerDeclaration.Contains (.verbatim "Decimal128|null") := by
  have entries : TypeExpr.list (.verbatim "Decimal128|null") ∈
      (TypeExpr.object [⟨"entries", .list (.verbatim "Decimal128|null"), false, none⟩]
        (some .unknown)).inner := by simp [TypeExpr.inner]
  exact .deeper entries (.deeper (List.mem_singleton_self _) .here)

theorem ledger_imports :
    declaredFor ledger bannerless = .ok [ledgerDeclaration] ∧
      ledgerDeclaration.Contains (.verbatim "Decimal128|null") ∧
      decimalType ∈ barParts "Decimal128|null" ∧
      ∃ text, compile ledger bannerless = .ok text ∧
        (textLines text).take 3 = [decimalImport, "", "export interface Ledger \x7b"] := by
  have compiled : compile ledger bannerless = .ok (moduleText (assignment ledger bannerless).banner
      (Options.standard.merge bannerless).flags [ledgerDeclaration]) := by
    rw [compile_eq, ledger_declared]
    rfl
  have member : decimalType ∈ barParts "Decimal128|null" := by decide +kernel
  obtain ⟨declarations, declared, imported⟩ := decimal_imported (by decide +kernel) compiled
  rw [ledger_declared] at declared
  cases declared
  obtain ⟨_, lines⟩ :=
    imported ledgerDeclaration (List.mem_singleton_self _) _ ledgerDeclaration_contains member
  refine ⟨ledger_declared, ledgerDeclaration_contains, member, _, compiled, ?_⟩
  rw [lines]
  decide +kernel

end SchemaTypes
