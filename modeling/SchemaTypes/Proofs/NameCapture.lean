import Mathlib.Data.List.DropRight
import Mathlib.Data.List.Perm.Subperm
import SchemaTypes.Proofs.DecimalImport
import SchemaTypes.Proofs.Discovery

/-!
Names of declarations against names in hints. A hint refers to types that are declared elsewhere, and
nothing keeps a title from taking the name of one of them. Only titles can: a declaration is named after
the title of the root or of a node without a hint, as it is or with a number.
-/

namespace SchemaTypes

/-- The types of the table that are names. The others are keywords, which no declaration is named. -/
def foreignTypes : List String := ["Date", decimalType]

theorem mem_foreignTypes {name type : String} (mapped : mappedType name = some type)
    (proper : isTypeName type.toList = true) : type ∈ foreignTypes := by
  have table : ∀ entry ∈ markerTable, isTypeName entry.2.toList = true → entry.2 ∈ foreignTypes := by
    decide
  exact table (name, type) (mem_of_lookup mapped) proper

def stem (name : String) : List Char :=
  name.toList.rdropWhile Char.isDigit

theorem stem_numbered (base : String) (number : Nat) : stem (base ++ Nat.repr number) = stem base := by
  have digits : ∀ char ∈ (Nat.repr number).toList.reverse, char.isDigit = true := by
    intro char inside
    rw [List.mem_reverse, Nat.toList_repr] at inside
    exact Nat.isDigit_of_mem_toDigits (by decide) (by decide) inside
  rw [stem, stem, List.rdropWhile, List.rdropWhile, String.toList_append, List.reverse_append,
    List.dropWhile_append_of_pos digits]

theorem IsFirstFree.stem_eq {base name : String} {taken : List String}
    (first : IsFirstFree base taken name) : stem name = stem base := by
  cases first with
  | base => rfl
  | @numbered number => exact stem_numbered base number

/-- Names that numbering has used up are as many names with the stem of the base. -/
theorem lt_count_stem {base : String} {names : List String} {number : Nat} (used : base ∈ names)
    (filled : ∀ smaller, 1 ≤ smaller → smaller ≤ number → base ++ Nat.repr smaller ∈ names) :
    number < (names.map stem).count (stem base) := by
  let numbered := (List.range' 1 number).map fun smaller => base ++ Nat.repr smaller
  have apart : (base :: numbered).Nodup := by
    refine List.nodup_cons.mpr ⟨?_, List.Nodup.map (fun _ _ => numbered_injective) List.nodup_range'⟩
    intro inside
    obtain ⟨smaller, _, same⟩ := List.mem_map.mp inside
    exact numbered_ne_base base smaller same
  have within : base :: numbered ⊆ names.filter fun name => stem name == stem base := by
    intro name inside
    rw [List.mem_filter]
    rcases List.mem_cons.mp inside with rfl | inside
    · exact ⟨used, beq_self_eq_true _⟩
    · obtain ⟨smaller, range, rfl⟩ := List.mem_map.mp inside
      rw [List.mem_range'_1] at range
      exact ⟨filled smaller range.1 (by omega), beq_iff_eq.mpr (stem_numbered base smaller)⟩
  have enough := (List.subperm_of_subset apart within).length_le
  rw [List.count, List.countP_map, List.countP_eq_length_filter]
  rw [List.length_cons, List.length_map, List.length_range'] at enough
  exact enough

/-- The name is the base, or the base and a number for which enough names of its stem are asked for. -/
def ComesTo (asked : List String) (base name : String) : Prop :=
  name = base ∨
    ∃ number, 1 ≤ number ∧ name = base ++ Nat.repr number ∧
      number < (asked.map stem).count (stem base)

theorem ComesTo.stem_eq {asked : List String} {base name : String} (comes : ComesTo asked base name) :
    stem name = stem base := by
  rcases comes with rfl | ⟨number, _, rfl, _⟩
  · rfl
  · exact stem_numbered base number

theorem DeclaresEach.stems {ignoreBounds : Bool} {taken : List String} {nodes : List TitledNode}
    {declarations : List Declaration} (declares : DeclaresEach ignoreBounds taken nodes declarations) :
    (declarations.map Declaration.name).map stem = (nodes.map TitledNode.base).map stem := by
  induction declares with
  | nil => rfl
  | cons named _ _ _ ih => simp only [List.map_cons, named.stem_eq, ih]

theorem DeclaresEach.comesTo {ignoreBounds : Bool} {nodes : List TitledNode}
    {declarations : List Declaration} (declares : DeclaresEach ignoreBounds [] nodes declarations)
    {declaration : Declaration} (inside : declaration ∈ declarations) :
    ∃ node ∈ nodes, ComesTo (nodes.map TitledNode.base) node.base declaration.name := by
  obtain ⟨position, there⟩ := List.mem_iff_getElem?.mp inside
  obtain ⟨node, here⟩ : ∃ node, nodes[position]? = some node := by
    obtain ⟨bound, _⟩ := List.getElem?_eq_some_iff.mp there
    rw [declares.length_eq] at bound
    exact ⟨nodes[position], List.getElem?_eq_getElem bound⟩
  obtain ⟨first, _⟩ := declares.at here there
  refine ⟨node, List.mem_of_getElem? here, ?_⟩
  rw [ComesTo, ← declares.stems]
  have itself := List.mem_map_of_mem (f := Declaration.name) inside
  have earlier : ∀ name ∈ [] ++ (declarations.take position).map Declaration.name,
      name ∈ declarations.map Declaration.name := by
    intro name before
    exact List.map_subset Declaration.name (List.take_subset position declarations) before
  generalize declaration.name = name at first itself ⊢
  cases first with
  | base => exact Or.inl rfl
  | @numbered number used positive _ filled =>
    refine Or.inr ⟨number, positive, rfl, lt_count_stem (earlier _ used) ?_⟩
    intro smaller least most
    rcases Nat.eq_or_lt_of_le most with rfl | below
    · exact itself
    · exact earlier _ (filled smaller least below)

/-- A title of the root, or of a node that is given no hint. -/
def IsNamingTitle (validator : Json) (title : String) : Prop :=
  ∃ members, stringMember "title" members = some title ∧
    (validator = .object members ∨ HasNode validator members ∧ hint? members = none)

theorem title_annotatedNode (members : List (String × Json)) :
    stringMember "title" (annotatedNode members) = stringMember "title" members := by
  rw [stringMember, stringMember, lookup_annotatedNode (by decide), Option.bind_map]
  exact congrArg _ (funext string?_annotate)

theorem title_annotate {validator : Json} {title : String}
    (titled : (Schema.ofJson validator.annotate).title = some title) : IsNamingTitle validator title := by
  cases validator with
  | object members =>
    have given : stringMember "title" (annotatedNode members) = some title := by
      rw [Json.annotate, Schema.title, ofJson_object] at titled
      exact titled
    rw [title_annotatedNode] at given
    exact ⟨members, given, Or.inl rfl⟩
  | _ => cases titled

theorem title_of_rootBase (validator : Json) :
    (∃ title, IsNamingTitle validator title ∧
        rootBase (Schema.ofJson validator.annotate) "" = safeName title) ∨
      rootBase (Schema.ofJson validator.annotate) "" = fallbackRootName := by
  unfold rootBase
  simp only
  split
  · rename_i title found
    obtain ⟨titled, _⟩ := Option.filter_eq_some_iff.mp found
    exact Or.inl ⟨title, title_annotate titled, rfl⟩
  · exact Or.inr (if_neg (by decide))

theorem title_of_declaredBase? {validator : Json} (hintless : validator.isHintless = true)
    {members : List (String × Json)} (node : HasNode validator members) {base : String}
    (found : declaredBase? (Schema.ofJson (.object (annotatedNode members))) = some base) :
    ∃ title, IsNamingTitle validator title ∧ base = safeName title := by
  rw [ofJson_object] at found
  simp only [declaredBase?, Schema.head?, Option.bind_some] at found
  split at found
  · cases found
  · rename_i unhinted
    obtain ⟨named, _⟩ := Option.filter_eq_some_iff.mp found
    obtain ⟨title, titled, rfl⟩ := Option.map_eq_some_iff.mp named
    have given : stringMember "title" (annotatedNode members) = some title := titled
    have uncalled : hint? members = none := by
      rw [← hint_annotatedNode hintless node]
      exact Option.not_isSome_iff_eq_none.mp unhinted
    rw [title_annotatedNode] at given
    exact ⟨title, ⟨members, given, Or.inr ⟨node, uncalled⟩⟩, rfl⟩

def askedNames (validator : Json) (layer : OptionLayer) : List String :=
  (declaredNodes (Options.standard.merge layer).flags.ignoreBounds "" validator.annotate).map
    TitledNode.base

theorem title_of_declaredNode {validator : Json} (hintless : validator.isHintless = true)
    {ignoreBounds : Bool} {node : TitledNode}
    (inside : node ∈ declaredNodes ignoreBounds "" validator.annotate) :
    (∃ title, IsNamingTitle validator title ∧ node.base = safeName title) ∨
      node.base = fallbackRootName := by
  rcases List.mem_cons.mp inside with rfl | below
  · rw [← rootBase_eq]
    exact title_of_rootBase validator
  · obtain ⟨visit, visited, titled⟩ := List.mem_filterMap.mp below
    obtain ⟨rfl, asked⟩ := titledVisit?_eq_some.mp titled
    have visits := mem_visitsInOrder.mp (List.mem_of_mem_tail visited)
    rw [← declaredBase?_eq] at asked
    generalize node.node = value at visits asked
    cases value with
    | object annotated =>
      obtain ⟨members, node', rfl⟩ := hasNode_annotate (hasNode_of_visits visits .here)
      exact Or.inl (title_of_declaredBase? hintless node' asked)
    | _ => cases asked

theorem title_of_name {validator : Json} (hintless : validator.isHintless = true)
    {layer : OptionLayer} {declarations : List Declaration}
    (declared : declaredFor validator layer = .ok declarations) {declaration : Declaration}
    (inside : declaration ∈ declarations) :
    (∃ title, IsNamingTitle validator title ∧
        ComesTo (askedNames validator layer) (safeName title) declaration.name) ∨
      ComesTo (askedNames validator layer) fallbackRootName declaration.name := by
  obtain ⟨node, asked, comes⟩ :=
    (declaresEach_of_declarations (drawn_of_declaredFor declared)).comesTo inside
  rcases title_of_declaredNode hintless asked with ⟨title, titled, same⟩ | same
  · rw [same] at comes
    exact Or.inl ⟨title, titled, comes⟩
  · rw [same] at comes
    exact Or.inr comes

/-- No declaration has a name that a hint in one of the declarations refers to. -/
def Uncaptured (declarations : List Declaration) : Prop :=
  ∀ declaration ∈ declarations, ∀ other ∈ declarations, ∀ hint, other.Contains (.verbatim hint) →
    declaration.name ∉ barParts hint

/-- A type declared elsewhere that the hint of a node refers to, or that is imported. -/
def RefersTo (validator : Json) (type : String) : Prop :=
  type ∈ foreignTypes ∧
    ((∃ members hint, HasNode validator members ∧ hint? members = some hint ∧ type ∈ barParts hint) ∨
      (type = decimalType ∧ validator.namesDecimal = true))

theorem refersTo_of_contains {validator : Json} (hintless : validator.isHintless = true)
    {layer : OptionLayer} {declarations : List Declaration}
    (declared : declaredFor validator layer = .ok declarations) {declaration : Declaration}
    (inside : declaration ∈ declarations) {hint type : String}
    (contains : declaration.Contains (.verbatim hint)) (part : type ∈ barParts hint)
    (proper : isTypeName type.toList = true) : RefersTo validator type := by
  obtain ⟨annotated, node, given⟩ := hint_of_contains (drawn_of_declaredFor declared) inside contains
  obtain ⟨members, node', rfl⟩ := hasNode_annotate node
  rw [hint_annotatedNode hintless node'] at given
  refine ⟨?_, Or.inl ⟨members, hint, node', given, part⟩⟩
  obtain ⟨marker, _, _, parts⟩ := hintMembers_of_hint? given
  rw [parts] at part
  obtain ⟨name, mapped⟩ := mappedType_of_hintMembers part
  exact mem_foreignTypes mapped proper

/--
Unless a title of the root or of a node without a hint comes to a type declared elsewhere, as it is or by
numbering, and hints refer to this type, no declaration takes a name that a hint refers to. The
imported type is not declared again either.
-/
theorem hints_uncaptured {validator : Json} (hintless : validator.isHintless = true)
    {layer : OptionLayer} {text : String} (compiled : compile validator layer = .ok text)
    (apart : ∀ title type, IsNamingTitle validator title → RefersTo validator type →
      ¬ComesTo (askedNames validator layer) (safeName title) type) :
    ∃ declarations, declaredFor validator layer = .ok declarations ∧ Uncaptured declarations ∧
      (validator.namesDecimal = true → ∀ declaration ∈ declarations, declaration.name ≠ decimalType) := by
  rw [compile_eq] at compiled
  cases declared : declaredFor validator layer with
  | error malformed =>
    rw [declared] at compiled
    cases compiled
  | ok declarations =>
    have free : ∀ declaration ∈ declarations, ¬RefersTo validator declaration.name := by
      intro declaration inside refers
      rcases title_of_name hintless declared inside with ⟨title, titled, comes⟩ | comes
      · exact apart title _ titled refers comes
      · have rootless : ∀ type ∈ foreignTypes, stem fallbackRootName ≠ stem type := by
          decide +kernel
        exact rootless _ refers.1 comes.stem_eq.symm
    refine ⟨declarations, rfl, ?_, ?_⟩
    · intro declaration inside other there hint contains part
      have proper := (declarations_scoped (drawn_of_declaredFor declared)).proper declaration.name
        (List.mem_map_of_mem inside)
      exact free declaration inside (refersTo_of_contains hintless declared there contains part proper)
    · intro decimals declaration inside same
      apply free declaration inside
      rw [same]
      exact ⟨List.mem_cons_of_mem _ (List.mem_singleton_self _), Or.inr ⟨rfl, decimals⟩⟩

/-- Beside decimals: a title of dates, to which no hint refers, one that comes to the type it is given,
and one that only the 129th declaration could number that far. -/
def pricedEvent : Json :=
  .object [("title", .string "Event"), ("properties", .object [
    ("day", .object [("title", .string "Date"), ("type", .string "string")]),
    ("price", .object [("title", .string "decimal128"), ("bsonType", .string "decimal")]),
    ("prices", .object [("title", .string "Decimal"),
      ("items", .object [("bsonType", .string "decimal")])])])]

theorem pricedEvent_titles {title : String} (titled : IsNamingTitle pricedEvent title) :
    safeName title ≠ decimalType := by
  let clear (members : List (String × Json)) : Bool :=
    (stringMember "title" members).all fun title => safeName title ≠ decimalType
  obtain ⟨members, given, root | ⟨node, unhinted⟩⟩ := titled
  · obtain rfl := Json.object.inj root.symm
    obtain rfl : "Event" = title := Option.some.inj given
    decide
  · have checked : pricedEvent.everyNode (fun members => (hint? members).isSome || clear members) = true := by
      decide
    have here := Json.check_of_everyNode checked node
    simpa [unhinted, clear, given] using here

theorem pricedEvent_refers {type : String} (refers : RefersTo pricedEvent type) : type = decimalType := by
  obtain ⟨_, ⟨members, hint, node, called, part⟩ | ⟨same, _⟩⟩ := refers
  · have checked : pricedEvent.everyNode (fun members =>
        (hint? members).all fun hint => (barParts hint).all fun type => type = decimalType) = true := by
      decide
    have here := Json.check_of_everyNode checked node
    rw [called, Option.all_some, List.all_eq_true] at here
    exact of_decide_eq_true (here type part)
  · exact same

def pricedEventDeclarations : List Declaration := [
  .interface "Event" none [⟨"day", .reference "Date", false, none⟩,
    ⟨"price", .verbatim "Decimal128", false, none⟩, ⟨"prices", .reference "Decimal", false, none⟩]
    (some .unknown),
  .typeAlias "Date" none .string,
  .typeAlias "Decimal" none (.list (.verbatim "Decimal128"))]

theorem pricedEvent_declared : declaredFor pricedEvent .empty = .ok pricedEventDeclarations := by
  decide +kernel

theorem pricedEvent_apart {title type : String} (titled : IsNamingTitle pricedEvent title)
    (refers : RefersTo pricedEvent type) :
    ¬ComesTo (askedNames pricedEvent .empty) (safeName title) type := by
  rw [pricedEvent_refers refers]
  rintro (same | ⟨number, _, same, below⟩)
  · exact pricedEvent_titles titled same.symm
  · have declares := declaresEach_of_declarations (drawn_of_declaredFor pricedEvent_declared)
    have three : (askedNames pricedEvent .empty).length = 3 := by
      rw [askedNames, List.length_map, ← declares.length_eq]
      rfl
    have few := below.trans_le List.count_le_length
    rw [List.length_map, three] at few
    have digits : ∀ number < 3, (Nat.repr number).toList.getLast?.isSome = true ∧
        (Nat.repr number).toList.getLast? ≠ decimalType.toList.getLast? := by decide
    obtain ⟨written, other⟩ := digits number few
    apply other
    rw [same, String.toList_append, List.getLast?_append, Option.or_of_isSome written]

theorem pricedEvent_uncaptured :
    declaredFor pricedEvent .empty = .ok pricedEventDeclarations ∧ Uncaptured pricedEventDeclarations ∧
      ∀ declaration ∈ pricedEventDeclarations, declaration.name ≠ decimalType := by
  obtain ⟨text, compiled⟩ : ∃ text, compile pricedEvent .empty = .ok text := by
    rw [compile_eq, pricedEvent_declared]
    exact ⟨_, rfl⟩
  obtain ⟨declarations, declared, uncaptured, imported⟩ := hints_uncaptured (by decide +kernel) compiled
    fun _ _ => pricedEvent_apart
  rw [pricedEvent_declared] at declared
  cases declared
  exact ⟨pricedEvent_declared, uncaptured, imported (by decide +kernel)⟩

def capturedEvent : Json :=
  .object [("title", .string "Event"), ("properties", .object [
    ("day", .object [("title", .string "Date"), ("type", .string "string")]),
    ("at", .object [("bsonType", .string "date")])])]

def capturedEventDeclarations : List Declaration := [
  .interface "Event" none [⟨"day", .reference "Date", false, none⟩, ⟨"at", .verbatim "Date", false, none⟩]
    (some .unknown),
  .typeAlias "Date" none .string]

/-- Without the condition on titles a hint is captured: here dates are declared to be strings. -/
theorem capturedEvent_captured :
    declaredFor capturedEvent .empty = .ok capturedEventDeclarations ∧
      ¬Uncaptured capturedEventDeclarations := by
  refine ⟨by decide +kernel, fun uncaptured => ?_⟩
  have dated : (capturedEventDeclarations[0]).Contains (.verbatim "Date") :=
    .deeper (by simp [TypeExpr.inner]) .here
  have apart := uncaptured (.typeAlias "Date" none .string) (by simp [capturedEventDeclarations]) _
    (List.getElem_mem _) "Date" dated
  exact apart (by decide +kernel)

end SchemaTypes
