import SchemaTypes.Proofs.Soundness

/-!
Typing is exact where types can say all that a schema says: without bounds, positional items, `oneOf`
and whole numbers, with every required member declared, and with literals on nodes of their own, a
value that inhabits the type of a schema is valid under it.
-/

namespace SchemaTypes

/-- Keywords that types express in full. -/
def shapeKeys : List String :=
  ["title", "description", "type", "properties", "required", "additionalProperties", "items", "allOf",
    "anyOf"]

def enumKeys : List String := ["title", "description", "enum", "tsEnumNames"]

def constKeys : List String := ["title", "description", "const"]

def exactKindNames : List String := ["string", "number", "boolean", "null", "object", "array"]

def onlyKeys (keys : List String) (members : List (String × Json)) : Bool :=
  members.all fun member => member.1 ∈ keys

def kindNames (members : List (String × Json)) : List String :=
  match members.lookup "type" with
  | some (.string name) => [name]
  | some (.array names) => names.filterMap Json.string?
  | _ => []

def requiredNames (members : List (String × Json)) : List String :=
  match members.lookup "required" with
  | some (.array names) => names.filterMap Json.string?
  | _ => []

def declaredNames (members : List (String × Json)) : List String :=
  match members.lookup "properties" with
  | some (.object named) => named.map (·.1)
  | _ => []

def hasPositionalItems (members : List (String × Json)) : Bool :=
  ((members.lookup "items").bind Json.elements?).isSome

/-- A node whose keywords types express in full. -/
def isShapeNode (members : List (String × Json)) : Bool :=
  onlyKeys shapeKeys members && (kindNames members).all (· ∈ exactKindNames) &&
    (requiredNames members).all (· ∈ declaredNames members) && !hasPositionalItems members

def isExactNode (members : List (String × Json)) : Bool :=
  isShapeNode members || onlyKeys enumKeys members || onlyKeys constKeys members

/-- Whatever inhabits a type that the draft contributes to the declarations is admitted. -/
def Draft.Confines (environment : List Declaration) (admitted : Json → Prop) (draft : Draft TypeExpr) :
    Prop :=
  ∀ type value, draft.Contributes type environment → Inhabits environment value type → admitted value

variable {environment : List Declaration} {admitted : Json → Prop} {value : Json}
  {members : List (String × Json)} {ignoreBounds : Bool}

open Draft

theorem lookup_of_onlyKeys {keys : List String} (only : onlyKeys keys members = true) {key : String}
    (other : key ∉ keys) : members.lookup key = none := by
  cases here : members.lookup key with
  | none => rfl
  | some value =>
    have listed := List.all_eq_true.mp only (key, value) (mem_of_lookup here)
    exact absurd (of_decide_eq_true listed) other

theorem not_absent_of_lookup {Source Content : Type} {key : String} {fault : Fault}
    {shape : Source → Option Content} {sources : List (String × Source)} {source : Source}
    (found : sources.lookup key = some source) :
    readKeyword key (fun value => .ofShape fault (shape value)) sources ≠ .absent := by
  intro absent
  rw [readKeyword_eq_absent absent] at found
  cases found

/-! Declarations -/

def MembersAdmitted (admitted : Json → Prop) (schema : Schema) : Prop :=
  ∀ members, schema.head?.bind enumMembers? = some members →
    ∀ member ∈ members, ∀ value, member.2.same value = true → admitted value

theorem admitted_of_declaration {name : String} {taken : List String} {schema : Schema}
    {body : Draft TypeExpr} {declaration : Declaration} {inner : List Declaration}
    (named : MembersAdmitted admitted schema) (confines : body.Confines environment admitted)
    (drafted : (declarationDraft name schema body).Yields taken declaration inner)
    (within : inner ⊆ environment) (inhabits : Inhabits environment value declaration.type) :
    admitted value := by
  rcases yields_declarationDraft drafted with ⟨members, given, rfl, _⟩ | ⟨type, typed, rfl⟩
  · cases inhabits with
    | union here inner =>
      obtain ⟨member, inside, rfl⟩ := List.mem_map.mp here
      cases inner with
      | literal same => exact named members given member inside value same
  · rw [declarationOfType_type] at inhabits
    exact confines type value (typed.contributes.mono within) inhabits

theorem confines_place (distinct : (environment.map Declaration.name).Nodup) {schema : Schema}
    {body : Draft TypeExpr} (named : MembersAdmitted admitted schema)
    (confines : body.Confines environment admitted) :
    (place schema body).Confines environment admitted := by
  unfold place
  split
  · rename_i base _
    intro type value drawn inhabits
    obtain ⟨taken, declared, yields, within⟩ := drawn
    obtain ⟨declaration, inner, drafted, rfl, rfl⟩ := yields_declare yields
    have inside := within List.mem_cons_self
    have found := declarationNamed?_of_mem distinct inside
    rw [declarationDraft_name drafted] at found
    cases inhabits with
    | reference found' declared =>
      rw [found, Option.some.injEq] at found'
      subst found'
      refine admitted_of_declaration named confines drafted ?_ declared
      exact List.Subset.trans (List.subset_cons_self declaration inner) within
  · exact confines

/-! Validity, keyword by keyword -/

/-- What the keywords for members say of an object, and `items` of an array. -/
structure PartsAdmit (members : List (String × Json)) (value : Json) : Prop where
  required : requiredAdmits members value
  declared : ∀ named fields, members.lookup "properties" = some (.object named) →
    value = .object fields → ∀ member ∈ named, ∀ content, fields.lookup member.1 = some content →
      Valid member.2 content
  undeclared : ∀ rule fields, members.lookup "additionalProperties" = some rule →
    value = .object fields → ∀ field ∈ fields, ¬isDeclared members field.1 → Valid rule field.2
  items : ∀ rule elements, members.lookup "items" = some rule → value = .array elements →
    ∀ element ∈ elements, Valid rule element

theorem partsAdmit_of_scalar (unkeyed : ∀ fields, value ≠ .object fields)
    (unlisted : ∀ elements, value ≠ .array elements) : PartsAdmit members value where
  required _ fields _ same := absurd same (unkeyed fields)
  declared _ fields _ same := absurd same (unkeyed fields)
  undeclared _ fields _ same := absurd same (unkeyed fields)
  items _ elements _ same := absurd same (unlisted elements)

theorem partsAdmit_of_absent
    (absent : ∀ key ∈ ["properties", "required", "additionalProperties", "items"],
      members.lookup key = none) : PartsAdmit members value where
  required names fields found := by simp [absent] at found
  declared named fields found := by simp [absent] at found
  undeclared rule fields found := by simp [absent] at found
  items rule elements found := by simp [absent] at found

theorem typeAdmits_of_absent
    (absent : ∀ key ∈ ["type", "properties", "required", "additionalProperties", "items"],
      members.lookup key = none) : typeAdmits members value := by
  simp [typeAdmits, hasMember, absent]

theorem valid_of_shape
    (absent : ∀ key ∈ ["oneOf", "minItems", "maxItems", "additionalItems"], members.lookup key = none)
    (unpositional : hasPositionalItems members = false) (listed : enumAdmits members value)
    (constant : constAdmits members value) (typed : typeAdmits members value)
    (parts : PartsAdmit members value)
    (all : ∀ arms, members.lookup "allOf" = some (.array arms) → ∀ arm ∈ arms, Valid arm value)
    (any : ∀ arms, members.lookup "anyOf" = some (.array arms) → ∃ arm ∈ arms, Valid arm value) :
    Valid (.object members) value := by
  have single : ∀ rules, members.lookup "items" ≠ some (.array rules) := by
    intro rules found
    simp [hasPositionalItems, found, Json.elements?] at unpositional
  rw [Valid]
  refine ⟨typed, listed, constant, parts.required, ?_, ?_, all, ?_, ?_, parts.declared,
    parts.undeclared, parts.items, ?_, ?_⟩
  · intro least elements found
    simp [absent] at found
  · intro most elements found
    simp [absent] at found
  · intro arms found
    obtain ⟨arm, inside, admits⟩ := any arms found
    exact ⟨arm, inside, admits⟩
  · intro arms found
    simp [absent] at found
  · intro rules elements found
    exact absurd found (single rules)
  · intro rules rule elements found
    exact absurd found (single rules)

/-! Literals -/

theorem valid_of_literals {keys : List String} (only : onlyKeys keys members = true)
    (apart : ∀ key ∈ keys, key ∈ enumKeys ++ constKeys) (listed : enumAdmits members value)
    (constant : constAdmits members value) : Valid (.object members) value := by
  have absent : ∀ keys' : List String, (∀ key ∈ keys', key ∉ enumKeys ++ constKeys) →
      ∀ key ∈ keys', members.lookup key = none := by
    intro keys' others key inside
    apply lookup_of_onlyKeys only
    exact fun there => others key inside (apart key there)
  have combining := absent ["allOf", "anyOf"] (by decide)
  have items := absent ["items"] (by decide) "items" (List.mem_singleton_self _)
  apply valid_of_shape (absent _ (by decide)) _ listed constant
    (typeAdmits_of_absent (absent _ (by decide))) (partsAdmit_of_absent (absent _ (by decide)))
  · intro arms found
    simp [combining] at found
  · intro arms found
    simp [combining] at found
  · simp [hasPositionalItems, items]

theorem same_of_union {types : List TypeExpr} {literals : List Json}
    (listed : types = literals.map TypeExpr.literal)
    (inhabits : Inhabits environment value (TypeExpr.unionOf types)) :
    ∃ literal ∈ literals, literal.same value = true := by
  subst listed
  obtain ⟨type, inside, inner⟩ := inhabits_unionOf.mp inhabits
  obtain ⟨literal, there, rfl⟩ := List.mem_map.mp inside
  cases inner with
  | literal same => exact ⟨literal, there, same⟩

theorem enumAdmits_of_given {literals : List Json}
    (given : (readHead members).enumeration = .given literals)
    (same : ∃ literal ∈ literals, literal.same value = true) : enumAdmits members value := by
  intro others found
  obtain ⟨source, found', shaped⟩ := readKeyword_eq_given given
  obtain rfl := Option.some.inj (found.symm.trans found')
  rw [ofShape_eq_given] at shaped
  cases shaped
  exact same

theorem enumAdmits_of_absent (absent : members.lookup "enum" = none) : enumAdmits members value := by
  intro literals found
  rw [absent] at found
  cases found

theorem constAdmits_of_absent (absent : members.lookup "const" = none) : constAdmits members value := by
  intro literal found
  rw [absent] at found
  cases found

theorem enumeration_of_absent (absent : members.lookup "enum" = none) :
    (readHead members).enumeration = .absent := by
  simp [readHead, readKeyword, absent]

theorem verbatim_of_absent (absent : members.lookup "tsType" = none) :
    (readHead members).verbatim = none := by
  simp [readHead, stringMember, absent]

theorem literals_of_fixedType (untyped : members.lookup "tsType" = none) {type : TypeExpr}
    (fixed : fixedType (readHead members) = .given type)
    (inhabits : Inhabits environment value type) :
    enumAdmits members value ∧ (members.lookup "enum" = none → constAdmits members value) := by
  unfold fixedType at fixed
  rw [verbatim_of_absent untyped] at fixed
  simp only at fixed
  split at fixed
  · rename_i literals given
    cases fixed
    refine ⟨enumAdmits_of_given given (same_of_union rfl inhabits), fun absent => ?_⟩
    rw [enumeration_of_absent absent] at given
    cases given
  · cases fixed
  · rename_i absent
    have missing := readKeyword_eq_absent absent
    split at fixed
    · rename_i literal constant
      cases fixed
      refine ⟨enumAdmits_of_absent missing, fun _ other found => ?_⟩
      have given : members.lookup "const" = some literal := constant
      rw [given, Option.some.injEq] at found
      subst found
      cases inhabits with
      | literal same => exact same
    · cases fixed

theorem membersAdmitted_node (admits : ∀ value, enumAdmits members value → admitted value) :
    MembersAdmitted admitted (Schema.ofJson (.object members)) := by
  intro named given member inside value same
  rw [ofJson_object] at given
  obtain ⟨literals, enumerated, rfl⟩ := literals_of_enumMembers? given
  exact admits value (enumAdmits_of_given enumerated ⟨member.2, List.mem_map_of_mem inside, same⟩)

theorem no_members_of_absent (absent : members.lookup "enum" = none)
    {named : List (String × Json)} :
    (Schema.ofJson (.object members)).head?.bind enumMembers? ≠ some named := by
  rw [ofJson_object]
  change enumMembers? (readHead members) ≠ some named
  simp [enumMembers?, enumeration_of_absent absent]

/-! Kinds -/

theorem kindAdmits_of_ofName {name : String} (admits : (Kind.ofName name).Admits value) :
    kindAdmits name value := by
  unfold Kind.ofName at admits
  unfold kindAdmits
  repeat' split at admits
  all_goals simp_all [Kind.Admits]

/-- The kinds that admit what a type of their own holds. -/
def exactKinds : List Kind := [.string, .number, .boolean, .null, .object, .array]

theorem ofName_exact {name : String} (listed : name ∈ exactKindNames) :
    Kind.ofName name ∈ exactKinds := by
  have all : ∀ name ∈ exactKindNames, Kind.ofName name ∈ exactKinds := by decide
  exact all name listed

theorem origin_of_kind {objectShaped arrayShaped : Bool} {kinds : List Kind}
    (given : effectiveKinds (readHead members).kinds objectShaped arrayShaped = .given kinds)
    {kind : Kind} (inside : kind ∈ kinds) :
    (∃ name ∈ kindNames members, kind = Kind.ofName name) ∨
      members.lookup "type" = none ∧ (objectShaped = true ∧ kind = .object ∨
        objectShaped = false ∧ arrayShaped = true ∧ kind = .array) := by
  unfold effectiveKinds at given
  split at given
  · rename_i absent
    refine Or.inr ⟨readKeyword_eq_absent absent, ?_⟩
    split at given
    · rename_i shaped
      cases given
      exact Or.inl ⟨shaped, List.mem_singleton.mp inside⟩
    · rename_i shapeless
      split at given
      · rename_i itemized
        cases given
        exact Or.inr ⟨by simpa using shapeless, itemized, List.mem_singleton.mp inside⟩
      · cases given
  · obtain ⟨source, found, shaped⟩ := readKeyword_eq_given given
    rw [ofShape_eq_given] at shaped
    cases source with
    | string name =>
      cases shaped
      exact Or.inl ⟨name, by simp [kindNames, found], List.mem_singleton.mp inside⟩
    | array names =>
      cases shaped
      obtain ⟨name, listed, rfl⟩ := List.mem_map.mp inside
      exact Or.inl ⟨name, by simpa [kindNames, found] using listed, rfl⟩
    | _ => cases shaped

theorem typeAdmits_of_name {name : String} (named : name ∈ kindNames members)
    (admits : kindAdmits name value) : typeAdmits members value := by
  unfold kindNames at named
  split at named
  · rename_i single found
    obtain rfl := List.mem_singleton.mp named
    simpa only [typeAdmits, found] using admits
  · rename_i names found
    obtain ⟨entry, inside, read⟩ := List.mem_filterMap.mp named
    cases entry with
    | string text =>
      cases read
      simpa only [typeAdmits, found] using ⟨name, inside, admits⟩
    | _ => cases read
  · cases named

theorem typeAdmits_of_kind {kinds : List Kind}
    (given : effectiveKinds (readHead members).kinds
      (hasMember "properties" members || hasMember "additionalProperties" members ||
        hasMember "required" members) (hasMember "items" members) = .given kinds)
    {kind : Kind} (inside : kind ∈ kinds) (admits : kind.Admits value) : typeAdmits members value := by
  rcases origin_of_kind given inside with ⟨name, named, rfl⟩ | ⟨absent, shape⟩
  · exact typeAdmits_of_name named (kindAdmits_of_ofName admits)
  · simp only [typeAdmits, absent]
    rcases shape with ⟨shaped, rfl⟩ | ⟨shapeless, _, rfl⟩
    · rw [if_pos (by simpa [or_assoc] using shaped)]
      exact admits
    · rw [if_neg (by simpa [or_assoc, and_assoc] using shapeless)]
      exact fun _ => admits

theorem confines_pure {type : TypeExpr}
    (confined : ∀ value, Inhabits environment value type → admitted value) :
    (pure type : Draft TypeExpr).Confines environment admitted := by
  intro result value drawn inhabits
  obtain rfl := contributes_pure drawn
  exact confined value inhabits

theorem confines_kindDraft {object array : Draft TypeExpr} {kind : Kind} (exact : kind ∈ exactKinds)
    (objects : object.Confines environment fun value =>
      Kind.object.Admits value ∧ PartsAdmit members value)
    (arrays : array.Confines environment fun value =>
      Kind.array.Admits value ∧ PartsAdmit members value) :
    (kindDraft object array kind).Confines environment fun value =>
      kind.Admits value ∧ PartsAdmit members value := by
  cases kind with
  | string =>
    refine confines_pure fun value inhabits => ?_
    cases inhabits with
    | @string text => exact ⟨⟨text, rfl⟩, partsAdmit_of_scalar (by simp) (by simp)⟩
  | number =>
    refine confines_pure fun value inhabits => ?_
    cases inhabits with
    | @number number => exact ⟨⟨number, rfl⟩, partsAdmit_of_scalar (by simp) (by simp)⟩
  | boolean =>
    refine confines_pure fun value inhabits => ?_
    cases inhabits with
    | @boolean truth => exact ⟨⟨truth, rfl⟩, partsAdmit_of_scalar (by simp) (by simp)⟩
  | null =>
    refine confines_pure fun value inhabits => ?_
    cases inhabits with
    | null => exact ⟨rfl, partsAdmit_of_scalar (by simp) (by simp)⟩
  | object => exact objects
  | array => exact arrays
  | integer => simp [exactKinds] at exact
  | other name => simp [exactKinds] at exact

/-! Objects -/

/-- Whatever inhabits a type of the part, wherever the part is placed, is valid under it. -/
def PartConfined (environment : List Declaration) (ignoreBounds : Bool) (part : Json) : Prop :=
  (place (Schema.ofJson part) ((Schema.ofJson part).body ignoreBounds)).Confines environment (Valid part)

theorem required_names {names : List String}
    (drawn : (Draft.ofKeyword [] (readHead members).required).Contributes names environment)
    {listed : List Json} (found : members.lookup "required" = some (.array listed)) {name : String}
    (inside : .string name ∈ listed) : name ∈ names ∧ name ∈ requiredNames members := by
  obtain ⟨taken, inner, yields, _⟩ := drawn
  rcases (yields_ofKeyword yields).2 with ⟨absent, _⟩ | given
  · simp [readHead, readKeyword, found, readRequired] at absent
    cases here : listed.mapM Json.string? <;> simp [here, Keyword.ofShape] at absent
  · obtain ⟨source, found', read⟩ := readKeyword_eq_given given
    obtain rfl := Option.some.inj (found.symm.trans found')
    rw [readRequired, ofShape_eq_given] at read
    have texts := Json.mapM_string?_eq_some.mp read
    rw [texts] at inside
    obtain ⟨text, there, same⟩ := List.mem_map.mp inside
    cases same
    refine ⟨there, ?_⟩
    simp only [requiredNames, found, texts]
    exact List.mem_filterMap.mpr ⟨.string name, List.mem_map_of_mem there, rfl⟩

theorem field_of_declared {required : List String} {fields : List (Field TypeExpr)}
    (drawn : (fieldDrafts ignoreBounds required (Schema.propertiesOf members)).Contributes fields
      environment)
    {named : List (String × Json)} (found : members.lookup "properties" = some (.object named))
    {member : String × Json} (inside : member ∈ named) :
    ∃ field ∈ fields, field.name = member.1 ∧ field.required = required.contains member.1 ∧
      Placed ignoreBounds environment (Schema.ofJson member.2) field.content := by
  rcases placed_fieldDrafts drawn with ⟨absent, _⟩ | ⟨table, given, matched⟩
  · exact absurd absent (not_absent_of_lookup found)
  · obtain ⟨named', found', rfl⟩ := propertiesOf_eq_given given
    obtain rfl := Json.object.inj (Option.some.inj (found.symm.trans found'))
    rw [List.forall₂_map_left_iff] at matched
    exact exists_right_of_mem matched inside

theorem confines_objectDraft
    (parts : ∀ part, HasPart (.object members) part → PartConfined environment ignoreBounds part)
    (declaring : ∀ name ∈ requiredNames members, name ∈ declaredNames members) :
    (objectDraft ignoreBounds (readHead members).required (Schema.propertiesOf members)
      (Schema.additionalPropertiesOf members)).Confines environment fun value =>
        Kind.object.Admits value ∧ PartsAdmit members value := by
  intro type value drawn inhabits
  obtain ⟨names, requiring, drawn⟩ := contributes_bind drawn
  obtain ⟨drafted, fielding, drawn⟩ := contributes_bind drawn
  obtain ⟨index, indexing, rfl⟩ := contributes_map drawn
  have declared := (drafted_fields fielding).1
  cases inhabits with
  | @object fields _ _ present inner closed indexed =>
    refine ⟨⟨fields, rfl⟩, ?_, ?_, ?_, ?_⟩
    · rintro listed _ found ⟨⟩ name inside
      -- A required name is declared, so it has a field, and the field is marked as required.
      obtain ⟨needed, known⟩ := required_names requiring found inside
      have declares := declaring name known
      unfold declaredNames at declares
      split at declares
      · rename_i named given
        obtain ⟨member, there, rfl⟩ := List.mem_map.mp declares
        obtain ⟨field, drafted, same, required, _⟩ := field_of_declared fielding given there
        rw [← same]
        exact present field drafted (required.trans (by simpa using needed))
      · cases declares
    · rintro named _ found ⟨⟩ member inside content here
      obtain ⟨field, drafted, same, _, placed⟩ := field_of_declared fielding found inside
      rw [← same] at here
      exact parts member.2 (.property found inside) field.content content placed
        (inner field drafted content here)
    · rintro rule _ found ⟨⟩ field inside undeclared
      rw [← declared] at undeclared
      rcases placed_indexDraft indexing with ⟨absent, _⟩ | ⟨_, rfl⟩ | ⟨_, type, given, rfl, placed⟩
      · exact absurd absent (not_absent_of_lookup found)
      · exact absurd (closed rfl field inside) undeclared
      · obtain ⟨part, found', rfl⟩ := additionalPropertiesOf_eq_given given
        obtain rfl := Option.some.inj (found.symm.trans found')
        exact parts rule (.single (by simp [singleKeys]) found) type field.2 placed
          (indexed type rfl field inside undeclared)
    · rintro rule elements _ ⟨⟩

/-! Arrays -/

theorem confines_arrayDraft
    (parts : ∀ part, HasPart (.object members) part → PartConfined environment ignoreBounds part)
    (unbounded : ∀ key ∈ ["minItems", "maxItems"], members.lookup key = none)
    (unpositional : hasPositionalItems members = false) :
    (arrayDraft ignoreBounds (readHead members) (Schema.itemsOf members)
      (Schema.additionalItemsOf members)).Confines environment fun value =>
        Kind.array.Admits value ∧ PartsAdmit members value := by
  have least : bound ignoreBounds (readHead members).minItems = none := by
    simp [bound, readHead, unbounded]
  have most : bound ignoreBounds (readHead members).maxItems = none := by
    simp [bound, readHead, unbounded]
  have listing : ∀ item, boundedList item ((none : Option Nat).getD 0) none = .list item := by
    simp [boundedList, listFrom]
  have admitted : ∀ value item, Inhabits environment value (.list item) →
      (∀ rule, members.lookup "items" = some rule → ∀ value, Inhabits environment value item →
        Valid rule value) →
      Kind.array.Admits value ∧ PartsAdmit members value := by
    intro value item inhabits every
    cases inhabits with
    | @list elements _ each =>
      refine ⟨⟨elements, rfl⟩, ?_, ?_, ?_, ?_⟩
      · rintro listed fields _ ⟨⟩
      · rintro named fields _ ⟨⟩
      · rintro rule fields _ ⟨⟩
      · rintro rule _ found ⟨⟩ element inside
        exact every rule found element (each element inside)
  intro type value drawn inhabits
  unfold arrayDraft at drawn
  rw [least, most] at drawn
  rcases placed_itemsDraft drawn with ⟨absent, rfl⟩ | ⟨schema, item, given, placed, rfl⟩ |
      ⟨schemas, types, rest, given, _⟩
  · rw [listing] at inhabits
    apply admitted value .unknown inhabits
    exact fun rule found => absurd absent (not_absent_of_lookup found)
  · rw [listing] at inhabits
    apply admitted value item inhabits
    intro rule found element inner
    obtain ⟨part, found', rfl⟩ := itemsOf_eq_every given
    obtain rfl := Option.some.inj (found.symm.trans found')
    exact parts rule (.single (by simp [singleKeys]) found) item element placed inner
  · obtain ⟨rules, found, _⟩ := itemsOf_eq_positional given
    simp [hasPositionalItems, found, Json.elements?] at unpositional

/-! Whole nodes -/

/-- What a shape node guarantees, keyword by keyword. -/
structure ShapeNode (members : List (String × Json)) : Prop where
  only : onlyKeys shapeKeys members = true
  kinds : ∀ name ∈ kindNames members, name ∈ exactKindNames
  declaring : ∀ name ∈ requiredNames members, name ∈ declaredNames members
  unpositional : hasPositionalItems members = false

theorem shapeNode_iff : isShapeNode members = true ↔ ShapeNode members := by
  simp only [isShapeNode, Bool.and_eq_true, List.all_eq_true, decide_eq_true_eq, Bool.not_eq_true']
  constructor
  · rintro ⟨⟨⟨only, kinds⟩, declaring⟩, unpositional⟩
    exact ⟨only, kinds, declaring, unpositional⟩
  · rintro ⟨only, kinds, declaring, unpositional⟩
    exact ⟨⟨⟨only, kinds⟩, declaring⟩, unpositional⟩

theorem ShapeNode.absent (shape : ShapeNode members) (key : String) (other : key ∉ shapeKeys) :
    members.lookup key = none :=
  lookup_of_onlyKeys shape.only other

theorem exactKinds_of_given (shape : ShapeNode members) {objectShaped arrayShaped : Bool}
    {kinds : List Kind}
    (given : effectiveKinds (readHead members).kinds objectShaped arrayShaped = .given kinds)
    {kind : Kind} (inside : kind ∈ kinds) : kind ∈ exactKinds := by
  rcases origin_of_kind given inside with ⟨name, named, rfl⟩ | ⟨_, ⟨_, rfl⟩ | ⟨_, _, rfl⟩⟩
  · exact ofName_exact (shape.kinds name named)
  · simp [exactKinds]
  · simp [exactKinds]

theorem absent_of_unkinded {objectShaped arrayShaped : Bool}
    (unkinded : effectiveKinds (readHead members).kinds objectShaped arrayShaped = .absent) :
    members.lookup "type" = none ∧ objectShaped = false ∧ arrayShaped = false := by
  unfold effectiveKinds at unkinded
  split at unkinded
  · rename_i absent
    refine ⟨readKeyword_eq_absent absent, ?_⟩
    cases objectShaped <;> cases arrayShaped <;> simp at unkinded ⊢
  · rename_i given
    exact absurd unkinded given

theorem confines_ownDraft (shape : ShapeNode members)
    (parts : ∀ part, HasPart (.object members) part → PartConfined environment ignoreBounds part)
    {typed : Option TypeExpr}
    (drawn : (ownDraft ignoreBounds (readHead members) (Schema.propertiesOf members)
      (Schema.additionalPropertiesOf members) (Schema.itemsOf members)
      (Schema.additionalItemsOf members)).Contributes typed environment)
    (inhabits : ∀ type, typed = some type → Inhabits environment value type) :
    typeAdmits members value ∧ PartsAdmit members value := by
  unfold ownDraft at drawn
  simp only [Schema.propertiesOf, Schema.additionalPropertiesOf, Schema.itemsOf,
    isPresent_readKeyword, isPresent_required] at drawn
  rcases contributes_typedPart drawn with ⟨unkinded, _⟩ | ⟨kinds, types, given, rfl, matched⟩
  · obtain ⟨untyped, shapeless, itemless⟩ := absent_of_unkinded unkinded
    simp only [Bool.or_eq_false_iff, hasMember, Option.isSome_eq_false_iff,
      Option.isNone_iff_eq_none] at shapeless itemless
    obtain ⟨⟨undeclaring, unlimited⟩, undemanding⟩ := shapeless
    constructor
    · apply typeAdmits_of_absent
      simp only [List.forall_mem_cons, untyped, undeclaring, undemanding, unlimited, itemless]
      simp
    · apply partsAdmit_of_absent
      simp only [List.forall_mem_cons, undeclaring, undemanding, unlimited, itemless]
      simp
  · obtain ⟨type, there, inner⟩ := inhabits_unionOf.mp (inhabits _ rfl)
    obtain ⟨kind, inside, drafted⟩ := exists_left_of_mem matched there
    have unbounded : ∀ key ∈ ["minItems", "maxItems"], members.lookup key = none := by
      intro key bounding
      apply shape.absent
      revert key
      decide
    obtain ⟨admits, parts⟩ := confines_kindDraft (exactKinds_of_given shape given inside)
      (confines_objectDraft parts shape.declaring)
      (confines_arrayDraft parts unbounded shape.unpositional) type value drafted inner
    exact ⟨typeAdmits_of_kind given inside admits, parts⟩

theorem parts_of_combined {all any one : Option (List TypeExpr)} {typed : Option TypeExpr}
    (inhabits : Inhabits environment value (combined all any one typed)) :
    (∀ types, all = some types → ∀ type ∈ types, Inhabits environment value type) ∧
      (∀ types, any = some types → ∃ type ∈ types, Inhabits environment value type) ∧
      ∀ type, typed = some type → Inhabits environment value type := by
  have each := inhabits_intersectionOf.mp inhabits
  refine ⟨?_, ?_, ?_⟩
  · rintro types rfl
    exact inhabits_intersectionOf.mp (each _ (by simp))
  · rintro types rfl
    exact inhabits_unionOf.mp (each _ (by simp))
  · rintro type rfl
    exact each type (by simp)

theorem arms_placed {key : String} {fault : Fault} {drafted : Option (List TypeExpr)}
    (drawn : (armDrafts ignoreBounds key (Schema.armsOf key fault members)).Contributes drafted
      environment)
    {arms : List Json} (found : members.lookup key = some (.array arms)) :
    ∃ types, drafted = some types ∧
      List.Forall₂ (fun part => Placed ignoreBounds environment (Schema.ofJson part)) arms types := by
  cases drafted with
  | none =>
    rcases placed_armDrafts drawn with ⟨absent, _⟩ | ⟨_, _, _, given, _⟩
    · exact absurd absent (not_absent_of_lookup found)
    · cases given
  | some types =>
    obtain ⟨rules, found', matched⟩ := drafted_arms drawn
    obtain rfl := Json.array.inj (Option.some.inj (found.symm.trans found'))
    exact ⟨types, rfl, matched⟩

theorem confines_openDraft (shape : ShapeNode members)
    (parts : ∀ part, HasPart (.object members) part → PartConfined environment ignoreBounds part) :
    (openDraft ignoreBounds (readHead members) (Schema.armsOf "allOf" .allOfNotArray members)
      (Schema.armsOf "anyOf" .anyOfNotArray members) (Schema.armsOf "oneOf" .oneOfNotArray members)
      (Schema.propertiesOf members) (Schema.additionalPropertiesOf members)
      (Schema.itemsOf members) (Schema.additionalItemsOf members)).Confines environment
        (Valid (.object members)) := by
  intro type value drawn inhabits
  obtain ⟨all, allDrawn, drawn⟩ := contributes_bind drawn
  obtain ⟨any, anyDrawn, drawn⟩ := contributes_bind drawn
  obtain ⟨one, _, drawn⟩ := contributes_bind drawn
  obtain ⟨typed, typedDrawn, drawn⟩ := contributes_bind drawn
  obtain rfl := contributes_pure drawn
  obtain ⟨inAll, inAny, inTyped⟩ := parts_of_combined inhabits
  obtain ⟨typeAdmitted, partsAdmitted⟩ := confines_ownDraft shape parts typedDrawn inTyped
  have absent : ∀ key ∈ ["oneOf", "minItems", "maxItems", "additionalItems"],
      members.lookup key = none := by
    intro key inside
    apply shape.absent
    revert key
    decide
  refine valid_of_shape absent shape.unpositional (enumAdmits_of_absent (shape.absent _ (by decide)))
    (constAdmits_of_absent (shape.absent _ (by decide))) typeAdmitted partsAdmitted ?_ ?_
  · intro arms found arm inside
    obtain ⟨types, rfl, matched⟩ := arms_placed allDrawn found
    obtain ⟨type, there, placed⟩ := exists_right_of_mem matched inside
    exact parts arm (.arm (by simp [combiningKeys]) found inside) type value placed
      (inAll types rfl type there)
  · intro arms found
    obtain ⟨types, rfl, matched⟩ := arms_placed anyDrawn found
    obtain ⟨type, there, inner⟩ := inAny types rfl
    obtain ⟨arm, inside, placed⟩ := exists_left_of_mem matched there
    exact ⟨arm, inside, parts arm (.arm (by simp [combiningKeys]) found inside) type value placed inner⟩

theorem absent_of_unfixed (unfixed : fixedType (readHead members) = .absent) :
    members.lookup "enum" = none ∧ members.lookup "const" = none := by
  unfold fixedType at unfixed
  split at unfixed
  · cases unfixed
  · split at unfixed
    · cases unfixed
    · cases unfixed
    · rename_i absent
      split at unfixed
      · cases unfixed
      · rename_i missing
        exact ⟨readKeyword_eq_absent absent, missing⟩

theorem ShapeNode.unfixed (shape : ShapeNode members) : fixedType (readHead members) = .absent := by
  have untyped := verbatim_of_absent (shape.absent "tsType" (by decide))
  have unlisted := enumeration_of_absent (shape.absent "enum" (by decide))
  have inconstant : (readHead members).constant = none := shape.absent "const" (by decide)
  simp [fixedType, untyped, unlisted, inconstant]

theorem confines_literals {keys : List String} (only : onlyKeys keys members = true)
    (apart : ∀ key ∈ keys, key ∈ enumKeys ++ constKeys)
    (alone : members.lookup "enum" = none ∨ members.lookup "const" = none) :
    ((Schema.ofJson (.object members)).body ignoreBounds).Confines environment
      (Valid (.object members)) := by
  have untyped : members.lookup "tsType" = none := by
    apply lookup_of_onlyKeys only
    exact fun inside => absurd (apart _ inside) (by decide)
  intro type value drawn inhabits
  rw [ofJson_object, body_node] at drawn
  split at drawn
  · rename_i answer fixed
    obtain rfl := contributes_pure drawn
    obtain ⟨listed, constant⟩ := literals_of_fixedType untyped fixed inhabits
    refine valid_of_literals only apart listed ?_
    rcases alone with unlisted | inconstant
    · exact constant unlisted
    · exact constAdmits_of_absent inconstant
  · exact absurd drawn not_contributes_refuse
  · rename_i unfixed
    obtain ⟨unlisted, inconstant⟩ := absent_of_unfixed unfixed
    exact valid_of_literals only apart (enumAdmits_of_absent unlisted)
      (constAdmits_of_absent inconstant)

theorem membersAdmitted_exact (exact : isExactNode members = true) :
    MembersAdmitted (Valid (.object members)) (Schema.ofJson (.object members)) := by
  simp only [isExactNode, Bool.or_eq_true] at exact
  rcases exact with (shape | listing) | single
  · have shape := shapeNode_iff.mp shape
    exact fun _ given => absurd given (no_members_of_absent (shape.absent _ (by decide)))
  · apply membersAdmitted_node
    intro value admits
    refine valid_of_literals listing (by decide) admits (constAdmits_of_absent ?_)
    exact lookup_of_onlyKeys listing (by decide)
  · exact fun _ given => absurd given
      (no_members_of_absent (lookup_of_onlyKeys single (by decide)))

theorem membersAdmitted_part (schema : Json)
    (exact : ∀ members, HasNode schema members → isExactNode members = true) :
    MembersAdmitted (Valid schema) (Schema.ofJson schema) := by
  cases schema with
  | object members => exact membersAdmitted_exact (exact members .here)
  | _ =>
    intro named given
    cases given

theorem confines_body (distinct : (environment.map Declaration.name).Nodup) (schema : Json)
    (exact : ∀ members, HasNode schema members → isExactNode members = true) :
    ((Schema.ofJson schema).body ignoreBounds).Confines environment (Valid schema) := by
  induction schema using partInduction with
  | step schema ih =>
    -- What is used of a part is that it is confined wherever it is placed, by its own name or in place.
    have parts : ∀ part, HasPart schema part → PartConfined environment ignoreBounds part := by
      intro part step
      have deeper := fun members node => exact members (.deeper step node)
      exact confines_place distinct (membersAdmitted_part part deeper) (ih part step deeper)
    cases schema with
    | boolean admits =>
      cases admits with
      | true => exact confines_pure fun value _ => by simp [Valid]
      | false =>
        refine confines_pure fun value inhabits => ?_
        cases inhabits
    | object members =>
      have here := exact members .here
      simp only [isExactNode, Bool.or_eq_true] at here
      rcases here with (shape | listing) | single
      · have shape := shapeNode_iff.mp shape
        rw [ofJson_object, body_node, shape.unfixed]
        exact confines_openDraft shape parts
      · exact confines_literals listing (by decide) (Or.inr (lookup_of_onlyKeys listing (by decide)))
      · exact confines_literals single (by decide) (Or.inl (lookup_of_onlyKeys single (by decide)))
    | _ =>
      intro type value _ _
      simp [Valid]

/--
Where types can say all that a schema says, a value that inhabits the first of its declarations is
valid under it.
-/
theorem inhabits_valid (schema : Json) (suggested : String) (ignoreBounds : Bool)
    (declarations : List Declaration)
    (exact : ∀ members, HasNode schema members → isExactNode members = true)
    (drawn : ((Schema.ofJson schema).declarations suggested ignoreBounds).outcome =
      .ok (declarations, [])) :
    ∃ root others, declarations = root :: others ∧
      ∀ value, Inhabits declarations value root.type → Valid schema value := by
  have distinct := (declarations_scoped drawn).distinct
  have confines : ((Schema.ofJson schema).body ignoreBounds).Confines declarations (Valid schema) :=
    confines_body distinct schema exact
  obtain ⟨root, others, drafted, _, rfl⟩ := yields_declare (declarations_yields drawn)
  refine ⟨root, others, rfl, fun value inhabits => ?_⟩
  exact admitted_of_declaration (membersAdmitted_part schema exact) confines drafted
    (List.subset_cons_self root others) inhabits

/-- Every construct that types express in full: named literals, alternatives, parts and other members. -/
def parcel : Json :=
  .object [
    ("title", .string "Parcel"),
    ("properties", .object [
      ("state", .object [
        ("title", .string "State"),
        ("enum", .array [.string "sent", .number (.integer 2)]),
        ("tsEnumNames", .array [.string "Sent", .string "Lost"])]),
      ("stops", .object [
        ("items", .object [
          ("anyOf", .array [
            .object [("type", .array [.string "string", .string "null"])],
            .object [
              ("title", .string "Stop"),
              ("allOf", .array [
                .object [
                  ("properties", .object [("at", .object [("type", .string "number")])]),
                  ("required", .array [.string "at"])],
                .object [
                  ("properties", .object [("by", .object [("const", .string "van")])]),
                  ("additionalProperties", .boolean true)]])]])])])]),
    ("required", .array [.string "state"]),
    ("additionalProperties", .object [("type", .string "boolean")])]

def parcelDeclarations : List Declaration := [
  .interface "Parcel" none
    [⟨"state", .reference "State", true, none⟩,
      ⟨"stops", .list (.union [.string, .null, .reference "Stop"]), false, none⟩]
    (some .boolean),
  .enumeration "State" none [("Sent", .string "sent"), ("Lost", .number (.integer 2))],
  .typeAlias "Stop" none
    (.intersection [
      .object [⟨"at", .number, true, none⟩] (some .unknown),
      .object [⟨"by", .literal (.string "van"), false, none⟩] (some .unknown)])]

def sentParcel : Json :=
  .object [
    ("state", .string "sent"),
    ("stops", .array [.null, .object [("at", .number (.integer 7)), ("by", .string "van")]]),
    ("insured", .boolean true)]

theorem sentParcel_inhabits :
    Inhabits parcelDeclarations sentParcel
      (.object [⟨"state", .reference "State", true, none⟩,
          ⟨"stops", .list (.union [.string, .null, .reference "Stop"]), false, none⟩]
        (some .boolean)) := by
  have state : Inhabits parcelDeclarations (.string "sent") (.reference "State") := by
    refine .reference rfl (.union List.mem_cons_self (.literal ?_))
    decide
  have stop : Inhabits parcelDeclarations
      (.object [("at", .number (.integer 7)), ("by", .string "van")]) (.reference "Stop") := by
    refine .reference rfl (.intersection ?_)
    simp only [List.forall_mem_cons]
    refine ⟨.object ?_ ?_ ?_ ?_, .object ?_ ?_ ?_ ?_, by simp⟩
    all_goals simp [hasMember, List.lookup_cons, Inhabits.number, Inhabits.unknown]
    exact .literal (by decide)
  have stops : Inhabits parcelDeclarations
      (.array [.null, .object [("at", .number (.integer 7)), ("by", .string "van")]])
      (.list (.union [.string, .null, .reference "Stop"])) := by
    apply Inhabits.list
    simp only [List.forall_mem_cons]
    exact ⟨.union (by simp) .null, .union (by simp) stop, by simp⟩
  refine .object ?_ ?_ ?_ ?_
  · simp [hasMember, List.lookup_cons]
  · simpa [List.lookup_cons] using ⟨state, stops⟩
  · simp
  · simp [Inhabits.boolean]

theorem sentParcel_valid :
    ((Schema.ofJson parcel).declarations "parcel" false).outcome = .ok (parcelDeclarations, []) ∧
      Valid parcel sentParcel := by
  have drawn : ((Schema.ofJson parcel).declarations "parcel" false).outcome =
      .ok (parcelDeclarations, []) := by decide +kernel
  have checked : parcel.everyNode isExactNode = true := by decide +kernel
  have exact : ∀ members, HasNode parcel members → isExactNode members = true :=
    fun _ node => Json.check_of_everyNode checked node
  obtain ⟨root, others, same, valid⟩ :=
    inhabits_valid parcel "parcel" false parcelDeclarations exact drawn
  obtain ⟨rfl, rfl⟩ := List.cons.inj same
  exact ⟨drawn, valid sentParcel sentParcel_inhabits⟩

end SchemaTypes
