import SchemaTypes.Proofs.Inhabitants
import SchemaTypes.Proofs.Namespace
import SchemaTypes.Proofs.SchemaNodes
import SchemaTypes.Proofs.Validity

/-!
Typing is sound: a value that is valid under a schema inhabits the type that the schema is drafted to.
Declarations are looked up in the finished list, whose names are distinct, so a name drafted at any
time means there what it was declared to be.
-/

namespace SchemaTypes

section

variable {Left Right : Type} {relation : Left → Right → Prop}

theorem exists_left_at {lefts : List Left} {rights : List Right}
    (matched : List.Forall₂ relation lefts rights) {position : Nat} {right : Right}
    (here : rights[position]? = some right) :
    ∃ left, lefts[position]? = some left ∧ relation left right := by
  induction matched generalizing position with
  | nil => simp at here
  | @cons first _ _ _ related _ ih =>
    cases position with
    | zero =>
      obtain rfl := Option.some.inj here
      exact ⟨first, rfl, related⟩
    | succ position => exact ih here

theorem exists_left_of_mem {lefts : List Left} {rights : List Right}
    (matched : List.Forall₂ relation lefts rights) {right : Right} (inside : right ∈ rights) :
    ∃ left ∈ lefts, relation left right := by
  obtain ⟨position, here⟩ := List.mem_iff_getElem?.mp inside
  obtain ⟨left, there, related⟩ := exists_left_at matched here
  exact ⟨left, List.mem_of_getElem? there, related⟩

theorem exists_right_of_mem {lefts : List Left} {rights : List Right}
    (matched : List.Forall₂ relation lefts rights) {left : Left} (inside : left ∈ lefts) :
    ∃ right ∈ rights, relation left right :=
  exists_left_of_mem matched.flip inside

end

/-- Every type that the draft contributes to the declarations holds the value. -/
def Draft.Covers (environment : List Declaration) (value : Json) (draft : Draft TypeExpr) : Prop :=
  ∀ type, draft.Contributes type environment → Inhabits environment value type

variable {environment : List Declaration} {value : Json}

open Draft

theorem covers_pure {type : TypeExpr} (inhabits : Inhabits environment value type) :
    (pure type : Draft TypeExpr).Covers environment value := by
  intro result drawn
  obtain rfl := contributes_pure drawn
  exact inhabits

theorem declarationNamed?_of_mem (distinct : (environment.map Declaration.name).Nodup)
    {declaration : Declaration} (inside : declaration ∈ environment) :
    declarationNamed? environment declaration.name = some declaration := by
  induction environment with
  | nil => cases inside
  | cons first others ih =>
    rw [List.map_cons, List.nodup_cons] at distinct
    rcases List.mem_cons.mp inside with rfl | later
    · simp [declarationNamed?]
    · have apart : first.name ≠ declaration.name := by
        intro same
        rw [same] at distinct
        exact distinct.1 (List.mem_map_of_mem later)
      have found := ih distinct.2 later
      simpa [declarationNamed?, apart] using found

theorem declarationOfType_type (name : String) (docs : Option String) (type : TypeExpr) :
    (declarationOfType name docs type).type = type := by
  cases type <;> rfl

def MemberOf (schema : Schema) (value : Json) : Prop :=
  ∀ members, schema.head?.bind enumMembers? = some members →
    ∃ member ∈ members, member.2.same value = true

theorem inhabits_declaration {name : String} {taken : List String} {schema : Schema}
    {body : Draft TypeExpr} {declaration : Declaration} {inner : List Declaration}
    (named : MemberOf schema value) (covers : body.Covers environment value)
    (drafted : (declarationDraft name schema body).Yields taken declaration inner)
    (within : inner ⊆ environment) : Inhabits environment value declaration.type := by
  rcases yields_declarationDraft drafted with ⟨members, given, rfl, _⟩ | ⟨type, typed, rfl⟩
  · obtain ⟨member, inside, same⟩ := named members given
    exact .union (List.mem_map_of_mem inside) (.literal same)
  · rw [declarationOfType_type]
    exact covers type (typed.contributes.mono within)

theorem covers_place (distinct : (environment.map Declaration.name).Nodup) {schema : Schema}
    {body : Draft TypeExpr} (named : MemberOf schema value) (covers : body.Covers environment value) :
    (place schema body).Covers environment value := by
  unfold place
  split
  · rename_i base _
    intro type drawn
    obtain ⟨taken, declared, yields, within⟩ := drawn
    obtain ⟨declaration, inner, drafted, rfl, rfl⟩ := yields_declare yields
    have inside := within List.mem_cons_self
    have found := declarationNamed?_of_mem distinct inside
    rw [declarationDraft_name drafted] at found
    refine .reference found (inhabits_declaration named covers drafted ?_)
    exact List.Subset.trans (List.subset_cons_self declaration inner) within
  · exact covers

/-! Fixed answers -/

theorem enumAdmits_given {members : List (String × Json)} (admits : enumAdmits members value)
    {literals : List Json} (given : (readHead members).enumeration = .given literals) :
    ∃ literal ∈ literals, literal.same value = true := by
  obtain ⟨source, found, shaped⟩ := readKeyword_eq_given given
  rw [ofShape_eq_given] at shaped
  cases source with
  | array elements =>
    obtain rfl := Option.some.inj shaped
    exact admits elements found
  | _ => cases shaped

theorem literals_of_enumMembers? {head : Head} {named : List (String × Json)}
    (given : enumMembers? head = some named) :
    ∃ literals, head.enumeration = .given literals ∧ named.map (·.2) = literals := by
  unfold enumMembers? at given
  split at given
  · rename_i literals names enumerated _
    split at given
    · rename_i fits
      obtain rfl := Option.some.inj given
      exact ⟨literals, enumerated, List.map_snd_zip (by omega)⟩
    · cases given
  · cases given

theorem memberOf_node {members : List (String × Json)} (admits : enumAdmits members value) :
    MemberOf (Schema.ofJson (.object members)) value := by
  intro named given
  rw [ofJson_object] at given
  obtain ⟨literals, enumerated, rfl⟩ := literals_of_enumMembers? given
  obtain ⟨literal, inside, same⟩ := enumAdmits_given admits enumerated
  obtain ⟨member, there, rfl⟩ := List.mem_map.mp inside
  exact ⟨member, there, same⟩

theorem inhabits_fixedType {members : List (String × Json)}
    (untyped : hasMember "tsType" members = false) (admits : enumAdmits members value)
    (admits' : constAdmits members value) {type : TypeExpr}
    (fixed : fixedType (readHead members) = .given type) : Inhabits environment value type := by
  unfold fixedType at fixed
  split at fixed
  · rename_i text verbatim
    obtain ⟨source, found, _⟩ := Option.bind_eq_some_iff.mp verbatim
    simp [hasMember, found] at untyped
  · split at fixed
    · rename_i literals enumerated
      cases fixed
      obtain ⟨literal, inside, same⟩ := enumAdmits_given admits enumerated
      exact inhabits_unionOf.mpr ⟨.literal literal, List.mem_map_of_mem inside, .literal same⟩
    · cases fixed
    · split at fixed
      · rename_i literal constant
        cases fixed
        exact .literal (admits' literal constant)
      · cases fixed

/-! Kinds -/

def Kind.Admits : Kind → Json → Prop
  | string, value => ∃ text, value = .string text
  | number, value => ∃ number, value = .number number
  | integer, value => ∃ number, value = .number number ∧ number.isWhole
  | boolean, value => ∃ truth, value = .boolean truth
  | null, value => value = .null
  | object, value => ∃ members, value = .object members
  | array, value => ∃ elements, value = .array elements
  | other _, _ => True

theorem ofName_admits {name : String} (admits : kindAdmits name value) :
    (Kind.ofName name).Admits value := by
  unfold kindAdmits at admits
  unfold Kind.ofName
  repeat' split at admits
  all_goals simp_all [Kind.Admits]

theorem exists_admitting_kind {members : List (String × Json)} (admits : typeAdmits members value)
    {kinds : List Kind}
    (given : effectiveKinds (readHead members).kinds
      (hasMember "properties" members || hasMember "additionalProperties" members ||
        hasMember "required" members) (hasMember "items" members) = .given kinds) :
    ∃ kind ∈ kinds, kind.Admits value := by
  unfold typeAdmits at admits
  unfold effectiveKinds at given
  cases here : members.lookup "type" with
  | none =>
    have absent : (readHead members).kinds = .absent := by simp [readHead, readKeyword, here]
    simp only [here] at admits
    simp only [absent] at given
    split at given
    · rename_i shaped
      cases given
      rw [if_pos (by simpa [or_assoc] using shaped)] at admits
      exact ⟨.object, List.mem_singleton_self _, admits⟩
    · rename_i shapeless
      split at given
      · rename_i itemized
        cases given
        rw [if_neg (by simpa [or_assoc] using shapeless)] at admits
        exact ⟨.array, List.mem_singleton_self _, admits itemized⟩
      · cases given
  | some source =>
    have read : (readHead members).kinds = .ofShape .typeNotNames (readKinds source) := by
      simp [readHead, readKeyword, here]
    simp only [here] at admits
    rw [read] at given
    cases source with
    | string name =>
      cases given
      exact ⟨Kind.ofName name, List.mem_singleton_self _, ofName_admits admits⟩
    | array names =>
      cases given
      obtain ⟨name, inside, admits⟩ := admits
      refine ⟨Kind.ofName name, List.mem_map_of_mem ?_, ofName_admits admits⟩
      exact List.mem_filterMap.mpr ⟨.string name, inside, rfl⟩
    | _ => cases given

theorem covers_kindDraft {object array : Draft TypeExpr} {kind : Kind} (admits : kind.Admits value)
    (objects : ∀ members, value = .object members → object.Covers environment value)
    (arrays : ∀ elements, value = .array elements → array.Covers environment value) :
    (kindDraft object array kind).Covers environment value := by
  cases kind with
  | string =>
    obtain ⟨text, rfl⟩ := admits
    exact covers_pure .string
  | number =>
    obtain ⟨number, rfl⟩ := admits
    exact covers_pure .number
  | integer =>
    obtain ⟨number, rfl, _⟩ := admits
    exact covers_pure .number
  | boolean =>
    obtain ⟨truth, rfl⟩ := admits
    exact covers_pure .boolean
  | null =>
    obtain rfl := admits
    exact covers_pure .null
  | object =>
    obtain ⟨members, same⟩ := admits
    exact objects members same
  | array =>
    obtain ⟨elements, same⟩ := admits
    exact arrays elements same
  | other name => exact covers_pure .unknown

/-! Objects -/

/-- Whatever is valid under the part is covered wherever the part is placed. -/
def PartCovers (environment : List Declaration) (part : Json) : Prop :=
  ∀ value, Valid part value →
    (place (Schema.ofJson part) ((Schema.ofJson part).body false)).Covers environment value

theorem requiredAdmits_given {members fields : List (String × Json)}
    (admits : requiredAdmits members (.object fields)) {names : List String}
    (drawn : (Draft.ofKeyword [] (readHead members).required).Contributes names environment) :
    ∀ name ∈ names, hasMember name fields = true := by
  obtain ⟨taken, inner, yields, _⟩ := drawn
  rcases (yields_ofKeyword yields).2 with ⟨_, rfl⟩ | given
  · simp
  · obtain ⟨source, found, read⟩ := readKeyword_eq_given given
    cases source with
    | array entries =>
      rw [readRequired, ofShape_eq_given] at read
      intro name inside
      apply admits entries fields found rfl name
      rw [Json.mapM_string?_eq_some.mp read]
      exact List.mem_map_of_mem inside
    | _ => cases read

theorem not_valid_of_never {schema : Json} (never : Schema.ofJson schema = .always false) :
    ¬Valid schema value := by
  cases schema with
  | boolean admits =>
    cases never
    simp [Valid]
  | object members =>
    rw [ofJson_object] at never
    cases never
  | _ => cases never

theorem drafted_fields {members : List (String × Json)} {ignoreBounds : Bool} {required : List String}
    {fields : List (Field TypeExpr)}
    (drawn : (fieldDrafts ignoreBounds required (Schema.propertiesOf members)).Contributes fields
      environment) :
    (∀ name, name ∈ fields.map (·.name) ↔ isDeclared members name) ∧
      ∀ field ∈ fields, field.required = required.contains field.name ∧
        ∃ named member, members.lookup "properties" = some (.object named) ∧ member ∈ named ∧
          field.name = member.1 ∧
          Placed ignoreBounds environment (Schema.ofJson member.2) field.content := by
  rcases placed_fieldDrafts drawn with ⟨absent, rfl⟩ | ⟨table, given, matched⟩
  · have missing := readKeyword_eq_absent absent
    simp [isDeclared, missing]
  · obtain ⟨named, found, rfl⟩ := propertiesOf_eq_given given
    rw [List.forall₂_map_left_iff] at matched
    constructor
    · intro name
      constructor
      · intro listed
        obtain ⟨field, inside, rfl⟩ := List.mem_map.mp listed
        obtain ⟨member, there, same, _⟩ := exists_left_of_mem matched inside
        exact ⟨named, found, List.mem_map.mpr ⟨member, there, same.symm⟩⟩
      · rintro ⟨others, found', inside⟩
        rw [found] at found'
        cases found'
        obtain ⟨member, there, rfl⟩ := List.mem_map.mp inside
        obtain ⟨field, inside, same, _⟩ := exists_right_of_mem matched there
        exact List.mem_map.mpr ⟨field, inside, same⟩
    · intro field inside
      obtain ⟨member, there, same, requiring, placed⟩ := exists_left_of_mem matched inside
      simp only at same requiring
      refine ⟨?_, named, member, found, there, same, placed⟩
      rw [requiring, same]

theorem covers_objectDraft {members fields : List (String × Json)}
    (parts : ∀ part, HasPart (.object members) part → PartCovers environment part)
    (valid : Valid (.object members) (.object fields)) :
    (objectDraft false (readHead members).required (Schema.propertiesOf members)
      (Schema.additionalPropertiesOf members)).Covers environment (.object fields) := by
  rw [Valid] at valid
  obtain ⟨_, _, _, required, _, _, _, _, _, properties, additional, _⟩ := valid
  intro type drawn
  obtain ⟨names, requiring, drawn⟩ := contributes_bind drawn
  obtain ⟨drafted, fielding, drawn⟩ := contributes_bind drawn
  obtain ⟨index, indexing, rfl⟩ := contributes_map drawn
  obtain ⟨declared, origin⟩ := drafted_fields fielding
  refine .object ?_ ?_ ?_ ?_
  · intro field inside needed
    rw [(origin field inside).1] at needed
    exact requiredAdmits_given required requiring field.name (by simpa using needed)
  · intro field inside content here
    obtain ⟨_, named, member, found, there, same, placed⟩ := origin field inside
    rw [same] at here
    exact parts member.2 (.property found there) content
      (properties named fields found rfl member there content here) field.content placed
  · rintro rfl member inside
    rcases placed_indexDraft indexing with ⟨_, given⟩ | ⟨given, _⟩ | ⟨_, _, _, given, _⟩
    · cases given
    · obtain ⟨rule, found, never⟩ := additionalPropertiesOf_eq_given given
      by_contra undeclared
      rw [declared] at undeclared
      have admitted := additional rule fields found rfl member inside undeclared
      exact absurd admitted (not_valid_of_never never.symm)
    · cases given
  · rintro type rfl member inside undeclared
    rw [declared] at undeclared
    rcases placed_indexDraft indexing with ⟨_, given⟩ | ⟨_, given⟩ | ⟨_, _, given, same, placed⟩
    · cases given
      exact .unknown
    · cases given
    · cases same
      obtain ⟨rule, found, rfl⟩ := additionalPropertiesOf_eq_given given
      exact parts rule (.single (by simp [singleKeys]) found) member.2
        (additional rule fields found rfl member inside undeclared) type placed

/-! Arrays -/

theorem noMoreThan_at {most : Option Nat} {types : List TypeExpr} {position : Nat} {type : TypeExpr}
    (here : (noMoreThan most types)[position]? = some type) : types[position]? = some type := by
  cases most with
  | none => exact here
  | some most =>
    rw [noMoreThan, List.getElem?_take] at here
    split at here
    · exact here
    · cases here

theorem length_noMoreThan (most : Option Nat) (types : List TypeExpr) :
    (noMoreThan most types).length = types.length ∨
      most = some (noMoreThan most types).length := by
  cases most with
  | none => exact Or.inl rfl
  | some most =>
    simp only [noMoreThan, List.length_take, Option.some.injEq]
    omega

theorem isFull_length {most : Option Nat} {types : List TypeExpr}
    (full : isFull most (noMoreThan most types).length = true) :
    ∃ bound, most = some bound ∧ bound ≤ (noMoreThan most types).length := by
  cases most with
  | none => cases full
  | some bound => exact ⟨bound, rfl, by simpa [isFull] using full⟩

theorem length_noMoreThan_of_room {most : Option Nat} {types : List TypeExpr}
    (roomy : isFull most (noMoreThan most types).length = false) :
    (noMoreThan most types).length = types.length := by
  rcases length_noMoreThan most types with same | cut
  · exact same
  · rw [cut] at roomy
    simp [isFull, ← cut] at roomy

structure ArrayFits (environment : List Declaration) (parts : List Json) (least most : Option Nat)
    (additional : Option Json) (elements : List Json) : Prop where
  enough : ∀ bound, least = some bound → bound ≤ elements.length
  limited : ∀ bound, most = some bound → elements.length ≤ bound
  spelled : ∀ (position : Nat) (part element : Json), parts[position]? = some part →
    elements[position]? = some element → Valid part element
  after : ∀ rule, additional = some rule → ∀ (position : Nat) (element : Json),
    elements[position]? = some element → parts.length ≤ position → Valid rule element

theorem inhabits_positional {parts elements : List Json} {least : Nat} {most : Option Nat}
    {additional : Option Json} (fits : ArrayFits environment parts (some least) most additional elements)
    (covers : ∀ part ∈ parts, PartCovers environment part)
    (covers' : ∀ rule, additional = some rule → PartCovers environment rule)
    {types : List TypeExpr} {rest : Option TypeExpr}
    (placed : List.Forall₂ (fun part => Placed false environment (Schema.ofJson part)) parts types)
    (resting : (restDraft false (isFull most (noMoreThan most types).length)
      (additional.bind Schema.restrictionOf?)).Contributes rest environment) :
    Inhabits environment (.array elements)
      (positionalTuple (some least) (noMoreThan most types) rest) := by
  have lengths := placed.length_eq
  refine .tuple ?_ ?_ ?_ ?_
  · have enough := fits.enough least rfl
    simp only [Option.getD_some]
    omega
  · rintro rfl
    rcases placed_restDraft resting with ⟨_, full | never⟩ | ⟨_, given⟩ | ⟨_, _, _, _, given, _⟩
    · obtain ⟨bound, rfl, reached⟩ := isFull_length full
      have limited := fits.limited bound rfl
      omega
    · rcases length_noMoreThan most types with same | cut
      · obtain ⟨rule, found, restricted⟩ := Option.bind_eq_some_iff.mp never
        by_contra longer
        have beyond : parts.length < elements.length := by omega
        have here := List.getElem?_eq_getElem beyond
        have admitted := fits.after rule found parts.length _ here (Nat.le_refl _)
        exact not_valid_of_never (ofJson_restrictionOf? restricted) admitted
      · exact fits.limited _ cut
    · cases given
    · cases given
  · intro position element type here there
    obtain ⟨part, place, placed⟩ := exists_left_at placed (noMoreThan_at there)
    exact covers part (List.mem_of_getElem? place) element
      (fits.spelled position part element place here) type placed
  · rintro position element type here beyond rfl
    rcases placed_restDraft resting with ⟨given, _⟩ | ⟨_, given⟩ |
        ⟨schema, _, roomy, given, same, placed⟩
    · cases given
    · cases given
      exact .unknown
    · cases same
      obtain ⟨rule, found, restricted⟩ := Option.bind_eq_some_iff.mp given
      rw [length_noMoreThan_of_room roomy, ← lengths] at beyond
      have admitted := fits.after rule found position element here beyond
      rw [← ofJson_restrictionOf? restricted] at placed
      exact covers' rule found element admitted type placed

theorem covers_arrayDraft {members : List (String × Json)} {elements : List Json}
    (parts : ∀ part, HasPart (.object members) part → PartCovers environment part)
    (bounded : ∀ rules, members.lookup "items" = some (.array rules) →
      ∃ least, (members.lookup "minItems").bind Json.nat? = some least)
    (valid : Valid (.object members) (.array elements)) :
    (arrayDraft false (readHead members) (Schema.itemsOf members)
      (Schema.additionalItemsOf members)).Covers environment (.array elements) := by
  rw [Valid] at valid
  obtain ⟨_, _, _, _, least, most, _, _, _, _, _, every, positional, after⟩ := valid
  have enough : ((members.lookup "minItems").bind Json.nat?).getD 0 ≤ elements.length := by
    cases here : (members.lookup "minItems").bind Json.nat? with
    | none => exact Nat.zero_le _
    | some bound => exact least bound elements here rfl
  have limited : ∀ bound, (members.lookup "maxItems").bind Json.nat? = some bound →
      elements.length ≤ bound := fun bound here => most bound elements here rfl
  intro type drawn
  rcases placed_itemsDraft drawn with ⟨_, rfl⟩ | ⟨schema, item, given, placed, rfl⟩ |
      ⟨schemas, types, rest, given, placed, resting, rfl⟩
  · exact inhabits_boundedList (fun _ _ => .unknown) enough limited
  · obtain ⟨rule, found, rfl⟩ := itemsOf_eq_every given
    refine inhabits_boundedList (fun element inside => ?_) enough limited
    exact parts rule (.single (by simp [singleKeys]) found) element
      (every rule elements found rfl element inside) item placed
  · obtain ⟨rules, found, rfl⟩ := itemsOf_eq_positional given
    rw [List.forall₂_map_left_iff] at placed
    obtain ⟨count, counted⟩ := bounded rules found
    have fits : ArrayFits environment rules (some count) (bound false (readHead members).maxItems)
        (members.lookup "additionalItems") elements := by
      refine ⟨?_, limited, ?_, ?_⟩
      · rintro bound same
        cases same
        exact least count elements counted rfl
      · intro position part element place here
        obtain ⟨inside, rfl⟩ := List.getElem?_eq_some_iff.mp place
        exact positional rules elements found rfl position element inside here
      · intro rule given' position element here beyond
        exact after rules rule elements found given' rfl position element here beyond
    have counted' : bound false (readHead members).minItems = some count := counted
    rw [counted']
    refine inhabits_positional fits ?_ ?_ placed resting
    · exact fun part inside => parts part (.positional found inside)
    · exact fun rule given' => parts rule (.single (by simp [singleKeys]) given')

/-! Whole nodes -/

theorem covers_ownDraft {members : List (String × Json)}
    (parts : ∀ part, HasPart (.object members) part → PartCovers environment part)
    (bounded : ∀ rules, members.lookup "items" = some (.array rules) →
      ∃ least, (members.lookup "minItems").bind Json.nat? = some least)
    (valid : Valid (.object members) value) {typed : Option TypeExpr}
    (drawn : (ownDraft false (readHead members) (Schema.propertiesOf members)
      (Schema.additionalPropertiesOf members) (Schema.itemsOf members)
      (Schema.additionalItemsOf members)).Contributes typed environment) :
    ∀ type, typed = some type → Inhabits environment value type := by
  unfold ownDraft at drawn
  rintro type rfl
  rcases contributes_typedPart drawn with ⟨_, given⟩ | ⟨kinds, types, given, same, matched⟩
  · cases given
  · cases same
    simp only [Schema.propertiesOf, Schema.additionalPropertiesOf, Schema.itemsOf,
      isPresent_readKeyword, isPresent_required] at given
    have typeAdmitted : typeAdmits members value := by
      rw [Valid] at valid
      exact valid.1
    obtain ⟨kind, inside, admits⟩ := exists_admitting_kind typeAdmitted given
    obtain ⟨type, there, drafted⟩ := exists_right_of_mem matched inside
    refine inhabits_unionOf.mpr ⟨type, there, ?_⟩
    refine covers_kindDraft admits ?_ ?_ type drafted
    · rintro fields rfl
      exact covers_objectDraft parts valid
    · rintro elements rfl
      exact covers_arrayDraft parts bounded valid

theorem drafted_arms {members : List (String × Json)} {ignoreBounds : Bool} {key : String}
    {fault : Fault} {types : List TypeExpr}
    (drawn : (armDrafts ignoreBounds key (Schema.armsOf key fault members)).Contributes (some types)
      environment) :
    ∃ rules, members.lookup key = some (.array rules) ∧
      List.Forall₂ (fun part => Placed ignoreBounds environment (Schema.ofJson part)) rules types := by
  rcases placed_armDrafts drawn with ⟨_, given⟩ | ⟨schemas, others, given, same, placed⟩
  · cases given
  · cases same
    obtain ⟨rules, found, rfl⟩ := armsOf_eq_given given
    exact ⟨rules, found, List.forall₂_map_left_iff.mp placed⟩

theorem inhabits_combined {all any one : Option (List TypeExpr)} {typed : Option TypeExpr}
    (inAll : ∀ types, all = some types → ∀ type ∈ types, Inhabits environment value type)
    (inAny : ∀ types, any = some types → ∃ type ∈ types, Inhabits environment value type)
    (inOne : ∀ types, one = some types → ∃ type ∈ types, Inhabits environment value type)
    (inTyped : ∀ type, typed = some type → Inhabits environment value type) :
    Inhabits environment value (combined all any one typed) := by
  apply inhabits_intersectionOf.mpr
  intro type inside
  simp only [List.mem_append, Option.mem_toList, Option.map_eq_some_iff] at inside
  rcases inside with ((⟨types, given, rfl⟩ | ⟨types, given, rfl⟩) | ⟨types, given, rfl⟩) | given
  · exact inhabits_intersectionOf.mpr (inAll types given)
  · exact inhabits_unionOf.mpr (inAny types given)
  · exact inhabits_unionOf.mpr (inOne types given)
  · exact inTyped type given

theorem covers_openDraft {members : List (String × Json)}
    (parts : ∀ part, HasPart (.object members) part → PartCovers environment part)
    (bounded : ∀ rules, members.lookup "items" = some (.array rules) →
      ∃ least, (members.lookup "minItems").bind Json.nat? = some least)
    (valid : Valid (.object members) value) :
    (openDraft false (readHead members) (Schema.armsOf "allOf" .allOfNotArray members)
      (Schema.armsOf "anyOf" .anyOfNotArray members) (Schema.armsOf "oneOf" .oneOfNotArray members)
      (Schema.propertiesOf members) (Schema.additionalPropertiesOf members)
      (Schema.itemsOf members) (Schema.additionalItemsOf members)).Covers environment value := by
  have whole := valid
  rw [Valid] at whole
  obtain ⟨_, _, _, _, _, _, allValid, anyValid, oneValid, _⟩ := whole
  intro type drawn
  obtain ⟨all, allDrawn, drawn⟩ := contributes_bind drawn
  obtain ⟨any, anyDrawn, drawn⟩ := contributes_bind drawn
  obtain ⟨one, oneDrawn, drawn⟩ := contributes_bind drawn
  obtain ⟨typed, typedDrawn, drawn⟩ := contributes_bind drawn
  obtain rfl := contributes_pure drawn
  refine inhabits_combined ?_ ?_ ?_ (covers_ownDraft parts bounded valid typedDrawn)
  · rintro types rfl type inside
    obtain ⟨rules, found, placed⟩ := drafted_arms allDrawn
    obtain ⟨rule, there, placed⟩ := exists_left_of_mem placed inside
    exact parts rule (.arm (by simp [combiningKeys]) found there) value
      (allValid rules found rule there) type placed
  · rintro types rfl
    obtain ⟨rules, found, placed⟩ := drafted_arms anyDrawn
    obtain ⟨rule, there, admitted⟩ := anyValid rules found
    obtain ⟨type, inside, placed⟩ := exists_right_of_mem placed there
    exact ⟨type, inside, parts rule (.arm (by simp [combiningKeys]) found there) value admitted type
      placed⟩
  · rintro types rfl
    obtain ⟨rules, found, placed⟩ := drafted_arms oneDrawn
    obtain ⟨position, within, admitted, _⟩ := oneValid rules found
    have there := List.getElem_mem within
    obtain ⟨type, inside, placed⟩ := exists_right_of_mem placed there
    exact ⟨type, inside, parts _ (.arm (by simp [combiningKeys]) found there) value admitted type
      placed⟩

theorem memberOf_valid {schema : Json} (valid : Valid schema value) :
    MemberOf (Schema.ofJson schema) value := by
  cases schema with
  | object members =>
    rw [Valid] at valid
    exact memberOf_node valid.2.1
  | _ =>
    intro members given
    cases given

theorem covers_body (distinct : (environment.map Declaration.name).Nodup) (schema : Json)
    (untyped : ∀ members, HasNode schema members → hasMember "tsType" members = false)
    (bounded : ∀ members rules, HasNode schema members →
      members.lookup "items" = some (.array rules) →
        ∃ least, (members.lookup "minItems").bind Json.nat? = some least)
    (valid : Valid schema value) :
    ((Schema.ofJson schema).body false).Covers environment value := by
  induction schema using partInduction generalizing value with
  | step schema ih =>
    have parts : ∀ part, HasPart schema part → PartCovers environment part := by
      intro part step value valid
      refine covers_place distinct (memberOf_valid valid) (ih part step ?_ ?_ valid)
      · exact fun members node => untyped members (.deeper step node)
      · exact fun members rules node => bounded members rules (.deeper step node)
    cases schema with
    | boolean admits =>
      rw [Valid] at valid
      obtain rfl := valid
      exact covers_pure .unknown
    | object members =>
      rw [ofJson_object, body_node]
      split
      · rename_i type fixed
        rw [Valid] at valid
        obtain ⟨_, enumerated, constant, _⟩ := valid
        exact covers_pure (inhabits_fixedType (untyped members .here) enumerated constant fixed)
      · exact fun type drawn => absurd drawn not_contributes_refuse
      · exact covers_openDraft parts (fun rules => bounded members rules .here) valid
    | _ =>
      intro type drawn
      obtain ⟨_, _, drawn⟩ := contributes_bind drawn
      obtain rfl := contributes_pure drawn
      exact .unknown

/--
Without verbatim types, and with a lower bound wherever items are positional, every value that is
valid under a schema inhabits the first of its declarations.
-/
theorem valid_inhabits (schema : Json) (suggested : String) (declarations : List Declaration)
    (untyped : ∀ members, HasNode schema members → hasMember "tsType" members = false)
    (bounded : ∀ members rules, HasNode schema members →
      members.lookup "items" = some (.array rules) →
        ∃ least, (members.lookup "minItems").bind Json.nat? = some least)
    (drawn : ((Schema.ofJson schema).declarations suggested false).outcome = .ok (declarations, []))
    (value : Json) (valid : Valid schema value) :
    ∃ root others, declarations = root :: others ∧ Inhabits declarations value root.type := by
  have distinct := (declarations_scoped drawn).distinct
  have covers := covers_body distinct schema untyped bounded valid
  obtain ⟨root, others, drafted, _, rfl⟩ := yields_declare (declarations_yields drawn)
  refine ⟨root, others, rfl, ?_⟩
  exact inhabits_declaration (memberOf_valid valid) covers drafted (List.subset_cons_self root others)

def pairHolder : Json :=
  .object [
    ("properties", .object [
      ("pair", .object [
        ("title", .string "Pair"),
        ("items", .array [
          .object [("type", .string "integer")], .object [("enum", .array [.string "x"])]]),
        ("minItems", .number (.integer 1)),
        ("maxItems", .number (.integer 2))])]),
    ("required", .array [.string "pair"]),
    ("additionalProperties", .boolean false)]

def pairHolderDeclarations : List Declaration := [
  .interface "Holder" none [⟨"pair", .reference "Pair", true, none⟩] none,
  .typeAlias "Pair" none (.tuple [.number, .literal (.string "x")] 1 none)]

def heldPair : Json :=
  .object [("pair", .array [.number (.integer 7), .string "x"])]

theorem heldPair_valid : Valid pairHolder heldPair := by
  have pair : ∀ (position : Nat) (element : Json) (_ : position < 2),
      [Json.number (.integer 7), .string "x"][position]? = some element →
        Valid [Json.object [("type", .string "integer")],
          .object [("enum", .array [.string "x"])]][position] element := by
    intro position element inside here
    rcases position with _ | _ | position
    · obtain rfl := Option.some.inj here
      simp [Valid, typeAdmits, enumAdmits, constAdmits, requiredAdmits, minItemsAdmits, maxItemsAdmits,
        kindAdmits, List.lookup_cons]
    · obtain rfl := Option.some.inj here
      simp [Valid, typeAdmits, enumAdmits, constAdmits, requiredAdmits, minItemsAdmits, maxItemsAdmits,
        hasMember, Json.same, List.lookup_cons]
    · omega
  simpa [pairHolder, heldPair, Valid, typeAdmits, enumAdmits, constAdmits, requiredAdmits,
    minItemsAdmits, maxItemsAdmits, isDeclared, List.lookup_cons, hasMember, Json.nat?,
    Number.nat?] using pair

theorem heldPair_inhabits :
    ((Schema.ofJson pairHolder).declarations "holder" false).outcome = .ok (pairHolderDeclarations, []) ∧
      Valid pairHolder heldPair ∧
      ∃ root others, pairHolderDeclarations = root :: others ∧
        Inhabits pairHolderDeclarations heldPair root.type := by
  have drawn : ((Schema.ofJson pairHolder).declarations "holder" false).outcome =
      .ok (pairHolderDeclarations, []) := by decide +kernel
  have untyped : ∀ members, HasNode pairHolder members → hasMember "tsType" members = false := by
    intro members node
    have checked : pairHolder.everyObject (fun members => !hasMember "tsType" members) = true := by
      decide +kernel
    simpa using Json.check_of_hasNode checked node
  have bounded : ∀ members rules, HasNode pairHolder members →
      members.lookup "items" = some (.array rules) →
        ∃ least, (members.lookup "minItems").bind Json.nat? = some least := by
    intro members rules node _
    have checked : pairHolder.everyObject (fun members =>
        !hasMember "items" members || ((members.lookup "minItems").bind Json.nat?).isSome) = true := by
      decide +kernel
    have here := Json.check_of_hasNode checked node
    simp_all [hasMember, Option.isSome_iff_exists]
  exact ⟨drawn, heldPair_valid,
    valid_inhabits pairHolder "holder" pairHolderDeclarations untyped bounded drawn heldPair
      heldPair_valid⟩

end SchemaTypes
