import SchemaTypes.Proofs.Documentation
import SchemaTypes.Proofs.Tokens
import SchemaTypes.Source.TypeText

namespace SchemaTypes.TypeExpr

def isUnion : TypeExpr → Bool
  | union _ => true
  | _ => false

def isIntersection : TypeExpr → Bool
  | intersection _ => true
  | _ => false

def isList : TypeExpr → Bool
  | list _ => true
  | _ => false

/-- The form in which typing leaves a type without documentation and hints, but for its parts. -/
def isRegularHere : TypeExpr → Bool
  | literal value => isPlainLiteral value
  | verbatim _ => false
  | reference name => isTypeName name.toList
  | tuple elements required _ => decide (required ≤ elements.length)
  | object fields _ => fields.all fun field => field.docs.isNone
  | union arms => decide (2 ≤ arms.length) && arms.all fun arm => !arm.isUnion
  | intersection parts => decide (2 ≤ parts.length) && parts.all fun part => !part.isIntersection
  | _ => true

def isRegular (type : TypeExpr) : Bool :=
  type.everywhere isRegularHere

theorem isRegular_iff {type : TypeExpr} :
    type.isRegular = true ↔ type.isRegularHere = true ∧ ∀ part ∈ type.inner, part.isRegular = true :=
  everywhere_iff

variable (flags : Flags) (depth : Nat)

/-- The text of a type where it is an operand. -/
def operand (type : TypeExpr) : List Char :=
  (parenthesized type.isCompound (type.render flags depth)).toList

/-- The type within all lists around it. -/
def core : TypeExpr → TypeExpr
  | list item => core item
  | type => type

def ranks : TypeExpr → Nat
  | list item => ranks item + 1
  | _ => 0

def brackets (count : Nat) : List Char :=
  (List.replicate count ['[', ']']).flatten

theorem brackets_succ (count : Nat) : brackets (count + 1) = '[' :: ']' :: brackets count := rfl

theorem brackets_append (count : Nat) : brackets count ++ ['[', ']'] = brackets (count + 1) := by
  induction count with
  | zero => rfl
  | succ count ih => rw [brackets_succ, List.cons_append, List.cons_append, ih, ← brackets_succ]

theorem brackets_inj {count count' : Nat} {rest rest' : List Char}
    (same : brackets count ++ rest = brackets count' ++ rest') (unbracketed : rest.head? ≠ some '[')
    (unbracketed' : rest'.head? ≠ some '[') : count = count' ∧ rest = rest' := by
  induction count generalizing count' with
  | zero =>
    cases count' with
    | zero => exact ⟨rfl, same⟩
    | succ count' => exact absurd (congrArg List.head? same) unbracketed
  | succ count ih =>
    cases count' with
    | zero => exact absurd (congrArg List.head? same).symm unbracketed'
    | succ count' =>
      rw [brackets_succ, brackets_succ] at same
      obtain ⟨rfl, rfl⟩ := ih (List.cons.inj (List.cons.inj same).2).2
      exact ⟨rfl, rfl⟩

theorem isList_eq_false {type : TypeExpr} (other : ∀ item, type = list item → False) :
    type.isList = false := by
  cases type with
  | list item => exact (other item rfl).elim
  | _ => rfl

theorem core_of_not_list {type : TypeExpr} (unlisted : type.isList = false) :
    type.core = type ∧ type.ranks = 0 := by
  cases type with
  | list item => cases unlisted
  | _ => exact ⟨rfl, rfl⟩

theorem core_not_list (type : TypeExpr) : type.core.isList = false := by
  induction type using core.induct with
  | case1 item ih => exact ih
  | case2 type other =>
    rw [(core_of_not_list (isList_eq_false other)).1]
    exact isList_eq_false other

theorem core_isRegular {type : TypeExpr} (regular : type.isRegular = true) :
    type.core.isRegular = true := by
  induction type using core.induct with
  | case1 item ih => exact ih ((isRegular_iff.mp regular).2 item (List.mem_singleton_self item))
  | case2 type other =>
    rw [(core_of_not_list (isList_eq_false other)).1]
    exact regular

theorem eq_of_core {type other : TypeExpr} (same : type.core = other.core)
    (ranked : type.ranks = other.ranks) : type = other := by
  induction type using core.induct generalizing other with
  | case1 item ih =>
    cases other with
    | list item' =>
      have below : item = item' := ih same (Nat.succ.inj ranked)
      rw [below]
    | _ => cases ranked
  | case2 type unlisted =>
    obtain ⟨bare, none⟩ := core_of_not_list (isList_eq_false unlisted)
    have unlisted' : other.isList = false := by
      cases other with
      | list item =>
        rw [none] at ranked
        cases ranked
      | _ => rfl
    rw [← bare, same, (core_of_not_list unlisted').1]

variable {flags depth}

theorem operand_of_simple {type : TypeExpr} (simple : type.isCompound = false) :
    operand flags depth type = (type.render flags depth).toList := by
  rw [operand, simple, parenthesized, if_neg Bool.false_ne_true]

theorem operand_of_compound {type : TypeExpr} (compound : type.isCompound = true) :
    operand flags depth type = '(' :: ((type.render flags depth).toList ++ [')']) := by
  rw [operand, compound, parenthesized, if_pos rfl]
  simp [String.toList_append]

theorem render_list (item : TypeExpr) :
    ((list item).render flags depth).toList = operand flags depth item ++ ['[', ']'] := by
  rw [render]
  exact String.toList_append

theorem operand_list (item : TypeExpr) :
    operand flags depth (list item) = operand flags depth item ++ ['[', ']'] := by
  rw [operand_of_simple rfl, render_list]

theorem operand_core (type : TypeExpr) :
    operand flags depth type = operand flags depth type.core ++ brackets type.ranks := by
  induction type using core.induct with
  | case1 item ih => rw [operand_list, ih, core, ranks, List.append_assoc, brackets_append]
  | case2 type other =>
    obtain ⟨bare, none⟩ := core_of_not_list (isList_eq_false other)
    rw [bare, none]
    exact (List.append_nil _).symm

def Unbracketed (rest : List Char) : Prop :=
  Unworded rest ∧ rest.head? ≠ some '['

def IsCore (type : TypeExpr) : Prop :=
  type.isRegular = true ∧ type.isList = false

theorem unworded_brackets (count : Nat) {rest : List Char} (follow : Unworded rest) :
    Unworded (brackets count ++ rest) := by
  cases count with
  | zero => exact follow
  | succ count => exact unworded_cons (by decide) _

/-- A core that is told apart is told apart with its brackets. -/
theorem delimits_operand {type : TypeExpr}
    (told : Delimits (operand flags depth) IsCore Unworded type.core) :
    Delimits (operand flags depth) (isRegular · = true) Unbracketed type := by
  intro other rest rest' regular follow follow' same
  rw [operand_core type, operand_core other, List.append_assoc, List.append_assoc] at same
  obtain ⟨cores, below⟩ := told other.core _ _ ⟨core_isRegular regular, core_not_list other⟩
    (unworded_brackets _ follow.1) (unworded_brackets _ follow'.1) same
  obtain ⟨ranked, rfl⟩ := brackets_inj below follow.2 follow'.2
  exact ⟨eq_of_core cores ranked, rfl⟩

/-- The character that opens the operand of a type, unless it is a word. -/
def opener? : TypeExpr → Option Char
  | literal (.string _) => some '"'
  | tuple _ _ _ => some '['
  | object _ _ => some '{'
  | union _ => some '('
  | intersection _ => some '('
  | _ => none

theorem opener_not_word {type : TypeExpr} {opener : Char} (opened : type.opener? = some opener) :
    isWordChar opener = false := by
  unfold opener? at opened
  split at opened <;> cases opened <;> decide

def keywords (unknownWord : String) : List (TypeExpr × String) := [
  (unknown, unknownWord),
  (never, "never"),
  (null, "null"),
  (boolean, "boolean"),
  (number, "number"),
  (string, "string"),
  (literal (.boolean true), "true"),
  (literal (.boolean false), "false")]

theorem unknownText_mem (flags : Flags) : unknownText flags ∈ ["unknown", "any"] := by
  unfold unknownText
  split <;> simp

theorem keyword_small {type : TypeExpr} {word : String}
    (listed : (type, word) ∈ keywords (unknownText flags)) :
    isIdentifier word.toList = true ∧ word.toList.head?.any Char.isLower = true ∧
      word ≠ "undefined" := by
  have each : ∀ unknownWord ∈ ["unknown", "any"], ∀ entry ∈ keywords unknownWord,
      isIdentifier entry.2.toList = true ∧ entry.2.toList.head?.any Char.isLower = true ∧
        entry.2 ≠ "undefined" := by decide
  exact each _ (unknownText_mem flags) _ listed

theorem keyword_inj {type other : TypeExpr} {word : String}
    (listed : (type, word) ∈ keywords (unknownText flags))
    (listed' : (other, word) ∈ keywords (unknownText flags)) : type = other := by
  have each : ∀ unknownWord ∈ ["unknown", "any"], ∀ entry ∈ keywords unknownWord,
      ∀ entry' ∈ keywords unknownWord, entry.2 = entry'.2 → entry.1 = entry'.1 := by decide +kernel
  exact each _ (unknownText_mem flags) _ listed _ listed' rfl

theorem operand_keyword {type : TypeExpr} {word : String}
    (listed : (type, word) ∈ keywords (unknownText flags)) :
    operand flags depth type = word.toList := by
  simp only [keywords, List.mem_cons, List.not_mem_nil, or_false, Prod.mk.injEq] at listed
  rcases listed with ⟨rfl, rfl⟩ | ⟨rfl, rfl⟩ | ⟨rfl, rfl⟩ | ⟨rfl, rfl⟩ | ⟨rfl, rfl⟩ | ⟨rfl, rfl⟩ |
    ⟨rfl, rfl⟩ | ⟨rfl, rfl⟩
  all_goals rw [operand_of_simple rfl, render]
  all_goals decide

theorem atom_cases (flags : Flags) {type : TypeExpr} (proper : type.IsCore) (unopened : type.opener? = none) :
    (∃ word, (type, word) ∈ keywords (unknownText flags)) ∨
      (∃ name, type = reference name ∧ isTypeName name.toList = true) ∨
        ∃ value, type = literal (.number (.integer value)) := by
  have here : type.isRegularHere = true := (isRegular_iff.mp proper.1).1
  match type with
  | unknown | never | null | boolean | number | string => simp [keywords]
  | literal (.boolean true) => simp [keywords]
  | literal (.boolean false) => simp [keywords]
  | literal (.number (.integer value)) => exact Or.inr (Or.inr ⟨value, rfl⟩)
  | literal .null | literal (.number (.double _)) | literal (.array _) | literal (.object _) => cases here
  | literal (.string _) => cases unopened
  | verbatim _ => cases here
  | reference name => exact Or.inr (Or.inl ⟨name, rfl, here⟩)
  | list _ => cases proper.2
  | tuple _ _ _ | object _ _ | union _ | intersection _ => cases unopened

theorem operand_reference (name : String) :
    operand flags depth (reference name) = name.toList := by
  rw [operand_of_simple rfl, render]

theorem operand_literal (value : Json) : operand flags depth (literal value) = value.chars := by
  rw [operand_of_simple rfl, render, Json.text, String.toList_ofList]

theorem isTypeName_identifier {name : String} (proper : isTypeName name.toList = true) :
    isIdentifier name.toList = true ∧ name.toList.head?.any Char.isLower = false := by
  rwa [isTypeName, Bool.and_eq_true, Bool.not_eq_true'] at proper

theorem operand_word (flags : Flags) (depth : Nat) {type : TypeExpr} (proper : type.IsCore)
    (unopened : type.opener? = none) :
    isWord (operand flags depth type) = true := by
  rcases atom_cases flags proper unopened with ⟨word, listed⟩ | ⟨name, rfl, named⟩ | ⟨value, rfl⟩
  · rw [operand_keyword listed]
    exact isIdentifier_word (keyword_small listed).1
  · rw [operand_reference]
    exact isIdentifier_word (isTypeName_identifier named).1
  · rw [operand_literal]
    exact integer_word value

theorem operand_word_inj {type other : TypeExpr} (proper : type.IsCore) (proper' : other.IsCore)
    (unopened : type.opener? = none) (unopened' : other.opener? = none)
    (same : operand flags depth type = operand flags depth other) : type = other := by
  -- Keywords are identifiers with a small first letter, names are other identifiers, integers are none.
  have identifiers := congrArg isIdentifier same
  have small := congrArg (·.head?.any Char.isLower) same
  rcases atom_cases flags proper unopened with ⟨word, listed⟩ | ⟨name, rfl, named⟩ | ⟨value, rfl⟩
  · obtain ⟨identifier, lower, _⟩ := keyword_small listed
    simp only [operand_keyword listed, identifier, lower] at same identifiers small
    rcases atom_cases flags proper' unopened' with ⟨word', listed'⟩ | ⟨name, rfl, named⟩ |
      ⟨value, rfl⟩
    · rw [operand_keyword listed'] at same
      rw [String.toList_inj.mp same] at listed
      exact keyword_inj listed listed'
    · rw [operand_reference, (isTypeName_identifier named).2] at small
      cases small
    · rw [operand_literal, Json.chars, integer_not_identifier] at identifiers
      cases identifiers
  · obtain ⟨identifier, large⟩ := isTypeName_identifier named
    simp only [operand_reference, identifier, large] at same identifiers small
    rcases atom_cases flags proper' unopened' with ⟨word', listed'⟩ | ⟨name', rfl, named'⟩ |
      ⟨value, rfl⟩
    · rw [operand_keyword listed', (keyword_small listed').2.1] at small
      cases small
    · rw [operand_reference] at same
      rw [String.toList_inj.mp same]
    · rw [operand_literal, Json.chars, integer_not_identifier] at identifiers
      cases identifiers
  · simp only [operand_literal, Json.chars, integer_not_identifier] at same identifiers
    rcases atom_cases flags proper' unopened' with ⟨word', listed'⟩ | ⟨name', rfl, named'⟩ |
      ⟨value', rfl⟩
    · rw [operand_keyword listed', (keyword_small listed').1] at identifiers
      cases identifiers
    · rw [operand_reference, (isTypeName_identifier named').1] at identifiers
      cases identifiers
    · rw [operand_literal, Json.chars] at same
      rw [integer_chars_inj same]

inductive Operator where
  | bar
  | ampersand
  deriving DecidableEq

def Operator.chars : Operator → List Char
  | .bar => [' ', '|', ' ']
  | .ampersand => [' ', '&', ' ']

def first : TypeExpr → TypeExpr
  | union (arm :: _) => arm
  | intersection (part :: _) => part
  | type => type

/-- The operands after the first, with the operators before them. -/
def links : TypeExpr → List (Operator × TypeExpr)
  | union (_ :: arms) => arms.map (.bar, ·)
  | intersection (_ :: parts) => parts.map (.ampersand, ·)
  | _ => []

def linkText (flags : Flags) (depth : Nat) (link : Operator × TypeExpr) : List Char :=
  link.1.chars ++ operand flags depth link.2

theorem isRegular_union {arms : List TypeExpr} (regular : (union arms).isRegular = true) :
    2 ≤ arms.length ∧ ∀ arm ∈ arms, arm.isUnion = false ∧ arm.isRegular = true := by
  obtain ⟨here, below⟩ := isRegular_iff.mp regular
  simp only [isRegularHere, Bool.and_eq_true, decide_eq_true_eq, List.all_eq_true,
    Bool.not_eq_true'] at here
  exact ⟨here.1, fun arm inside => ⟨here.2 arm inside, below arm inside⟩⟩

theorem isRegular_intersection {parts : List TypeExpr}
    (regular : (intersection parts).isRegular = true) :
    2 ≤ parts.length ∧ ∀ part ∈ parts, part.isIntersection = false ∧ part.isRegular = true := by
  obtain ⟨here, below⟩ := isRegular_iff.mp regular
  simp only [isRegularHere, Bool.and_eq_true, decide_eq_true_eq, List.all_eq_true,
    Bool.not_eq_true'] at here
  exact ⟨here.1, fun part inside => ⟨here.2 part inside, below part inside⟩⟩

/-- Between bars an arm stands as an operand does, unless it is a union. -/
theorem renderArms_eq {arms : List TypeExpr}
    (regular : ∀ arm ∈ arms, arm.isUnion = false ∧ arm.isRegular = true) :
    (renderArms flags depth arms).map String.toList = arms.map (operand flags depth) := by
  rw [renderArms_eq_map, List.map_map]
  refine List.map_congr_left fun arm inside => ?_
  obtain ⟨other, proper⟩ := regular arm inside
  have grouped : arm.bindsInUnion = arm.isCompound := by
    have here := (isRegular_iff.mp proper).1
    cases arm with
    | verbatim text => cases here
    | union arms => cases other
    | _ => rfl
  rw [Function.comp_apply, grouped, operand]

theorem renderParts_eq (parts : List TypeExpr) :
    (renderParts flags depth parts).map String.toList = parts.map (operand flags depth) := by
  rw [renderParts_eq_map, List.map_map]
  rfl

theorem isCompound_regular {type : TypeExpr} (regular : type.isRegular = true) :
    type.isCompound = (type.isUnion || type.isIntersection) := by
  have here := (isRegular_iff.mp regular).1
  cases type with
  | verbatim text => cases here
  | _ => rfl

theorem links_of_simple {type : TypeExpr} (simple : type.isCompound = false) :
    type.first = type ∧ type.links = [] := by
  cases type with
  | union arms => cases simple
  | intersection parts => cases simple
  | _ => exact ⟨rfl, rfl⟩

theorem render_links (flags : Flags) (depth : Nat) {type : TypeExpr} (regular : type.isRegular = true) :
    (type.render flags depth).toList =
      operand flags depth type.first ++ type.links.flatMap (linkText flags depth) := by
  by_cases compound : type.isCompound = true
  · rw [isCompound_regular regular] at compound
    cases type with
    | union arms =>
      obtain ⟨several, each⟩ := isRegular_union regular
      cases arms with
      | nil => simp at several
      | cons arm arms =>
        rw [render, String.toList_intercalate, renderArms_eq each, List.map_cons, flatMap_separator,
          List.flatMap_map, first, links, List.flatMap_map]
        rfl
    | intersection parts =>
      obtain ⟨several, _⟩ := isRegular_intersection regular
      cases parts with
      | nil => simp at several
      | cons part parts =>
        rw [render, String.toList_intercalate, renderParts_eq, List.map_cons, flatMap_separator,
          List.flatMap_map, first, links, List.flatMap_map]
        rfl
    | _ => cases compound
  · rw [Bool.not_eq_true] at compound
    obtain ⟨bare, unlinked⟩ := links_of_simple compound
    rw [bare, unlinked, operand_of_simple compound, List.flatMap_nil, List.append_nil]

def linked (first : TypeExpr) : List (Operator × TypeExpr) → TypeExpr
  | [] => first
  | (.bar, second) :: links => union (first :: second :: links.map (·.2))
  | (.ampersand, second) :: links => intersection (first :: second :: links.map (·.2))

theorem linked_links {type : TypeExpr} (regular : type.isRegular = true) :
    linked type.first type.links = type := by
  cases type with
  | union arms =>
    obtain ⟨several, _⟩ := isRegular_union regular
    match arms with
    | [] => simp at several
    | [_] => simp at several
    | arm :: second :: arms => simp [linked, first, links, Function.comp_def]
  | intersection parts =>
    obtain ⟨several, _⟩ := isRegular_intersection regular
    match parts with
    | [] => simp at several
    | [_] => simp at several
    | part :: second :: parts => simp [linked, first, links, Function.comp_def]
  | _ => rfl

theorem isRegular_links {type : TypeExpr} (regular : type.isRegular = true) :
    type.first.isRegular = true ∧ ∀ link ∈ type.links, link.2.isRegular = true := by
  cases type with
  | union arms =>
    obtain ⟨several, each⟩ := isRegular_union regular
    cases arms with
    | nil => simp at several
    | cons arm arms =>
      rw [List.forall_mem_cons] at each
      refine ⟨each.1.2, fun link inside => ?_⟩
      obtain ⟨other, there, rfl⟩ := List.mem_map.mp inside
      exact (each.2 other there).2
  | intersection parts =>
    obtain ⟨several, each⟩ := isRegular_intersection regular
    cases parts with
    | nil => simp at several
    | cons part parts =>
      rw [List.forall_mem_cons] at each
      refine ⟨each.1.2, fun link inside => ?_⟩
      obtain ⟨other, there, rfl⟩ := List.mem_map.mp inside
      exact (each.2 other there).2
  | _ => exact ⟨regular, fun _ inside => nomatch inside⟩

structure Ends (flags : Flags) (rest : List Char) : Prop where
  unbracketed : Unbracketed rest
  unlinked : ∀ depth link rest', link.2.isRegular = true → Unbracketed rest' →
    linkText flags depth link ++ rest' ≠ rest

theorem unbracketed_cons {char : Char} (other : isWordChar char = false) (bracket : char ≠ '[')
    (rest : List Char) : Unbracketed (char :: rest) :=
  ⟨unworded_cons other rest, fun same => bracket (Option.some.inj same)⟩

theorem unbracketed_linkText (flags : Flags) (depth : Nat) (link : Operator × TypeExpr)
    (rest : List Char) : Unbracketed (linkText flags depth link ++ rest) := by
  obtain ⟨operator, type⟩ := link
  cases operator <;> exact unbracketed_cons (by decide) (by decide) _

theorem ends_cons {char : Char} (other : isWordChar char = false) (bracket : char ≠ '[')
    (blank : char ≠ ' ') (rest : List Char) : Ends flags (char :: rest) := by
  refine ⟨unbracketed_cons other bracket rest, ?_⟩
  rintro depth ⟨operator, type⟩ rest' _ _ same
  cases operator <;> exact blank (List.cons.inj same).1.symm

theorem unbracketed_links (links : List (Operator × TypeExpr)) {rest : List Char}
    (ended : Ends flags rest) : Unbracketed (links.flatMap (linkText flags depth) ++ rest) := by
  cases links with
  | nil => exact ended.unbracketed
  | cons link links =>
    rw [List.flatMap_cons, List.append_assoc]
    exact unbracketed_linkText flags depth link _

theorem delimits_linkText {link : Operator × TypeExpr}
    (told : Delimits (operand flags depth) (isRegular · = true) Unbracketed link.2) :
    Delimits (linkText flags depth) (·.2.isRegular = true) Unbracketed link := by
  obtain ⟨operator, type⟩ := link
  rintro ⟨operator', type'⟩ rest rest' regular follow follow' same
  simp only [linkText, List.append_assoc] at same
  have operators : operator = operator' := by
    cases operator <;> cases operator' <;> first | rfl | simp [Operator.chars] at same
  subst operators
  rw [List.append_cancel_left_eq] at same
  obtain ⟨rfl, rfl⟩ := told type' rest rest' regular follow follow' same
  exact ⟨rfl, rfl⟩

theorem delimits_render {type : TypeExpr} (regular : type.isRegular = true)
    (told : Delimits (operand flags depth) (isRegular · = true) Unbracketed type.first)
    (each : ∀ link ∈ type.links,
      Delimits (operand flags depth) (isRegular · = true) Unbracketed link.2) :
    Delimits (fun type => (type.render flags depth).toList) (isRegular · = true) (Ends flags) type := by
  have tail : Delimits (·.flatMap (linkText flags depth)) (∀ link ∈ ·, link.2.isRegular = true)
      (Ends flags) type.links := by
    apply delimits_flatMap (fun rest => Ends.unbracketed) _ _ (isRegular_links regular).2
    · exact fun link inside => delimits_linkText (each link inside)
    · exact fun link rest _ _ => unbracketed_linkText flags depth link rest
    · exact fun link rest regular follow ended => ended.unlinked depth link rest regular follow rfl
  intro other rest rest' regular' ended ended' same
  simp only [render_links flags depth regular, render_links flags depth regular'] at same
  obtain ⟨both, rfl⟩ := delimits_append (fun links rest _ => unbracketed_links links) told
    (isRegular_links regular).2 tail
    (other.first, other.links) rest rest' (isRegular_links regular') ended ended' same
  obtain ⟨firsts, links⟩ := Prod.mk.inj both
  rw [← linked_links regular, firsts, links, linked_links regular']
  exact ⟨rfl, rfl⟩

end SchemaTypes.TypeExpr
