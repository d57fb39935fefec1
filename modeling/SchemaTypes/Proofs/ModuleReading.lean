import SchemaTypes.Proofs.TypeReading
import SchemaTypes.Source.Module
import Mathlib.Data.Set.Operations

/-!
Modules are read back from their source text. A declaration is a header that shows its kind, a name and
a body; nothing needs to be known of what follows it, so a module tells its declarations one by one.
-/

namespace SchemaTypes

theorem delimits_enumMember {member : String × Json} (plain : isPlainLiteral member.2 = true) :
    Delimits (fun member => (enumMemberText member).toList) (isPlainLiteral ·.2 = true) Unworded
      member := by
  intro other rest rest' plain' follow follow' same
  have spaced : ∀ rest : List Char, Unworded (" = ".toList ++ rest) := unworded_cons (by decide)
  simp only [enumMemberText, String.toList_append, List.append_assoc,
    List.append_cancel_left_eq] at same
  obtain ⟨names, below⟩ := delimits_memberKey member.1 other.1 _ _ trivial (spaced _) (spaced _) same
  rw [List.append_cancel_left_eq] at below
  obtain ⟨values, ended⟩ := delimits_literal plain other.2 rest rest' plain' follow follow' below
  exact ⟨Prod.ext names values, ended⟩

def enumEnd (members : List (String × Json)) : List Char :=
  if members.isEmpty then [] else ['\n']

theorem enumBody_eq (members : List (String × Json)) :
    (enumBody members).toList =
      [',', '\n'].intercalate (members.map fun member => (enumMemberText member).toList) ++
        enumEnd members := by
  cases members with
  | nil => rfl
  | cons member members =>
    rw [enumBody, List.isEmpty_cons, if_neg Bool.false_ne_true, String.toList_append,
      String.toList_intercalate, List.map_map]
    rfl

def EnumEnds (rest : List Char) : Prop :=
  rest.head? = some '}' ∨ rest.head? = some '\n'

theorem delimits_enumBody {members : List (String × Json)}
    (plain : ∀ member ∈ members, isPlainLiteral member.2 = true) :
    Delimits (fun members => (enumBody members ++ "\x7d\n").toList)
      (∀ member ∈ ·, isPlainLiteral member.2 = true) (fun _ => True) members := by
  have lines : Delimits
      (fun members => [',', '\n'].intercalate (members.map fun member => (enumMemberText member).toList))
      (∀ member ∈ ·, isPlainLiteral member.2 = true) EnumEnds members := by
    have closing : ∀ rest : List Char, EnumEnds rest → Unworded rest := by
      rintro rest (brace | newline) char first
      · rw [brace] at first
        cases first
        decide
      · rw [newline] at first
        cases first
        decide
    apply delimits_intercalate closing (unworded_cons (by decide)) _ _ plain
    · exact fun member inside => delimits_enumMember (plain member inside)
    · intro rest ended
      simp [EnumEnds] at ended
    · intro member rest _ ended
      simp [EnumEnds, enumMemberText] at ended
  intro others rest rest' plain' _ _ same
  have ended : ∀ (members : List (String × Json)) (rest : List Char),
      EnumEnds (enumEnd members ++ ("\x7d\n".toList ++ rest)) := by
    intro members rest
    cases members with
    | nil => exact Or.inl rfl
    | cons member members => exact Or.inr rfl
  simp only [String.toList_append, enumBody_eq, List.append_assoc] at same
  obtain ⟨rfl, below⟩ := lines others _ _ plain' (ended members rest) (ended others rest') same
  exact ⟨rfl, List.append_cancel_left (List.append_cancel_left below)⟩

namespace Declaration

inductive Kind where
  | interface
  | typeAlias
  | enumeration
  deriving DecidableEq

def Kind.keyword (constEnums : Bool) : Kind → String
  | interface => "interface "
  | typeAlias => "type "
  | enumeration => if constEnums then "const enum " else "enum "

def Kind.letter (constEnums : Bool) : Kind → Char
  | interface => 'i'
  | typeAlias => 't'
  | enumeration => if constEnums then 'c' else 'e'

def kind : Declaration → Kind
  | interface _ _ _ _ => .interface
  | typeAlias _ _ _ => .typeAlias
  | enumeration _ _ _ => .enumeration

def body (flags : Flags) : Declaration → String
  | interface _ _ fields index => " " ++ ((TypeExpr.object fields index).render flags 0 ++ "\n")
  | typeAlias _ _ type => " = " ++ (type.render flags 0 ++ ";\n")
  | enumeration _ _ members => " \x7b\n" ++ (enumBody members ++ "\x7d\n")

def isRegularBody : Declaration → Bool
  | interface _ _ fields index => (TypeExpr.object fields index).isRegular
  | typeAlias _ _ type => type.isRegular
  | enumeration _ _ members => members.all fun member => isPlainLiteral member.2

/-- The form in which typing leaves a declaration without documentation and hints. -/
def isRegular (declaration : Declaration) : Bool :=
  isTypeName declaration.name.toList && declaration.docs.isNone && declaration.isRegularBody

variable {flags : Flags} {declaration : Declaration}

theorem render_undocumented (undocumented : declaration.docs = none) :
    declaration.render flags =
      "export " ++ (declaration.kind.keyword flags.constEnums ++
        (declaration.name ++ declaration.body flags)) := by
  cases declaration with
  | interface name docs fields index =>
    obtain rfl : docs = none := undocumented
    simp only [render, docBlock, kind, Kind.keyword, Declaration.name, body, String.empty_append,
      String.append_assoc]
    rfl
  | typeAlias name docs type =>
    obtain rfl : docs = none := undocumented
    simp only [render, docBlock, kind, Kind.keyword, Declaration.name, body, String.empty_append,
      String.append_assoc]
    rfl
  | enumeration name docs members =>
    obtain rfl : docs = none := undocumented
    simp only [render, docBlock, kind, Kind.keyword, Declaration.name, body, String.empty_append,
      String.append_assoc]

theorem Kind.keyword_letter (constEnums : Bool) (kind : Kind) :
    (kind.keyword constEnums).toList.head? = some (kind.letter constEnums) := by
  cases kind <;> cases constEnums <;> decide

theorem Kind.letter_inj {constEnums : Bool} {kind other : Kind}
    (same : kind.letter constEnums = other.letter constEnums) : kind = other := by
  revert same
  cases constEnums <;> cases kind <;> cases other <;> decide

theorem Kind.keyword_inj {constEnums : Bool} {kind other : Kind} {rest rest' : List Char}
    (same : (kind.keyword constEnums).toList ++ rest = (other.keyword constEnums).toList ++ rest') :
    kind = other ∧ rest = rest' := by
  have letters : some (kind.letter constEnums) = some (other.letter constEnums) := by
    calc some (kind.letter constEnums)
      _ = ((kind.keyword constEnums).toList ++ rest).head? := by
        rw [List.head?_append, keyword_letter, Option.some_or]
      _ = ((other.keyword constEnums).toList ++ rest').head? := congrArg List.head? same
      _ = some (other.letter constEnums) := by
        rw [List.head?_append, keyword_letter, Option.some_or]
  have kinds : kind = other := letter_inj (Option.some.inj letters)
  rw [kinds] at same
  exact ⟨kinds, List.append_cancel_left same⟩

theorem body_starts (declaration : Declaration) (rest : List Char) :
    Unworded ((declaration.body flags).toList ++ rest) := by
  have blank : ∀ rest : List Char, Unworded (' ' :: rest) := unworded_cons (by decide)
  cases declaration <;> rw [body, String.toList_append, List.append_assoc] <;> exact blank _

theorem delimits_body (undocumented : declaration.docs = none)
    (regular : declaration.isRegularBody = true) :
    Delimits (fun declaration => (declaration.body flags).toList)
      (fun other => other.kind = declaration.kind ∧ other.name = declaration.name ∧
        other.docs = none ∧ other.isRegularBody = true)
      (fun _ => True) declaration := by
  rintro other rest rest' ⟨kinds, names, undocumented', regular'⟩ _ _ same
  have newline : ∀ rest, TypeExpr.Ends flags ('\n' :: rest) :=
    TypeExpr.ends_cons (by decide) (by decide) (by decide)
  have semicolon : ∀ rest, TypeExpr.Ends flags (';' :: rest) :=
    TypeExpr.ends_cons (by decide) (by decide) (by decide)
  cases declaration with
  | interface name docs fields index =>
    cases other with
    | interface name' docs' fields' index' =>
      obtain rfl : name' = name := names
      obtain rfl : docs = none := undocumented
      obtain rfl : docs' = none := undocumented'
      simp only [body, String.toList_append, List.append_assoc, List.append_cancel_left_eq] at same
      obtain ⟨types, ended⟩ := (TypeExpr.regular_toldApart flags regular).whole 0 _ _ _ regular'
        (newline rest) (newline rest') same
      obtain ⟨rfl, rfl⟩ := TypeExpr.object.inj types
      exact ⟨rfl, (List.cons.inj ended).2⟩
    | _ => cases kinds
  | typeAlias name docs type =>
    cases other with
    | typeAlias name' docs' type' =>
      obtain rfl : name' = name := names
      obtain rfl : docs = none := undocumented
      obtain rfl : docs' = none := undocumented'
      simp only [body, String.toList_append, List.append_assoc, List.append_cancel_left_eq] at same
      obtain ⟨rfl, ended⟩ := (TypeExpr.regular_toldApart flags regular).whole 0 _ _ _ regular'
        (semicolon ('\n' :: rest)) (semicolon ('\n' :: rest')) same
      exact ⟨rfl, (List.cons.inj (List.cons.inj ended).2).2⟩
    | _ => cases kinds
  | enumeration name docs members =>
    cases other with
    | enumeration name' docs' members' =>
      obtain rfl : name' = name := names
      obtain rfl : docs = none := undocumented
      obtain rfl : docs' = none := undocumented'
      have plain : ∀ member ∈ members, isPlainLiteral member.2 = true := List.all_eq_true.mp regular
      have plain' : ∀ member ∈ members', isPlainLiteral member.2 = true := List.all_eq_true.mp regular'
      have spelled : ∀ members rest, (body flags (enumeration name' none members)).toList ++ rest =
          " \x7b\n".toList ++ ((enumBody members ++ "\x7d\n").toList ++ rest) := by
        intro members rest
        rw [body, String.toList_append, List.append_assoc]
      dsimp only at same
      rw [spelled members rest, spelled members' rest', List.append_cancel_left_eq] at same
      obtain ⟨rfl, ended⟩ := delimits_enumBody plain members' rest rest' plain' trivial trivial same
      exact ⟨rfl, ended⟩
    | _ => cases kinds

theorem isRegular_parts (regular : declaration.isRegular = true) :
    isWord declaration.name.toList = true ∧ declaration.docs = none ∧
      declaration.isRegularBody = true := by
  rw [isRegular, Bool.and_eq_true, Bool.and_eq_true] at regular
  obtain ⟨⟨named, undocumented⟩, regular⟩ := regular
  exact ⟨isIdentifier_word (TypeExpr.isTypeName_identifier named).1,
    Option.isNone_iff_eq_none.mp undocumented, regular⟩

theorem delimits_declaration (regular : declaration.isRegular = true) :
    Delimits (fun declaration => (declaration.render flags).toList) (isRegular · = true)
      (fun _ => True) declaration := by
  intro other rest rest' regular' _ _ same
  obtain ⟨word, undocumented, whole⟩ := isRegular_parts regular
  obtain ⟨word', undocumented', whole'⟩ := isRegular_parts regular'
  simp only [render_undocumented undocumented, render_undocumented undocumented', String.toList_append,
    List.append_assoc, List.append_cancel_left_eq] at same
  obtain ⟨kinds, below⟩ := Kind.keyword_inj same
  obtain ⟨names, bodies⟩ := delimits_isWord word other.name.toList _ _ word'
    (body_starts declaration rest) (body_starts other rest') below
  exact delimits_body undocumented whole other rest rest'
    ⟨kinds.symm, (String.toList_inj.mp names).symm, undocumented', whole'⟩ trivial trivial bodies

end Declaration

theorem declarationsText_inj (flags : Flags) {declarations others : List Declaration}
    (regular : ∀ declaration ∈ declarations, declaration.isRegular = true)
    (regular' : ∀ declaration ∈ others, declaration.isRegular = true)
    (same : declarationsText flags declarations = declarationsText flags others) :
    declarations = others := by
  have told : Delimits (fun declarations => ['\n'].intercalate
      (declarations.map fun declaration => (declaration.render flags).toList))
      (∀ declaration ∈ ·, declaration.isRegular = true) (· = []) declarations := by
    apply delimits_intercalate (fun _ _ => trivial) (fun _ => trivial) _ _ regular
    · exact fun declaration inside => Declaration.delimits_declaration (regular declaration inside)
    · exact fun rest => List.cons_ne_nil _ _
    · intro declaration rest regular
      rw [Declaration.render_undocumented (Declaration.isRegular_parts regular).2.1,
        String.toList_append]
      exact List.cons_ne_nil _ _
  have spelled : ∀ declarations, (declarationsText flags declarations).toList = ['\n'].intercalate
      (declarations.map fun declaration => (declaration.render flags).toList) := by
    intro declarations
    rw [declarationsText, String.toList_intercalate, List.map_map]
    rfl
  have chars := congrArg String.toList same
  rw [spelled, spelled] at chars
  apply (told others [] [] regular' rfl rfl _).1
  rw [List.append_nil, List.append_nil]
  exact chars

/-- No two different lists of regular declarations print as the same text. -/
theorem moduleText_injOn (banner : String) (flags : Flags) :
    Set.InjOn (moduleText banner flags)
      {declarations | ∀ declaration ∈ declarations, declaration.isRegular = true} := by
  intro declarations regular others regular' same
  apply declarationsText_inj flags regular regular'
  have chars := congrArg String.toList same
  rw [moduleText, moduleText, String.toList_append, String.toList_append,
    List.append_cancel_left_eq] at chars
  exact String.toList_inj.mp chars

/-- Rows that may be missing, and a field whose name looks like two. -/
def optionalRows : List Declaration := [
  .typeAlias "Rows" none (.list (.union [.reference "Row", .null])),
  .interface "Row" none [⟨"a: null;\n  b", .string, true, none⟩] none]

def missingRows : List Declaration := [
  .typeAlias "Rows" none (.union [.reference "Row", .list .null]),
  .interface "Row" none [⟨"a", .null, true, none⟩, ⟨"b", .string, true, none⟩] none]

theorem rows_differ :
    (∀ declaration ∈ optionalRows, declaration.isRegular = true) ∧
      (∀ declaration ∈ missingRows, declaration.isRegular = true) ∧ optionalRows ≠ missingRows ∧
        moduleText "" Flags.standard optionalRows ≠ moduleText "" Flags.standard missingRows := by
  have regular : ∀ declaration ∈ optionalRows, declaration.isRegular = true := by decide
  have regular' : ∀ declaration ∈ missingRows, declaration.isRegular = true := by decide
  have different : optionalRows ≠ missingRows := by simp [optionalRows, missingRows]
  refine ⟨regular, regular', different, fun same => ?_⟩
  exact different (moduleText_injOn "" Flags.standard regular regular' same)

end SchemaTypes
