import SchemaTypes.Proofs.Documentation
import SchemaTypes.Proofs.Renderings

namespace SchemaTypes

open ScanState

def sealedLine (line : List Char) : Bool :=
  decide (comment.keeps line = [] ∧ (comment.after line = comment ∨ comment.after line = star))

def sealedDocs : Option String → Bool
  | none => true
  | some docs => (linesFrom [] docs.toList).all sealedLine

theorem stays_hidden {state : ScanState} {chars : List Char} (unclosed : ¬['*', '/'] <:+: chars)
    (inside : state = comment ∨ state = star ∧ chars.head? ≠ some '/') :
    state.keeps chars = [] ∧ (state.after chars = comment ∨ state.after chars = star) := by
  induction chars generalizing state with
  | nil =>
    rcases inside with rfl | ⟨rfl, _⟩
    · exact ⟨rfl, Or.inl rfl⟩
    · exact ⟨rfl, Or.inr rfl⟩
  | cons char chars ih =>
    have rest : ¬['*', '/'] <:+: chars := by
      intro found
      exact unclosed (found.trans (List.suffix_cons char chars).isInfix)
    have silent : state.kept char = [] := by
      rcases inside with rfl | ⟨rfl, _⟩ <;> rfl
    have stays : state.next char = comment ∨ state.next char = star ∧ chars.head? ≠ some '/' := by
      by_cases starred : char = '*'
      · subst starred
        have unslashed : chars.head? ≠ some '/' := by
          intro slashed
          obtain ⟨others, rfl⟩ := List.head?_eq_some_iff.mp slashed
          exact unclosed ⟨[], others, rfl⟩
        refine Or.inr ⟨?_, unslashed⟩
        rcases inside with rfl | ⟨rfl, _⟩ <;> rfl
      · rcases inside with rfl | ⟨rfl, unslashed⟩
        · exact Or.inl (by simp [next, starred])
        · have other : char ≠ '/' := by simpa using unslashed
          exact Or.inl (by simp [next, starred, other])
    obtain ⟨nothing, ends⟩ := ih rest stays
    rw [keeps, silent, nothing]
    exact ⟨rfl, ends⟩

theorem finishedLine_within (line : List Char) : finishedLine line <:+: line.reverse := by
  unfold finishedLine
  split
  · rename_i line
    rw [List.reverse_cons]
    exact (List.prefix_append line.reverse ['\r']).isInfix
  · exact List.infix_refl _

theorem linesFrom_within (line chars : List Char) :
    ∀ part ∈ linesFrom line chars, part <:+: line.reverse ++ chars := by
  induction chars generalizing line with
  | nil =>
    intro part inside
    rw [linesFrom] at inside
    split at inside
    · cases inside
    · obtain rfl := List.mem_singleton.mp inside
      exact (List.prefix_append line.reverse []).isInfix
  | cons char chars ih =>
    intro part inside
    rw [linesFrom] at inside
    split at inside
    · rcases List.mem_cons.mp inside with rfl | later
      · exact (finishedLine_within line).trans (List.prefix_append _ _).isInfix
      · have below : part <:+: chars := ih [] part later
        exact below.trans ((List.suffix_cons char chars).trans (List.suffix_append _ _)).isInfix
    · have below := ih (char :: line) part inside
      rwa [List.reverse_cons, List.append_assoc, List.singleton_append] at below

theorem sealedDocs_of_unclosed {docs : String} (unclosed : ¬['*', '/'] <:+: docs.toList) :
    sealedDocs (some docs) = true := by
  rw [sealedDocs, List.all_eq_true]
  intro line inside
  have open_line : ¬['*', '/'] <:+: line := fun found =>
    unclosed (found.trans (linesFrom_within [] docs.toList line inside))
  exact decide_eq_true (stays_hidden open_line (Or.inl rfl))

/-- Within a comment the text keeps nothing, and the comment goes on after it. -/
def Hidden (text : String) : Prop :=
  comment.after text.toList = comment ∧ comment.keeps text.toList = []

theorem hidden_append {first second : String} (hidden : Hidden first) (hidden' : Hidden second) :
    Hidden (first ++ second) := by
  unfold Hidden at *
  rw [String.toList_append, after_append, keeps_append, hidden.1, hidden.2]
  exact hidden'

theorem hidden_join {texts : List String} (hidden : ∀ text ∈ texts, Hidden text) :
    Hidden (String.join texts) := by
  induction texts with
  | nil => exact ⟨rfl, rfl⟩
  | cons text texts ih =>
    rw [String.join_cons]
    rw [List.forall_mem_cons] at hidden
    exact hidden_append hidden.1 (ih hidden.2)

theorem hidden_indentation (depth : Nat) : Hidden (indentation depth) := by
  unfold Hidden indentation
  rw [String.toList_ofList]
  induction 2 * depth with
  | zero => exact ⟨rfl, rfl⟩
  | succ count ih => exact ih

theorem hidden_line {line : List Char} (closed : sealedLine line = true) :
    Hidden (" * " ++ String.ofList line ++ "\n") := by
  obtain ⟨nothing, ends⟩ := of_decide_eq_true closed
  have opened : Hidden " * " := ⟨by decide, by decide⟩
  have finished : comment.after (line ++ ['\n']) = comment ∧ comment.keeps (line ++ ['\n']) = [] := by
    rw [after_append, keeps_append, nothing]
    rcases ends with inside | starred
    · rw [inside]
      exact ⟨by decide, by decide⟩
    · rw [starred]
      exact ⟨by decide, by decide⟩
  have rest : Hidden (String.ofList line ++ "\n") := by
    unfold Hidden
    rw [String.toList_append, String.toList_ofList]
    exact finished
  rw [String.append_assoc]
  exact hidden_append opened rest

theorem hidden_lines {docs : String} (closed : sealedDocs (some docs) = true) (depth : Nat) :
    Hidden (String.join
      ((docLines docs).map fun line => indentation depth ++ " * " ++ line ++ "\n")) := by
  apply hidden_join
  intro text inside
  rw [docLines, List.map_map] at inside
  obtain ⟨line, there, rfl⟩ := List.mem_map.mp inside
  have line_closed := List.all_eq_true.mp closed line there
  have hidden := hidden_append (hidden_indentation depth) (hidden_line line_closed)
  rw [← String.append_assoc, ← String.append_assoc] at hidden
  exact hidden

/-- Of a sealed block only its first indentation and its last line end are kept. -/
theorem docBlock_keeps {docs : String} (closed : sealedDocs (some docs) = true) (depth : Nat) :
    Settled (docBlock depth (some docs)) ∧
      code.keeps (docBlock depth (some docs)).toList =
        code.keeps (indentation depth).toList ++ ['\n'] := by
  have start : code.after (indentation depth).toList = code := after_plain (indentation_plain depth)
  have opening : code.after "/**\n".toList = comment ∧ code.keeps "/**\n".toList = [] :=
    ⟨by decide, by decide⟩
  have closing : comment.after " */\n".toList = code ∧ comment.keeps " */\n".toList = ['\n'] :=
    ⟨by decide, by decide⟩
  have lines := hidden_lines closed depth
  have pad := hidden_indentation depth
  constructor
  · simp only [Settled, docBlock, String.toList_append, after_append, start, opening.1, lines.1, pad.1,
      closing.1]
  · simp only [docBlock, String.toList_append, after_append, keeps_append, start, opening.1, opening.2,
      lines.1, lines.2, pad.1, pad.2, closing.2, List.append_nil]

theorem alike_docBlock {docs : Option String} (closed : sealedDocs docs = true) (depth : Nat) :
    Alike (docBlock depth docs) (docBlock depth (blankDocs docs)) := by
  cases docs with
  | none => exact Settled.alike rfl
  | some docs =>
    have blank : sealedDocs (some "") = true := rfl
    have written := docBlock_keeps closed depth
    have written' := docBlock_keeps blank depth
    exact ⟨written.1, written'.1, written.2.trans written'.2.symm⟩

namespace TypeExpr

def permitsFields (permitted : Option String → Bool) : TypeExpr → Bool
  | object fields _ => fields.all fun field => permitted field.docs
  | _ => true

def plainTexts : TypeExpr → Bool
  | verbatim text => text.toList.all isPlain
  | reference name => name.toList.all isPlain
  | _ => true

end TypeExpr

open TypeExpr

/-- What is written for the type differs from what is written without documentation in comments only. -/
def WritesAlike (flags : Flags) (type : TypeExpr) : Prop :=
  ∀ depth, Alike (type.render flags depth) (type.undocumented.render flags depth)

variable {flags : Flags}

theorem WritesAlike.written {type : TypeExpr} (alike : WritesAlike flags type) :
    WrittenAs Alike flags type type.undocumented where
  compound := by cases type <;> rfl
  binds := by cases type <;> rfl
  text := alike

theorem written_fields {fields : List (Field TypeExpr)}
    (closed : ∀ field ∈ fields, sealedDocs field.docs = true)
    (written : ∀ field ∈ fields, WrittenAs Alike flags field.content field.content.undocumented) :
    List.Forall₂ (FieldWrittenAs Alike flags) fields (fields.map undocumentedField) := by
  rw [List.forall₂_map_right_iff, List.forall₂_same]
  intro field inside
  exact ⟨rfl, rfl, alike_docBlock (closed field inside), written field inside⟩

theorem alike_render (type : TypeExpr) (closed : type.everywhere (permitsFields sealedDocs) = true)
    (plain : type.everywhere plainTexts = true) : WritesAlike flags type := by
  induction type using innerInduction with
  | step type ih =>
    obtain ⟨ownClosed, closed⟩ := everywhere_iff.mp closed
    obtain ⟨ownPlain, plain⟩ := everywhere_iff.mp plain
    have parts : ∀ part ∈ type.inner, WrittenAs Alike flags part part.undocumented :=
      fun part inside => (ih part inside (closed part inside) (plain part inside)).written
    intro depth
    cases type with
    | unknown =>
      have settled : Settled (unknownText flags) := by
        unfold unknownText
        cases flags.unknownAny <;> rfl
      exact settled.alike
    | never =>
      have settled : Settled "never" := rfl
      exact settled.alike
    | null =>
      have settled : Settled "null" := rfl
      exact settled.alike
    | boolean =>
      have settled : Settled "boolean" := rfl
      exact settled.alike
    | number =>
      have settled : Settled "number" := rfl
      exact settled.alike
    | string =>
      have settled : Settled "string" := rfl
      exact settled.alike
    | literal value => exact (settled_literal value).alike
    | verbatim text => exact (settled_plain ownPlain).alike
    | reference name => exact (settled_plain ownPlain).alike
    | list item =>
      have written := parts item (List.mem_singleton_self item)
      exact (textRules_alike.list written).text depth
    | tuple elements required rest =>
      have listed := written_map fun type inside => parts type (List.mem_append_left _ inside)
      have after := written_option fun type inside => parts type (List.mem_append_right _ inside)
      rw [undocumented, undocumentedAll_eq, undocumentedOption_eq]
      exact (textRules_alike.tuple required listed after).text depth
    | object fields index =>
      have named := written_fields (List.all_eq_true.mp ownClosed) fun field inside =>
        parts field.content (List.mem_append_left _ (List.mem_map_of_mem inside))
      have indexed := written_option fun type inside => parts type (List.mem_append_right _ inside)
      rw [undocumented, undocumentedFields_eq, undocumentedOption_eq]
      exact (textRules_alike.object named indexed).text depth
    | union arms =>
      rw [undocumented, undocumentedAll_eq]
      exact (textRules_alike.union (written_map parts)).text depth
    | intersection types =>
      rw [undocumented, undocumentedAll_eq]
      exact (textRules_alike.intersection (written_map parts)).text depth

namespace Declaration

def undocumented : Declaration → Declaration
  | interface name docs fields index =>
    interface name (blankDocs docs) (fields.map undocumentedField) (index.map TypeExpr.undocumented)
  | typeAlias name docs type => typeAlias name (blankDocs docs) type.undocumented
  | enumeration name docs members => enumeration name (blankDocs docs) members

def everywhere (check : TypeExpr → Bool) : Declaration → Bool
  | interface _ _ fields index => (TypeExpr.object fields index).everywhere check
  | typeAlias _ _ type => type.everywhere check
  | enumeration _ _ _ => true

def permits (permitted : Option String → Bool) (declaration : Declaration) : Bool :=
  permitted declaration.docs && declaration.everywhere (permitsFields permitted)

def isPlainText (declaration : Declaration) : Bool :=
  declaration.name.toList.all isPlain && declaration.everywhere plainTexts

end Declaration

theorem alike_declaration {declaration : Declaration} (closed : declaration.permits sealedDocs = true)
    (plain : declaration.isPlainText = true) :
    Alike (declaration.render flags) (declaration.undocumented.render flags) := by
  rw [Declaration.permits, Bool.and_eq_true] at closed
  rw [Declaration.isPlainText, Bool.and_eq_true] at plain
  have docs := alike_docBlock closed.1 0
  have name : Alike declaration.name declaration.name := (settled_plain plain.1).alike
  cases declaration with
  | interface name' docs' fields index =>
    have alike : WritesAlike flags (.object fields index) := alike_render _ closed.2 plain.2
    have body := alike.written
    rw [undocumented, undocumentedFields_eq, undocumentedOption_eq] at body
    exact textRules_alike.interface docs name body
  | typeAlias name' docs' type =>
    have alike : WritesAlike flags type := alike_render type closed.2 plain.2
    exact textRules_alike.typeAlias docs name alike.written
  | enumeration name' docs' members => exact textRules_alike.enumeration members docs name

theorem alike_moduleText {banner : String} (settled : Settled banner) {declarations : List Declaration}
    (closed : ∀ declaration ∈ declarations, declaration.permits sealedDocs = true)
    (plain : ∀ declaration ∈ declarations, declaration.isPlainText = true) :
    Alike (moduleText banner flags declarations)
      (moduleText banner flags (declarations.map Declaration.undocumented)) := by
  have lines : Settled "\n\n" := rfl
  have front : Settled (bannerText banner) := by
    unfold bannerText
    split
    · rfl
    · exact settled_append settled lines
  apply textRules_alike.moduleOf front.alike
  rw [List.forall₂_map_right_iff, List.forall₂_same]
  exact fun declaration inside =>
    alike_declaration (closed declaration inside) (plain declaration inside)

end SchemaTypes
