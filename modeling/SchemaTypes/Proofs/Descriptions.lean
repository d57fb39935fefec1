import SchemaTypes.Proofs.Inertness

/-!
Descriptions in source text. They end up in comments, so source text should not depend on them once
its comments are removed. It does not as long as each description is sealed and none keeps two arms of
a union apart; a description that is not sealed reaches the code.
-/

namespace SchemaTypes

open ScanState

def described (docs : String) : Json :=
  .object [("description", .string docs)]

theorem declaredFor_described (docs : String) (layer : OptionLayer) :
    declaredFor (described docs) layer = .ok [.typeAlias "Root" (some docs) .unknown] :=
  rfl

theorem keeps_line_ne_nil {line : List Char} (unsealed : sealedLine line = false) :
    comment.keeps (" * " ++ String.ofList line ++ "\n").toList ≠ [] := by
  have written : (" * " ++ String.ofList line ++ "\n").toList =
      [' ', '*', ' '] ++ (line ++ ['\n']) := by
    simp only [String.toList_append, String.toList_ofList, List.append_assoc]
    rfl
  have opened : comment.after [' ', '*', ' '] = comment := by decide
  rw [written, keeps_append, opened, keeps_append]
  intro nothing
  rw [List.append_eq_nil_iff, List.append_eq_nil_iff] at nothing
  obtain ⟨_, own, last⟩ := nothing
  have outside : ¬(comment.after line = comment ∨ comment.after line = star) := by
    intro inside
    exact of_decide_eq_false unsealed ⟨own, inside⟩
  rw [not_or] at outside
  revert last
  cases here : comment.after line with
  | comment => exact absurd here outside.1
  | star => exact absurd here outside.2
  | _ => simp [keeps, kept]

theorem keeps_lines_ne_nil {lines : List (List Char)} (unsealed : lines.all sealedLine = false) :
    comment.keeps
      (String.join (lines.map fun line => " * " ++ String.ofList line ++ "\n")).toList ≠ [] := by
  induction lines with
  | nil => cases unsealed
  | cons line lines ih =>
    rw [List.map_cons, String.join_cons, String.toList_append, keeps_append]
    intro nothing
    rw [List.append_eq_nil_iff] at nothing
    cases closed : sealedLine line with
    | false => exact keeps_line_ne_nil closed nothing.1
    | true =>
      rw [(hidden_line closed).1] at nothing
      rw [List.all_cons, closed, Bool.true_and] at unsealed
      exact ih unsealed nothing.2

def ScanState.KeepsPlain (state : ScanState) : Prop :=
  state = code ∨ ∃ quote, state = inQuotes quote

theorem keepsPlain_text {state : ScanState} (keeping : state.KeepsPlain) {chars : List Char}
    (plain : chars.all isPlain = true) : state.after chars = state ∧ state.keeps chars = chars := by
  induction chars with
  | nil => exact ⟨rfl, rfl⟩
  | cons char chars ih =>
    rw [List.all_cons, Bool.and_eq_true] at plain
    have step : state.next char = state ∧ state.kept char = [char] := by
      have apart := of_decide_eq_true plain.1
      rcases keeping with rfl | ⟨quote, rfl⟩
      · exact ⟨next_of_isPlain plain.1, by simp [kept, apart]⟩
      · cases quote <;> simp [next, kept, Quote.mark, apart]
    obtain ⟨stays, keeps_rest⟩ := ih plain.2
    refine ⟨?_, ?_⟩
    · rw [after, List.foldl_cons, step.1]
      exact stays
    · rw [keeps, step.1, step.2, keeps_rest]
      rfl

/-- Wherever a scan stands, the last line of a block leaves it outside comments, with something kept. -/
theorem block_end (state : ScanState) :
    (state.after " */\n".toList).KeepsPlain ∧ state.keeps " */\n".toList ≠ [] := by
  have same : " */\n".toList = [' ', '*', '/', '\n'] := rfl
  rw [same]
  rcases state with _ | _ | _ | _ | quote | quote
  · exact ⟨Or.inl (by decide), by decide⟩
  · exact ⟨Or.inl (by decide), by decide⟩
  · exact ⟨Or.inl (by decide), by decide⟩
  · exact ⟨Or.inl (by decide), by decide⟩
  · refine ⟨Or.inr ⟨quote, ?_⟩, ?_⟩ <;> cases quote <;> decide
  · refine ⟨Or.inr ⟨quote, ?_⟩, ?_⟩ <;> cases quote <;> decide

theorem unsealed_block {docs : String} (unsealed : sealedDocs (some docs) = false) :
    (code.after (docBlock 0 (some docs)).toList).KeepsPlain ∧
      2 ≤ (code.keeps (docBlock 0 (some docs)).toList).length := by
  have opening : code.after "/**\n".toList = comment ∧ code.keeps "/**\n".toList = [] :=
    ⟨by decide, by decide⟩
  have written : docBlock 0 (some docs) = "/**\n" ++ String.join ((linesFrom [] docs.toList).map
      fun line => " * " ++ String.ofList line ++ "\n") ++ " */\n" := by
    have pad : indentation 0 = "" := rfl
    simp only [docBlock, docLines, pad, String.empty_append, String.append_empty, List.map_map,
      Function.comp_def]
  have lines := keeps_lines_ne_nil unsealed
  rw [written]
  simp only [String.toList_append, after_append, keeps_append, opening.1, opening.2, List.nil_append,
    List.length_append]
  have last := block_end (comment.after (String.join ((linesFrom [] docs.toList).map
    fun line => " * " ++ String.ofList line ++ "\n")).toList)
  have front := List.length_pos_iff.mpr lines
  have back := List.length_pos_iff.mpr last.2
  exact ⟨last.1, by omega⟩

theorem withoutComments_append {front : String} (settled : Settled front) (back : String) :
    (withoutComments (front ++ back)).toList = code.keeps front.toList ++
      (code.keeps back.toList ++ (code.after back.toList).waiting) := by
  rw [withoutComments, String.toList_ofList, String.toList_append, keeps_append, after_append, settled,
    List.append_assoc]

theorem length_of_plain_end {front : String} {chars : List Char}
    (keeping : (code.after front.toList).KeepsPlain) (plain : chars.all isPlain = true) :
    (withoutComments (front ++ String.ofList chars)).toList.length =
      (code.keeps front.toList).length + chars.length := by
  obtain ⟨stays, kept⟩ := keepsPlain_text keeping plain
  have settled : (code.after front.toList).waiting = [] := by
    rcases keeping with here | ⟨quote, here⟩ <;> rw [here] <;> rfl
  rw [withoutComments, String.toList_ofList, String.toList_append, String.toList_ofList, keeps_append,
    after_append, stays, kept, settled, List.append_nil, List.length_append]

def rootLine (flags : Flags) : List Char :=
  ("export type Root = " ++ TypeExpr.unknownText flags ++ ";\n").toList

theorem rootLine_plain (flags : Flags) : (rootLine flags).all isPlain = true := by
  rw [rootLine, TypeExpr.unknownText]
  cases flags.unknownAny <;> decide

theorem moduleText_described (banner : String) (flags : Flags) (docs : String) :
    moduleText banner flags [.typeAlias "Root" (some docs) .unknown] =
      bannerText banner ++ docBlock 0 (some docs) ++ String.ofList (rootLine flags) := by
  have line : String.ofList (rootLine flags) =
      "export type " ++ "Root" ++ " = " ++ TypeExpr.unknownText flags ++ ";\n" := by
    rw [rootLine, String.ofList_toList]
    rfl
  rw [moduleText, declarationsText, List.map_singleton, String.intercalate_singleton, line]
  simp only [Declaration.render, TypeExpr.render, String.append_assoc]

/-- Of a schema that is only described, the code depends on the description unless that is sealed. -/
theorem described_inert_iff (banner : String) (settled : Settled (bannerText banner)) (flags : Flags)
    (docs : String) :
    withoutComments (moduleText banner flags [.typeAlias "Root" (some docs) .unknown]) =
        withoutComments (moduleText banner flags [.typeAlias "Root" (some "") .unknown]) ↔
      sealedDocs (some docs) = true := by
  have blank : sealedDocs (some "") = true := rfl
  have plain := rootLine_plain flags
  have length : ∀ text, (code.after (docBlock 0 (some text)).toList).KeepsPlain →
      (withoutComments (moduleText banner flags
        [.typeAlias "Root" (some text) .unknown])).toList.length =
        (code.keeps (bannerText banner).toList).length +
          (code.keeps (docBlock 0 (some text)).toList).length + (rootLine flags).length := by
    intro text keeping
    have keeping' : (code.after (bannerText banner ++ docBlock 0 (some text)).toList).KeepsPlain := by
      rw [String.toList_append, after_append, settled]
      exact keeping
    rw [moduleText_described, length_of_plain_end keeping' plain, String.toList_append, keeps_append,
      settled, List.length_append]
  have bare := docBlock_keeps blank 0
  constructor
  · intro same
    by_contra open_ended
    obtain ⟨keeping, longer⟩ := unsealed_block (Bool.eq_false_iff.mpr open_ended)
    have lengths := congrArg (fun text => text.toList.length) same
    simp only [length docs keeping, length "" (Or.inl bare.1), bare.2] at lengths
    have pad : code.keeps (indentation 0).toList = [] := rfl
    rw [pad] at lengths
    simp only [List.nil_append, List.length_singleton] at lengths
    omega
  · intro closed
    have front := (settled.alike.append (alike_docBlock closed 0))
    have back : Settled (String.ofList (rootLine flags)) := by
      rw [Settled, String.toList_ofList]
      exact after_plain plain
    rw [moduleText_described, moduleText_described]
    exact (front.append back.alike).withoutComments_eq

def describedMember (docs : String) : Json :=
  .object [("properties", .object [("a", described docs)])]

def describedMemberType (docs : String) : TypeExpr :=
  .object [⟨"a", .unknown, false, some docs⟩] (some .unknown)

def describedArms (docs docs' : String) : Json :=
  .object [("anyOf", .array [describedMember docs, describedMember docs'])]

theorem declaredFor_describedArms (docs docs' : String) (layer : OptionLayer) :
    declaredFor (describedArms docs docs') layer = .ok [declarationOfType "Root" none
      (TypeExpr.intersectionOf
        [TypeExpr.unionOf [describedMemberType docs, describedMemberType docs']])] :=
  rfl

theorem describedArms_same (docs : String) :
    TypeExpr.intersectionOf [TypeExpr.unionOf [describedMemberType docs, describedMemberType docs]] =
      describedMemberType docs := by
  have merged : TypeExpr.distinct [describedMemberType docs, describedMemberType docs] =
      [describedMemberType docs] := by
    simp [TypeExpr.distinct_cons, TypeExpr.distinct_nil, TypeExpr.same]
  have flat : [describedMemberType docs, describedMemberType docs].flatMap TypeExpr.arms =
      [describedMemberType docs, describedMemberType docs] := rfl
  have union : TypeExpr.unionOf [describedMemberType docs, describedMemberType docs] =
      describedMemberType docs := by
    rw [TypeExpr.unionOf, flat, merged]
  rw [union]
  rfl

theorem describedArms_apart {docs docs' : String} (apart : docs ≠ docs') :
    TypeExpr.intersectionOf [TypeExpr.unionOf [describedMemberType docs, describedMemberType docs']] =
      .union [describedMemberType docs, describedMemberType docs'] := by
  have different : (describedMemberType docs).same (describedMemberType docs') = false := by
    simp [TypeExpr.same, describedMemberType, TypeExpr.canonical, TypeExpr.canonicalFields, apart]
  have kept : TypeExpr.distinct [describedMemberType docs, describedMemberType docs'] =
      [describedMemberType docs, describedMemberType docs'] := by
    simp [TypeExpr.distinct_cons, TypeExpr.distinct_nil, different]
  have flat : [describedMemberType docs, describedMemberType docs'].flatMap TypeExpr.arms =
      [describedMemberType docs, describedMemberType docs'] := rfl
  have union : TypeExpr.unionOf [describedMemberType docs, describedMemberType docs'] =
      .union [describedMemberType docs, describedMemberType docs'] := by
    rw [TypeExpr.unionOf, flat, kept]
  rw [union]
  rfl

theorem keeps_plain_front (front : String) (plain : front.toList.all isPlain = true) (back : String) :
    code.keeps (front ++ back).toList = front.toList ++ code.keeps back.toList := by
  obtain ⟨stays, kept⟩ := keepsPlain_text (Or.inl rfl) plain
  rw [String.toList_append, keeps_append, stays, kept]

theorem alias_ne_interface {banner : String} (settled : Settled (bannerText banner)) (flags : Flags)
    (name name' : String) (type : TypeExpr) (fields : List (Field TypeExpr)) (index : Option TypeExpr) :
    withoutComments (moduleText banner flags [.typeAlias name none type]) ≠
      withoutComments (moduleText banner flags [.interface name' none fields index]) := by
  intro same
  have written : moduleText banner flags [.typeAlias name none type] =
      bannerText banner ++ ("export type " ++ (name ++ (" = " ++ (type.render flags 0 ++ ";\n")))) := by
    rw [moduleText, declarationsText, List.map_singleton, String.intercalate_singleton]
    simp only [Declaration.render, docBlock, String.empty_append, String.append_assoc]
  have written' : moduleText banner flags [.interface name' none fields index] =
      bannerText banner ++ ("export interface " ++
        (name' ++ (" " ++ ((TypeExpr.object fields index).render flags 0 ++ "\n")))) := by
    rw [moduleText, declarationsText, List.map_singleton, String.intercalate_singleton]
    simp only [Declaration.render, docBlock, String.empty_append, String.append_assoc]
  have texts := congrArg String.toList same
  rw [written, written', withoutComments_append settled, withoutComments_append settled,
    List.append_cancel_left_eq, keeps_plain_front "export type " (by decide),
    keeps_plain_front "export interface " (by decide)] at texts
  have seventh := congrArg (·[7]?) texts
  simp at seventh

section

variable {layer : OptionLayer} (standard : layer.banner = none)

include standard

theorem compile_declared {validator : Json} {declarations : List Declaration}
    (declared : declaredFor validator layer = .ok declarations) :
    compile validator layer = .ok (moduleText (standardBanner validator.namesDecimal)
      (Options.standard.merge layer).flags declarations) := by
  rw [compile_eq, declared, assignment_banner standard]
  rfl

theorem compile_described (docs : String) :
    compile (described docs) layer = .ok (moduleText (standardBanner false)
      (Options.standard.merge layer).flags [.typeAlias "Root" (some docs) .unknown]) :=
  compile_declared standard (declaredFor_described docs layer)

theorem compile_same (docs : String) :
    compile (describedArms docs docs) layer = .ok (moduleText (standardBanner false)
      (Options.standard.merge layer).flags
      [.interface "Root" none [⟨"a", .unknown, false, some docs⟩] (some .unknown)]) := by
  have declared := declaredFor_describedArms docs docs layer
  rw [describedArms_same] at declared
  exact compile_declared standard declared

theorem compile_apart {docs docs' : String} (apart : docs ≠ docs') :
    compile (describedArms docs docs') layer = .ok (moduleText (standardBanner false)
      (Options.standard.merge layer).flags
      [.typeAlias "Root" none (.union [describedMemberType docs, describedMemberType docs'])]) := by
  have declared := declaredFor_describedArms docs docs' layer
  rw [describedArms_apart apart] at declared
  exact compile_declared standard declared

end

/--
Descriptions stay in comments, with two exceptions. Validators that differ in descriptions only fail
alike, and if their declarations are inert, what is written for them is the same without comments;
sealed descriptions make sealed declarations, and a description is sealed if it ends no comment. A
description that is not sealed is written into the code, and two descriptions that differ keep the
arms of a union apart.
-/
theorem descriptions_inert (layer : OptionLayer) (standard : layer.banner = none) :
    (∀ validator other : Json, validator.isHintless = true → other.isHintless = true →
      validator.undescribed = other.undescribed →
        (∃ malformed, compile validator layer = .error malformed ∧
          compile other layer = .error malformed) ∨
        ∃ declarations declarations' text text', declaredFor validator layer = .ok declarations ∧
          declaredFor other layer = .ok declarations' ∧ compile validator layer = .ok text ∧
          compile other layer = .ok text' ∧
          (areInert declarations = true → areInert declarations' = true →
            withoutComments text = withoutComments text')) ∧
      (∀ validator declarations, validator.isHintless = true →
        (∀ members, HasNode validator members →
          sealedDocs (stringMember "description" members) = true) →
        declaredFor validator layer = .ok declarations →
          ∀ declaration ∈ declarations, declaration.permits sealedDocs = true) ∧
      (∀ docs : String, ¬['*', '/'] <:+: docs.toList → sealedDocs (some docs) = true) ∧
      (∀ docs, ∃ text text', compile (described docs) layer = .ok text ∧
        compile (described "") layer = .ok text' ∧
        (withoutComments text = withoutComments text' ↔ sealedDocs (some docs) = true)) ∧
      ∀ docs docs', ∃ text text', compile (describedArms docs docs') layer = .ok text ∧
        compile (describedArms docs docs) layer = .ok text' ∧
        (withoutComments text = withoutComments text' ↔ docs = docs') := by
  have banner := settled_bannerText false
  refine ⟨?_, ?_, ?_, ?_, ?_⟩
  · intro validator other hintless hintless' same
    exact withoutComments_same standard hintless hintless' same
  · intro validator declarations hintless described declared
    exact declaredFor_sealed hintless described declared
  · intro docs unclosed
    exact sealedDocs_of_unclosed unclosed
  · intro docs
    refine ⟨_, _, compile_described standard docs, compile_described standard "", ?_⟩
    exact described_inert_iff _ banner _ docs
  · intro docs docs'
    by_cases equal : docs = docs'
    · subst equal
      exact ⟨_, _, compile_same standard docs, compile_same standard docs, iff_of_true rfl rfl⟩
    · refine ⟨_, _, compile_apart standard equal, compile_same standard docs, ?_⟩
      exact iff_of_false (alias_ne_interface banner _ _ _ _ _ _) equal

def describedOrder (root name : String) : Json :=
  .object [
    ("title", .string "Order"),
    ("description", .string root),
    ("properties", .object [
      ("customer", .object [
        ("title", .string "Customer"),
        ("properties", .object [
          ("name", .object [("bsonType", .string "string"), ("description", .string name)])])]),
      ("total", .object [("anyOf", .array [
        .object [("bsonType", .string "decimal")], .object [("type", .string "null")]])])])]

def describedOrderDeclarations (root name : String) : List Declaration := [
  .interface "Order" (some root) [
    ⟨"customer", .reference "Customer", false, none⟩,
    ⟨"total", .union [.verbatim "Decimal128", .null], false, none⟩] (some .unknown),
  .interface "Customer" none [⟨"name", .verbatim "string", false, some name⟩] (some .unknown)]

theorem describedOrders_alike :
    (∃ text text', compile (describedOrder "one line" "a /* b") OptionLayer.empty = .ok text ∧
      compile (describedOrder "two\r\n\nlines" "it's *") OptionLayer.empty = .ok text' ∧
        withoutComments text = withoutComments text') ∧
      ∃ text text', compile (described "x */ export type Evil = 1; /* y") OptionLayer.empty = .ok text ∧
        compile (described "") OptionLayer.empty = .ok text' ∧
        withoutComments text ≠ withoutComments text' := by
  have whole := descriptions_inert OptionLayer.empty rfl
  constructor
  · have declared : declaredFor (describedOrder "one line" "a /* b") OptionLayer.empty =
        .ok (describedOrderDeclarations "one line" "a /* b") := by decide +kernel
    have declared' : declaredFor (describedOrder "two\r\n\nlines" "it's *") OptionLayer.empty =
        .ok (describedOrderDeclarations "two\r\n\nlines" "it's *") := by decide +kernel
    have both := whole.1 (describedOrder "one line" "a /* b") (describedOrder "two\r\n\nlines" "it's *")
      (by decide +kernel) (by decide +kernel) (by decide +kernel)
    rcases both with ⟨_, failed, _⟩ | ⟨_, _, text, text', here, there, written, written', alike⟩
    · rw [compile_eq, declared] at failed
      cases failed
    · rw [declared] at here
      rw [declared'] at there
      cases here
      cases there
      exact ⟨text, text', written, written', alike (by decide +kernel) (by decide +kernel)⟩
  · obtain ⟨text, text', written, written', same_iff⟩ :=
      whole.2.2.2.1 "x */ export type Evil = 1; /* y"
    refine ⟨text, text', written, written', fun same => ?_⟩
    have closed := same_iff.mp same
    revert closed
    decide +kernel

end SchemaTypes
