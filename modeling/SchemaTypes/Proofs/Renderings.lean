import Mathlib.Data.List.Forall2
import SchemaTypes.Proofs.Literals
import SchemaTypes.Source.Module

namespace SchemaTypes

open TypeExpr

/-- A relation between texts that is kept when they are put together with settled pieces. -/
structure TextRules (Same : String → String → Prop) : Prop where
  settled {text : String} (settled : Settled text) : Same text text
  append {first second third fourth : String} (front : Same first second) (back : Same third fourth) :
    Same (first ++ third) (second ++ fourth)

theorem textRules_alike : TextRules Alike where
  settled := Settled.alike
  append := Alike.append

/-- The types stand in parentheses in the same places, and their texts are related. -/
structure WrittenAs (Same : String → String → Prop) (flags : Flags) (type other : TypeExpr) : Prop where
  compound : other.isCompound = type.isCompound
  binds : other.bindsInUnion = type.bindsInUnion
  text (depth : Nat) : Same (type.render flags depth) (other.render flags depth)

structure FieldWrittenAs (Same : String → String → Prop) (flags : Flags)
    (field other : Field TypeExpr) : Prop where
  name : other.name = field.name
  required : other.required = field.required
  docs (depth : Nat) : Same (docBlock depth field.docs) (docBlock depth other.docs)
  content : WrittenAs Same flags field.content other.content

section

variable {Same : String → String → Prop} {flags : Flags} {change : TypeExpr → TypeExpr}

theorem written_map {types : List TypeExpr}
    (written : ∀ type ∈ types, WrittenAs Same flags type (change type)) :
    List.Forall₂ (WrittenAs Same flags) types (types.map change) := by
  rw [List.forall₂_map_right_iff, List.forall₂_same]
  exact written

theorem written_option {type : Option TypeExpr}
    (written : ∀ part ∈ type.toList, WrittenAs Same flags part (change part)) :
    Option.Rel (WrittenAs Same flags) type (type.map change) := by
  cases type with
  | none => exact .none
  | some type => exact .some (written type (List.mem_singleton_self type))

end

theorem indentation_plain (depth : Nat) : (indentation depth).toList.all isPlain = true := by
  rw [indentation, String.toList_ofList, List.all_eq_true]
  intro char inside
  obtain rfl := List.eq_of_mem_replicate inside
  decide

theorem settled_indentation (depth : Nat) : Settled (indentation depth) :=
  settled_plain (indentation_plain depth)

namespace TextRules

variable {Same : String → String → Prop} (rules : TextRules Same)

include rules

theorem before {piece text other : String} (settled : Settled piece) (same : Same text other) :
    Same (piece ++ text) (piece ++ other) :=
  rules.append (rules.settled settled) same

theorem after {piece text other : String} (same : Same text other) (settled : Settled piece) :
    Same (text ++ piece) (other ++ piece) :=
  rules.append same (rules.settled settled)

theorem join {texts others : List String} (same : List.Forall₂ Same texts others) :
    Same (String.join texts) (String.join others) := by
  induction same with
  | nil => exact rules.settled rfl
  | cons first _ ih =>
    rw [String.join_cons, String.join_cons]
    exact rules.append first ih

theorem intercalate {separator separator' : String} (between : Same separator separator')
    {texts others : List String} (same : List.Forall₂ Same texts others) :
    Same (String.intercalate separator texts) (String.intercalate separator' others) := by
  induction same with
  | nil => exact rules.settled rfl
  | cons first later ih =>
    cases later with
    | nil =>
      rw [String.intercalate_singleton, String.intercalate_singleton]
      exact first
    | cons second later =>
      rw [String.intercalate_cons_cons, String.intercalate_cons_cons]
      exact rules.append (rules.append first between) ih

theorem inParentheses {text other : String} (same : Same text other) (needed : Bool) :
    Same (parenthesized needed text) (parenthesized needed other) := by
  cases needed with
  | false => exact same
  | true => exact rules.after (rules.before rfl same) rfl

variable {flags : Flags}

theorem operand {type other : TypeExpr} (written : WrittenAs Same flags type other) (depth : Nat) :
    Same (parenthesized type.isCompound (type.render flags depth))
      (parenthesized other.isCompound (other.render flags depth)) := by
  rw [written.compound]
  exact rules.inParentheses (written.text depth) type.isCompound

theorem arm {type other : TypeExpr} (written : WrittenAs Same flags type other) (depth : Nat) :
    Same (parenthesized type.bindsInUnion (type.render flags depth))
      (parenthesized other.bindsInUnion (other.render flags depth)) := by
  rw [written.binds]
  exact rules.inParentheses (written.text depth) type.bindsInUnion

theorem list {item other : TypeExpr} (written : WrittenAs Same flags item other) :
    WrittenAs Same flags (.list item) (.list other) where
  compound := rfl
  binds := rfl
  text depth := rules.after (rules.operand written depth) rfl

theorem elements {types others : List TypeExpr} (written : List.Forall₂ (WrittenAs Same flags) types others)
    (depth required : Nat) :
    List.Forall₂ Same (renderElements flags depth required types)
      (renderElements flags depth required others) := by
  induction written generalizing required with
  | nil => exact List.Forall₂.nil
  | cons first _ ih =>
    refine List.Forall₂.cons ?_ (ih (required - 1))
    split
    · exact rules.after (rules.operand first depth) rfl
    · exact first.text depth

theorem tuple {types others : List TypeExpr} {rest otherRest : Option TypeExpr} (required : Nat)
    (written : List.Forall₂ (WrittenAs Same flags) types others)
    (writtenRest : Option.Rel (WrittenAs Same flags) rest otherRest) :
    WrittenAs Same flags (.tuple types required rest) (.tuple others required otherRest) where
  compound := rfl
  binds := rfl
  text depth := by
    have listed := rules.elements written depth required
    have opening : Settled "[" := rfl
    have comma : Settled ", " := rfl
    cases writtenRest with
    | none => exact rules.after (rules.before opening (rules.intercalate (rules.settled comma) listed)) rfl
    | some after =>
      have dots : Settled "..." := rfl
      have brackets : Settled "[]" := rfl
      have last := rules.after (rules.before dots (rules.operand after depth)) brackets
      have all := List.rel_append listed (List.Forall₂.cons last List.Forall₂.nil)
      exact rules.after (rules.before opening (rules.intercalate (rules.settled comma) all)) rfl

theorem fields {fields others : List (Field TypeExpr)}
    (written : List.Forall₂ (FieldWrittenAs Same flags) fields others) (depth : Nat) :
    List.Forall₂ Same (renderFields flags depth fields) (renderFields flags depth others) := by
  induction written with
  | nil => exact List.Forall₂.nil
  | @cons field other _ _ first _ ih =>
    refine List.Forall₂.cons ?_ ih
    have mark : Settled (if field.required then "" else "?") := by cases field.required <;> rfl
    have key := rules.after (rules.after (first.docs depth) (settled_indentation depth))
      (settled_memberKey field.name)
    have front := rules.after (rules.after key mark) (rfl : Settled ": ")
    rw [first.name, first.required]
    exact rules.after (rules.append front (first.content.text depth)) rfl

theorem objectLines {texts others : List String} {index otherIndex : Option String}
    (listed : List.Forall₂ Same texts others) (indexed : Option.Rel Same index otherIndex)
    (depth : Nat) :
    Same (objectText flags depth texts index) (objectText flags depth others otherIndex) := by
  have undefined : Settled (if flags.strictIndex then " | undefined" else "") := by
    cases flags.strictIndex <;> rfl
  have pad := settled_indentation depth
  have front := rules.before (rfl : Settled "\x7b\n") (rules.join listed)
  cases indexed with
  | none =>
    cases listed with
    | nil =>
      have empty : Settled "\x7b\x7d" := rfl
      exact rules.settled empty
    | cons => exact rules.after (rules.after (rules.after front rfl) pad) rfl
  | some same =>
    have ending : Settled ";\n" := rfl
    have key : Settled (indentation (depth + 1) ++ "[k: string]: ") :=
      settled_append (settled_indentation (depth + 1)) rfl
    have line := rules.after (rules.after (rules.before key same) undefined) ending
    cases listed with
    | nil => exact rules.after (rules.after (rules.append front line) pad) rfl
    | cons => exact rules.after (rules.after (rules.append front line) pad) rfl

theorem object {fields others : List (Field TypeExpr)} {index otherIndex : Option TypeExpr}
    (written : List.Forall₂ (FieldWrittenAs Same flags) fields others)
    (indexed : Option.Rel (WrittenAs Same flags) index otherIndex) :
    WrittenAs Same flags (.object fields index) (.object others otherIndex) where
  compound := rfl
  binds := rfl
  text depth := by
    have listed := rules.fields written (depth + 1)
    -- Fields and index stand one level deeper than the braces around them.
    cases indexed with
    | none => exact rules.objectLines listed .none depth
    | some same => exact rules.objectLines listed (.some (same.text (depth + 1))) depth

theorem union {arms others : List TypeExpr}
    (written : List.Forall₂ (WrittenAs Same flags) arms others) :
    WrittenAs Same flags (.union arms) (.union others) where
  compound := rfl
  binds := rfl
  text depth := by
    have bar : Settled " | " := rfl
    refine rules.intercalate (rules.settled bar) ?_
    induction written with
    | nil => exact List.Forall₂.nil
    | cons first _ ih => exact List.Forall₂.cons (rules.arm first depth) ih

theorem intersection {parts others : List TypeExpr}
    (written : List.Forall₂ (WrittenAs Same flags) parts others) :
    WrittenAs Same flags (.intersection parts) (.intersection others) where
  compound := rfl
  binds := rfl
  text depth := by
    have ampersand : Settled " & " := rfl
    refine rules.intercalate (rules.settled ampersand) ?_
    induction written with
    | nil => exact List.Forall₂.nil
    | cons first _ ih => exact List.Forall₂.cons (rules.operand first depth) ih

variable {name : String} {docs otherDocs : Option String}

theorem interface {fields others : List (Field TypeExpr)} {index otherIndex : Option TypeExpr}
    (documented : Same (docBlock 0 docs) (docBlock 0 otherDocs)) (named : Same name name)
    (written : WrittenAs Same flags (.object fields index) (.object others otherIndex)) :
    Same ((Declaration.interface name docs fields index).render flags)
      ((Declaration.interface name otherDocs others otherIndex).render flags) := by
  have front := rules.append (rules.after documented (rfl : Settled "export interface ")) named
  exact rules.after (rules.append (rules.after front rfl) (written.text 0)) rfl

theorem typeAlias {type other : TypeExpr}
    (documented : Same (docBlock 0 docs) (docBlock 0 otherDocs)) (named : Same name name)
    (written : WrittenAs Same flags type other) :
    Same ((Declaration.typeAlias name docs type).render flags)
      ((Declaration.typeAlias name otherDocs other).render flags) := by
  have front := rules.append (rules.after documented (rfl : Settled "export type ")) named
  exact rules.after (rules.append (rules.after front rfl) (written.text 0)) rfl

theorem enumMembers (members : List (String × Json)) : Same (enumBody members) (enumBody members) := by
  unfold enumBody
  split
  · exact rules.settled rfl
  · have comma : Settled ",\n" := rfl
    refine rules.after (rules.intercalate (rules.settled comma) ?_) rfl
    rw [List.forall₂_same]
    intro text inside
    obtain ⟨member, _, rfl⟩ := List.mem_map.mp inside
    have key := rules.before (rfl : Settled "  ") (rules.settled (settled_memberKey member.1))
    exact rules.after (rules.after key rfl) (settled_literal member.2)

theorem enumeration (members : List (String × Json))
    (documented : Same (docBlock 0 docs) (docBlock 0 otherDocs)) (named : Same name name) :
    Same ((Declaration.enumeration name docs members).render flags)
      ((Declaration.enumeration name otherDocs members).render flags) := by
  have kind : Settled (if flags.constEnums then "const enum " else "enum ") := by
    cases flags.constEnums <;> rfl
  have keywords := rules.after (rules.after documented (rfl : Settled "export ")) kind
  have front := rules.after (rules.append keywords named) (rfl : Settled " \x7b\n")
  exact rules.after (rules.append front (rules.enumMembers members)) rfl

theorem moduleOf {banner : String} {declarations others : List Declaration}
    (front : Same (bannerText banner) (bannerText banner))
    (each : List.Forall₂ (fun declaration other : Declaration =>
      Same (declaration.render flags) (other.render flags)) declarations others) :
    Same (moduleText banner flags declarations) (moduleText banner flags others) := by
  have line : Settled "\n" := rfl
  refine rules.append front (rules.intercalate (rules.settled line) ?_)
  rwa [List.forall₂_map_left_iff, List.forall₂_map_right_iff]

end TextRules

end SchemaTypes
