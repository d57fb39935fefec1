import SchemaTypes.Source.TypeText

/-!
Verbatim texts where an operator of the type around them could take hold of a part of them. A text that
has a bar, an ampersand or an arrow outside its brackets and quotes binds more loosely than a bracket, a
question mark or an ampersand after it, and most of these bind more loosely than a bar. Whether it is
put in parentheses is decided by single characters, bars, ampersands and blanks, so arrows are noticed
only beside one of them.
-/

namespace SchemaTypes

/-- What has been opened in a text and not closed, innermost first, and whether the reading is in quotes.
After an equals sign a closing angle bracket is the head of an arrow, and after a backslash in quotes the
next character stands for itself. -/
inductive Nesting where
  | outside (awaited : List Char) (afterEquals : Bool)
  | quoted (awaited : List Char) (mark : Char) (escaped : Bool)
  | broken
  deriving DecidableEq, Repr

namespace Nesting

def closer? (char : Char) : Option Char :=
  if char = '(' then some ')'
  else if char = '[' then some ']'
  else if char = '{' then some '}'
  else if char = '<' then some '>'
  else none

def isCloser (char : Char) : Bool :=
  char = ')' || char = ']' || char = '}' || char = '>'

def isQuote (char : Char) : Bool :=
  char = '\'' || char = '"' || char = '\x60'

def close (char : Char) : List Char → Nesting
  | [] => broken
  | expected :: awaited => if char = expected then outside awaited false else broken

def next : Nesting → Char → Nesting
  | outside awaited afterEquals, char =>
    if afterEquals && char = '>' then outside awaited false
    else if isQuote char then quoted awaited char false
    else
      match closer? char with
      | some closer => outside (closer :: awaited) false
      | none => if isCloser char then close char awaited else outside awaited (char = '=')
  | quoted awaited mark escaped, char =>
    if escaped then quoted awaited mark false
    else if char = mark then outside awaited false
    else quoted awaited mark (char = '\\')
  | broken, _ => broken

def after (nesting : Nesting) (chars : List Char) : Nesting :=
  chars.foldl next nesting

def awaits : Nesting → List Char
  | outside awaited _ => awaited
  | quoted awaited _ _ => awaited
  | broken => []

def under (outer : List Char) : Nesting → Nesting
  | outside awaited afterEquals => outside (awaited ++ outer) afterEquals
  | quoted awaited mark escaped => quoted (awaited ++ outer) mark escaped
  | broken => broken

theorem after_append (nesting : Nesting) (first second : List Char) :
    nesting.after (first ++ second) = (nesting.after first).after second :=
  List.foldl_append

theorem after_cons (nesting : Nesting) (char : Char) (chars : List Char) :
    nesting.after (char :: chars) = (nesting.next char).after chars :=
  rfl

theorem broken_after (chars : List Char) : broken.after chars = broken := by
  induction chars with
  | nil => rfl
  | cons char chars ih => exact ih

theorem awaits_under {nesting : Nesting} (sound : nesting ≠ broken) (outer : List Char) :
    (nesting.under outer).awaits = nesting.awaits ++ outer := by
  cases nesting with
  | broken => exact absurd rfl sound
  | _ => rfl

theorem next_under (outer : List Char) {nesting : Nesting} {char : Char}
    (sound : nesting.next char ≠ broken) :
    (nesting.under outer).next char = (nesting.next char).under outer := by
  cases nesting with
  | outside awaited afterEquals =>
    simp only [under, next] at *
    split
    · rfl
    · split
      · rfl
      · split
        · rfl
        · split
          · cases awaited with
            | nil => simp_all [close]
            | cons expected awaited =>
              simp only [List.cons_append, close]
              split <;> rfl
          · rfl
  | quoted awaited mark escaped =>
    simp only [under, next]
    split
    · rfl
    · split <;> rfl
  | broken => rfl

/-- Brackets around a text change nothing in how it is read, as long as it closes none of them. -/
theorem after_under (outer : List Char) {nesting : Nesting} {chars : List Char}
    (sound : nesting.after chars ≠ broken) :
    (nesting.under outer).after chars = (nesting.after chars).under outer := by
  induction chars generalizing nesting with
  | nil => rfl
  | cons char chars ih =>
    rw [after_cons] at *
    have here : nesting.next char ≠ broken := by
      intro failed
      rw [failed, broken_after] at sound
      exact sound rfl
    rw [after_cons, next_under outer here]
    exact ih sound

end Nesting

open Nesting

/-- The text closes what it opens, its brackets and its quotes, and nothing else. -/
def Balanced (text : List Char) : Prop :=
  ∃ afterEquals, (outside [] false).after text = outside [] afterEquals

def StandsOutside (operator text : List Char) : Prop :=
  ∃ front back, text = front ++ (operator ++ back) ∧ Balanced front

/-- The text comes back to the brackets around it at its end and not before, so it is one group there. -/
def IsGroup (text : List Char) : Prop :=
  ∀ outer, (outside outer false).after text = outside outer false ∧
    ∀ front back, text = front ++ back → front ≠ [] → back ≠ [] →
      ∃ within, within ≠ [] ∧ ((outside outer false).after front).awaits = within ++ outer

theorem Balanced.under {text : List Char} (balanced : Balanced text) (outer : List Char) :
    ∃ afterEquals, (outside outer false).after text = outside outer afterEquals := by
  obtain ⟨afterEquals, closed⟩ := balanced
  have sound : (outside [] false).after text ≠ broken := by
    rw [closed]
    nofun
  have moved := after_under outer sound
  rw [closed] at moved
  exact ⟨afterEquals, moved⟩

theorem Balanced.sound {text front back : List Char} (balanced : Balanced text)
    (cut : text = front ++ back) : (outside [] false).after front ≠ broken := by
  intro failed
  obtain ⟨afterEquals, closed⟩ := balanced
  rw [cut, after_append, failed, broken_after] at closed
  cases closed

theorem open_parenthesis (outer : List Char) :
    (outside outer false).next '(' = (outside [] false).under (')' :: outer) := by
  rfl

theorem close_parenthesis (outer : List Char) (afterEquals : Bool) :
    (outside (')' :: outer) afterEquals).next ')' = outside outer false := by
  cases afterEquals <;> rfl

theorem isGroup_parenthesized {text : List Char} (balanced : Balanced text) :
    IsGroup ('(' :: (text ++ [')'])) := by
  intro outer
  constructor
  · obtain ⟨afterEquals, closed⟩ := balanced.under (')' :: outer)
    rw [after_cons, open_parenthesis, after_append]
    change ((outside (')' :: outer) false).after text).next ')' = outside outer false
    rw [closed, close_parenthesis]
  · intro front back cut opened unfinished
    cases front with
    | nil => exact absurd rfl opened
    | cons char front =>
      obtain ⟨rfl, rest⟩ := List.cons.inj cut
      obtain ⟨back, last, rfl⟩ := (List.eq_nil_or_concat back).resolve_left unfinished
      have ends : text ++ [')'] = (front ++ back) ++ [last] := by
        rw [rest, List.concat_eq_append, List.append_assoc]
        rfl
      have inside : text = front ++ back := (List.append_inj' ends rfl).1
      have sound := balanced.sound inside
      rw [after_cons, open_parenthesis, after_under _ sound, awaits_under sound]
      refine ⟨((outside [] false).after front).awaits ++ [')'], by simp, by simp⟩

/-- A type without one of the operands next to its operators. -/
inductive Frame where
  | item
  | optional (before : List TypeExpr) (required : Nat) (enough : required ≤ before.length)
      (later : List TypeExpr) (rest : Option TypeExpr)
  | spread (elements : List TypeExpr) (required : Nat)
  | part (before later : List TypeExpr)
  | arm (before later : List TypeExpr)

namespace Frame

def fill : Frame → TypeExpr → TypeExpr
  | item, type => .list type
  | optional before required _ later rest, type => .tuple (before ++ type :: later) required rest
  | spread elements required, type => .tuple elements required (some type)
  | part before later, type => .intersection (before ++ type :: later)
  | arm before later, type => .union (before ++ type :: later)

/-- The operators that bind more loosely than those next to the operand. -/
def looser : Frame → List String
  | arm _ _ => ["&", "=>"]
  | _ => ["|", "&", "=>"]

/-- The characters that make a verbatim operand stand in parentheses. -/
def signs : Frame → List Char
  | arm _ _ => ['&']
  | _ => ['|', '&', ' ']

def groups : Frame → TypeExpr → Bool
  | arm _ _, type => type.bindsInUnion
  | _, type => type.isCompound

def textBefore (flags : Flags) (depth : Nat) : Frame → String
  | item => ""
  | optional before required _ _ _ =>
    "[" ++ String.join ((TypeExpr.renderElements flags depth required before).map (· ++ ", "))
  | spread elements required =>
    "[" ++ String.join ((TypeExpr.renderElements flags depth required elements).map (· ++ ", ")) ++
      "..."
  | part before _ => String.join ((TypeExpr.renderParts flags depth before).map (· ++ " & "))
  | arm before _ => String.join ((TypeExpr.renderArms flags depth before).map (· ++ " | "))

def textAfter (flags : Flags) (depth : Nat) : Frame → String
  | item => "[]"
  | optional _ _ _ later rest =>
    "?" ++ String.join ((later.map (TypeExpr.optionalText flags depth) ++
      rest.toList.map fun type =>
        "..." ++ parenthesized type.isCompound (type.render flags depth) ++ "[]").map (", " ++ ·)) ++
      "]"
  | spread _ _ => "[]" ++ "]"
  | part _ later => String.join ((TypeExpr.renderParts flags depth later).map (" & " ++ ·))
  | arm _ later => String.join ((TypeExpr.renderArms flags depth later).map (" | " ++ ·))

end Frame

theorem intercalate_cons (separator text : String) (texts : List String) :
    String.intercalate separator (text :: texts) =
      text ++ String.join (texts.map (separator ++ ·)) := by
  induction texts generalizing text with
  | nil => simp
  | cons second texts ih =>
    rw [String.intercalate_cons_cons, ih, List.map_cons, String.join_cons, String.append_assoc,
      String.append_assoc]

theorem intercalate_middle (separator text : String) (before later : List String) :
    String.intercalate separator (before ++ text :: later) =
      String.join (before.map (· ++ separator)) ++ text ++
        String.join (later.map (separator ++ ·)) := by
  induction before with
  | nil => simpa using intercalate_cons separator text later
  | cons first before ih =>
    have filled : ∃ second texts, before ++ text :: later = second :: texts := by
      cases before <;> exact ⟨_, _, rfl⟩
    obtain ⟨second, texts, spelled⟩ := filled
    rw [List.cons_append, spelled, String.intercalate_cons_cons, ← spelled, ih, List.map_cons,
      String.join_cons]
    simp only [String.append_assoc]

theorem render_tuple (flags : Flags) (depth : Nat) (elements : List TypeExpr) (required : Nat)
    (rest : Option TypeExpr) :
    (TypeExpr.tuple elements required rest).render flags depth =
      "[" ++ String.intercalate ", " (TypeExpr.renderElements flags depth required elements ++
        rest.toList.map fun type =>
          "..." ++ parenthesized type.isCompound (type.render flags depth) ++ "[]") ++ "]" := by
  cases rest with
  | none => simp [TypeExpr.render]
  | some type => simp [TypeExpr.render]

theorem render_fill (flags : Flags) (depth : Nat) (frame : Frame) (type : TypeExpr) :
    (frame.fill type).render flags depth =
      frame.textBefore flags depth ++ parenthesized (frame.groups type) (type.render flags depth) ++
        frame.textAfter flags depth := by
  cases frame with
  | item => simp [Frame.fill, Frame.textBefore, Frame.textAfter, Frame.groups, TypeExpr.render]
  | optional before required enough later rest =>
    rw [Frame.fill, render_tuple, TypeExpr.renderElements_append enough, List.append_assoc,
      List.map_cons, List.cons_append, intercalate_middle]
    simp only [Frame.textBefore, Frame.textAfter, Frame.groups, TypeExpr.optionalText,
      String.append_assoc]
  | spread elements required =>
    rw [Frame.fill, render_tuple, Option.toList_some, List.map_singleton, intercalate_middle]
    simp only [Frame.textBefore, Frame.textAfter, Frame.groups, List.map_nil, String.join_nil,
      String.append_assoc, String.append_empty]
  | part before later =>
    rw [Frame.fill, TypeExpr.render, TypeExpr.renderParts_eq_map, List.map_append, List.map_cons,
      intercalate_middle]
    simp only [Frame.textBefore, Frame.textAfter, Frame.groups, TypeExpr.renderParts_eq_map]
  | arm before later =>
    rw [Frame.fill, TypeExpr.render, TypeExpr.renderArms_eq_map, List.map_append, List.map_cons,
      intercalate_middle]
    simp only [Frame.textBefore, Frame.textAfter, Frame.groups, TypeExpr.renderArms_eq_map]

theorem groups_verbatim (frame : Frame) (text : String) :
    frame.groups (.verbatim text) = true ↔ ∃ sign ∈ frame.signs, sign ∈ text.toList := by
  cases frame <;>
    simp [Frame.groups, Frame.signs, TypeExpr.isCompound, TypeExpr.bindsInUnion, and_or_left, exists_or,
      or_assoc]

theorem groups_of_looser {frame : Frame} {operator text : String} (looser : operator ∈ frame.looser)
    (stands : StandsOutside operator.toList text.toList) (other : operator ≠ "=>") :
    frame.groups (.verbatim text) = true := by
  obtain ⟨front, back, spelled, _⟩ := stands
  have single : ∃ sign ∈ frame.signs, operator.toList = [sign] := by
    cases frame <;> simp_all [Frame.looser, Frame.signs] <;> rcases looser with rfl | rfl <;> simp
  obtain ⟨sign, listed, alone⟩ := single
  exact (groups_verbatim frame text).mpr ⟨sign, listed, by simp [spelled, alone]⟩

/-- Between the two characters of an arrow outside its brackets a text has come back to those around it. -/
theorem not_isGroup_of_arrow {text : List Char} (stands : StandsOutside "=>".toList text) :
    ¬ IsGroup text := by
  intro group
  obtain ⟨front, back, rfl, balanced⟩ := stands
  obtain ⟨within, filled, awaited⟩ :=
    (group []).2 (front ++ ['=']) ('>' :: back) (by simp) (by simp) (by simp)
  obtain ⟨afterEquals, closed⟩ := balanced.under []
  have back : (outside [] false).after (front ++ ['=']) = outside [] true := by
    rw [after_append, closed]
    cases afterEquals <;> rfl
  rw [back, List.append_nil] at awaited
  exact filled awaited.symm

/-- A balanced verbatim operand with a bar, an ampersand or an arrow outside its brackets is one group
between the operators around it exactly if it is put in parentheses, and it is unless the arrow is all
there is to notice. -/
theorem verbatim_operand_grouped {frame : Frame} {operator text : String}
    (looser : operator ∈ frame.looser) (stands : StandsOutside operator.toList text.toList)
    (balanced : Balanced text.toList) (flags : Flags) (depth : Nat) :
    (frame.fill (.verbatim text)).render flags depth =
        frame.textBefore flags depth ++ parenthesized (frame.groups (.verbatim text)) text ++
          frame.textAfter flags depth ∧
      (IsGroup (parenthesized (frame.groups (.verbatim text)) text).toList ↔
        frame.groups (.verbatim text) = true) ∧
      (frame.groups (.verbatim text) = true ↔ ∃ sign ∈ frame.signs, sign ∈ text.toList) ∧
      (frame.groups (.verbatim text) = false → operator = "=>") := by
  have arrow (bare : frame.groups (.verbatim text) = false) : operator = "=>" := by
    by_cases other : operator = "=>"
    · exact other
    · rw [groups_of_looser looser stands other] at bare
      cases bare
  refine ⟨?_, ?_, groups_verbatim frame text, arrow⟩
  · rw [render_fill, TypeExpr.render]
  · cases grouped : frame.groups (.verbatim text) with
    | true =>
      have spelled : (parenthesized true text).toList = '(' :: (text.toList ++ [')']) := by
        simp [parenthesized]
      rw [spelled]
      exact iff_of_true (isGroup_parenthesized balanced) rfl
    | false =>
      rw [arrow grouped] at stands
      exact iff_of_false (not_isGroup_of_arrow stands) Bool.false_ne_true

/-- With blanks around its arrow a function type is grouped as the item of a list; without them it is
not, and the brackets take its result alone. -/
theorem callback_items_grouped :
    (StandsOutside "=>".toList "() => void".toList ∧ Balanced "() => void".toList ∧
        IsGroup "(() => void)".toList ∧
        (TypeExpr.list (.verbatim "() => void")).render Flags.standard 0 = "(() => void)[]") ∧
      StandsOutside "=>".toList "()=>void".toList ∧ Balanced "()=>void".toList ∧
        ¬ IsGroup "()=>void".toList ∧
        (TypeExpr.list (.verbatim "()=>void")).render Flags.standard 0 = "()=>void[]" := by
  have spaced : StandsOutside "=>".toList "() => void".toList :=
    ⟨"() ".toList, " void".toList, by decide, false, by decide⟩
  have closed : Balanced "() => void".toList := ⟨false, by decide⟩
  have dense : StandsOutside "=>".toList "()=>void".toList :=
    ⟨"()".toList, "void".toList, by decide, false, by decide⟩
  have shut : Balanced "()=>void".toList := ⟨false, by decide⟩
  have listed : "=>" ∈ Frame.item.looser := by decide
  obtain ⟨shown, group, _⟩ := verbatim_operand_grouped listed spaced closed Flags.standard 0
  obtain ⟨bare, split, _⟩ := verbatim_operand_grouped listed dense shut Flags.standard 0
  exact ⟨⟨spaced, closed, group.mpr (by decide), shown⟩, dense, shut,
    fun whole => absurd (split.mp whole) (by decide), bare⟩

end SchemaTypes
