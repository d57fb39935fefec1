import Mathlib.Tactic.Tauto
import SchemaTypes.Proofs.Comments
import SchemaTypes.Source.Layout

namespace SchemaTypes

open ScanState

theorem isDigit_isPlain {char : Char} (digit : char.isDigit = true) : isPlain char = true := by
  simp only [isPlain, decide_eq_true_eq]
  refine ⟨?_, ?_, ?_, ?_⟩
  all_goals
    rintro rfl
    revert digit
    decide

theorem isIdentifierChar_isPlain {char : Char} (usable : isIdentifierChar char = true) :
    isPlain char = true := by
  simp only [isPlain, decide_eq_true_eq]
  refine ⟨?_, ?_, ?_, ?_⟩
  all_goals
    rintro rfl
    revert usable
    decide

theorem isIdentifier_plain {chars : List Char} (identifier : isIdentifier chars = true) :
    chars.all isPlain = true := by
  cases chars with
  | nil => rfl
  | cons first rest =>
    simp only [isIdentifier, Bool.and_eq_true, List.all_eq_true] at identifier
    have start : isIdentifierChar first = true := by
      have first_start := identifier.1
      simp only [isIdentifierStart, isIdentifierChar, Char.isAlphanum, Bool.or_eq_true] at *
      tauto
    rw [List.all_cons, Bool.and_eq_true, List.all_eq_true]
    exact ⟨isIdentifierChar_isPlain start,
      fun char inside => isIdentifierChar_isPlain (identifier.2 char inside)⟩

theorem settled_memberKey (name : String) : Settled (memberKey name) := by
  unfold memberKey
  split
  · rename_i identifier
    exact settled_plain (isIdentifier_plain identifier)
  · exact settled_quoted name

theorem toDigits_plain (number : Nat) : ∀ char ∈ Nat.toDigits 10 number, isPlain char = true :=
  fun _ inside => isDigit_isPlain (Nat.isDigit_of_mem_toDigits (by decide) (by decide) inside)

theorem replicate_zero_plain (count : Nat) : ∀ char ∈ List.replicate count '0', isPlain char = true := by
  intro char inside
  obtain rfl := List.eq_of_mem_replicate inside
  decide

theorem renderDigits_plain {digits : List Char} (plain : ∀ char ∈ digits, isPlain char = true)
    (exponent : Int) : ∀ char ∈ renderDigits digits exponent, isPlain char = true := by
  have padded : ∀ count, ∀ char ∈ digits ++ List.replicate count '0', isPlain char = true := by
    intro count char inside
    rcases List.mem_append.mp inside with own | zero
    · exact plain char own
    · exact replicate_zero_plain count char zero
  intro char inside
  unfold renderDigits at inside
  split at inside
  · simp only [List.mem_cons, List.mem_append] at inside
    rcases inside with rfl | rfl | zero | own
    · decide
    · decide
    · exact replicate_zero_plain _ char zero
    · exact plain char own
  · split at inside
    · simp only [List.mem_append, List.mem_cons] at inside
      rcases inside with whole | rfl | fraction
      · exact padded _ char (List.mem_of_mem_take whole)
      · decide
      · split at fraction
        · obtain rfl := List.mem_singleton.mp fraction
          decide
        · exact padded _ char (List.mem_of_mem_drop fraction)
    · simp only [List.mem_append, List.mem_cons] at inside
      rcases inside with (first | fraction) | rfl | rfl | power
      · exact plain char (List.mem_of_mem_take first)
      · split at fraction
        · cases fraction
        · rcases List.mem_cons.mp fraction with rfl | own
          · decide
          · exact plain char (List.mem_of_mem_drop own)
      · decide
      · split <;> decide
      · exact toDigits_plain _ char power

theorem double_plain (value : Double) : ∀ char ∈ value.chars, isPlain char = true := by
  have sign : ∀ char ∈ (if value.negative then ['-'] else []), isPlain char = true := by
    intro char signed
    split at signed
    · obtain rfl := List.mem_singleton.mp signed
      decide
    · cases signed
  intro char inside
  unfold Double.chars at inside
  simp only at inside
  split at inside
  · rcases List.mem_append.mp inside with signed | zero
    · exact sign char signed
    · have zeros : ['0', '.', '0'].all isPlain = true := by decide
      exact List.all_eq_true.mp zeros char zero
  · rcases List.mem_append.mp inside with signed | digits
    · exact sign char signed
    · refine renderDigits_plain ?_ _ char digits
      intro digit kept
      rw [dropTrailingZeros, List.mem_reverse] at kept
      exact toDigits_plain _ digit (List.mem_reverse.mp ((List.dropWhile_sublist _).mem kept))

theorem number_plain (value : Number) : ∀ char ∈ value.chars, isPlain char = true := by
  cases value with
  | double value => exact double_plain value
  | integer value =>
    intro char inside
    rw [Number.chars] at inside
    split at inside
    · rcases List.mem_cons.mp inside with rfl | digit
      · decide
      · exact toDigits_plain _ char digit
    · exact toDigits_plain _ char inside

theorem after_cons_plain {char : Char} (plain : isPlain char = true) (chars : List Char) :
    code.after (char :: chars) = code.after chars := by
  rw [after, List.foldl_cons, next_of_isPlain plain]
  rfl

mutual

theorem after_chars (value : Json) : code.after value.chars = code := by
  match value with
  | .null => decide
  | .boolean true => decide
  | .boolean false => decide
  | .number value =>
    rw [Json.chars]
    exact after_plain (List.all_eq_true.mpr (number_plain value))
  | .string value =>
    rw [Json.chars]
    exact after_quotedChars value.toList
  | .array [] => decide
  | .array (element :: elements) =>
    rw [Json.chars, List.cons_append, after_cons_plain (by decide), after_append, after_chars element,
      after_charsOfElements elements]
  | .object [] => decide
  | .object ((key, value) :: members) =>
    rw [Json.chars, List.cons_append, List.cons_append, after_cons_plain (by decide), after_append,
      after_append, after_quotedChars, after_cons_plain (by decide), after_chars value,
      after_charsOfMembers members]

theorem after_charsOfElements (elements : List Json) :
    code.after (Json.charsOfElements elements) = code := by
  match elements with
  | [] => decide
  | element :: elements =>
    rw [Json.charsOfElements, List.cons_append, after_cons_plain (by decide), after_append,
      after_chars element, after_charsOfElements elements]

theorem after_charsOfMembers (members : List (String × Json)) :
    code.after (Json.charsOfMembers members) = code := by
  match members with
  | [] => decide
  | (key, value) :: members =>
    rw [Json.charsOfMembers, List.cons_append, List.cons_append, after_cons_plain (by decide),
      after_append, after_append, after_quotedChars, after_cons_plain (by decide), after_chars value,
      after_charsOfMembers members]

end

theorem settled_literal (value : Json) : Settled value.text := by
  rw [Settled, Json.text, String.toList_ofList]
  exact after_chars value

end SchemaTypes
