import SchemaTypes.Pointer

namespace SchemaTypes

theorem slash_not_mem_escapeToken (token : List Char) : '/' ∉ escapeToken token := by
  intro inside
  obtain ⟨char, _, inside⟩ := List.mem_flatMap.mp inside
  split at inside
  · simp at inside
  · split at inside
    · simp at inside
    · rename_i other
      exact other (List.mem_singleton.mp inside).symm

theorem splitChars_of_not_mem {separator : Char} {chars : List Char} (absent : separator ∉ chars) :
    splitChars separator chars = [chars] := by
  induction chars with
  | nil => rfl
  | cons char chars ih =>
    rw [List.mem_cons, not_or] at absent
    rw [splitChars, if_neg fun same => absent.1 same.symm, ih absent.2]

theorem splitChars_append_cons (separator : Char) (chars others : List Char) :
    splitChars separator (chars ++ separator :: others) =
      splitChars separator chars ++ splitChars separator others := by
  induction chars with
  | nil => simp [splitChars]
  | cons char chars ih =>
    rw [List.cons_append, splitChars, splitChars, ih]
    by_cases found : char = separator
    · rw [if_pos found, if_pos found, List.cons_append]
    · rw [if_neg found, if_neg found]
      cases here : splitChars separator chars with
      | nil => exact absurd here (splitChars_ne_nil separator chars)
      | cons part parts => rfl

theorem splitChars_append {separator : Char} {chars : List Char} (absent : separator ∉ chars)
    (others : List Char) :
    splitChars separator (chars ++ separator :: others) = chars :: splitChars separator others := by
  rw [splitChars_append_cons, splitChars_of_not_mem absent, List.singleton_append]

theorem splitChars_pointer (token : String) (pointer : Pointer) :
    splitChars '/' (escapeToken token.toList ++ Pointer.chars pointer) =
      escapeToken token.toList :: pointer.map fun other => escapeToken other.toList := by
  induction pointer generalizing token with
  | nil =>
    rw [Pointer.chars, List.flatMap_nil, List.append_nil]
    exact splitChars_of_not_mem (slash_not_mem_escapeToken token.toList)
  | cons next pointer ih =>
    rw [Pointer.chars, List.flatMap_cons, List.cons_append,
      splitChars_append (slash_not_mem_escapeToken token.toList), ← Pointer.chars, ih, List.map_cons]

theorem ofText?_chars (pointer : Pointer) :
    Pointer.ofText? (String.ofList (Pointer.chars pointer)) = some pointer := by
  cases pointer with
  | nil => rfl
  | cons token pointer =>
    have written : Pointer.chars (token :: pointer) =
        '/' :: (escapeToken token.toList ++ Pointer.chars pointer) := rfl
    rw [Pointer.ofText?, String.toList_ofList, written]
    simp only [splitChars_pointer, List.map_cons, List.map_map, Function.comp_def,
      unescapeToken_escapeToken, String.ofList_toList, List.map_id']

theorem head_toDigits {number : Nat} (positive : number ≠ 0) :
    (Nat.toDigits 10 number).head? ≠ some '0' := by
  induction number using Nat.strongRecOn with
  | ind number ih =>
    by_cases small : number < 10
    · have digit : ∀ value < 10, value ≠ 0 → Nat.digitChar value ≠ '0' := by decide
      rw [Nat.toDigits_of_lt_base small]
      simpa using digit number small positive
    · have front : (Nat.toDigits 10 (number / 10)).head? ≠ some '0' :=
        ih (number / 10) (by omega) (by omega)
      rw [Nat.toDigits_of_base_le (by decide) (by omega), List.head?_append]
      cases here : (Nat.toDigits 10 (number / 10)).head? with
      | none => exact absurd (List.head?_eq_none_iff.mp here) Nat.toDigits_ne_nil
      | some first =>
        rw [here] at front
        exact front

theorem elementIndex?_repr (number : Nat) : elementIndex? (Nat.repr number) = some number := by
  have value : (Nat.toDigits 10 number).foldl (fun index digit => index * 10 + (digit.toNat - 48)) 0 =
      number := by
    have read := Nat.ofDigitChars_ten_toDigits (n := number)
    rw [Nat.ofDigitChars_eq_foldl] at read
    simpa [Nat.mul_comm] using read
  have digits : (Nat.toDigits 10 number).any (fun char => !char.isDigit) = false := by
    rw [List.any_eq_false]
    intro char inside
    simp [Nat.isDigit_of_mem_toDigits (by decide) (by decide) inside]
  have leading : ¬((Nat.toDigits 10 number).head? = some '0' ∧ (Nat.toDigits 10 number).length ≠ 1) := by
    rintro ⟨zero, several⟩
    by_cases nothing : number = 0
    · subst nothing
      simp [Nat.toDigits_zero] at several
    · exact head_toDigits nothing zero
  simp only [elementIndex?, Nat.toList_repr]
  rw [if_neg (by simp [digits]), if_neg leading, value]

namespace Json

/-- The part that a fragment leads to: a number sign and then a pointer in text. -/
def fragment? (text : String) (value : Json) : Option Json :=
  match text.toList with
  | '#' :: chars => (Pointer.ofText? (String.ofList chars)).bind (select? · value)
  | _ => none

theorem fragment?_text (pointer : Pointer) (value : Json) :
    value.fragment? (Pointer.text pointer) = value.select? pointer := by
  rw [fragment?, Pointer.text, String.toList_ofList]
  simp only [ofText?_chars, Option.bind_some]

theorem select?_member {members : List (String × Json)} {key : String} {value : Json}
    (found : members.lookup key = some value) : (object members).select? [key] = some value := by
  simp [select?, part?, found]

theorem select?_element {elements : List Json} {position : Nat} {value : Json}
    (found : elements[position]? = some value) :
    (array elements).select? [Nat.repr position] = some value := by
  simp [select?, part?, elementIndex?_repr, found]

end Json

end SchemaTypes
