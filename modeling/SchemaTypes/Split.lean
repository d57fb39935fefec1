namespace SchemaTypes

def splitChars (separator : Char) : List Char → List (List Char)
  | [] => [[]]
  | char :: chars =>
    if char = separator then [] :: splitChars separator chars
    else
      match splitChars separator chars with
      | [] => [[char]]
      | part :: parts => (char :: part) :: parts

theorem splitChars_ne_nil (separator : Char) (chars : List Char) : splitChars separator chars ≠ [] := by
  cases chars with
  | nil => simp [splitChars]
  | cons char chars =>
    unfold splitChars
    split
    · simp
    · split <;> simp

theorem intercalate_splitChars (separator : Char) (chars : List Char) :
    [separator].intercalate (splitChars separator chars) = chars := by
  induction chars with
  | nil => rfl
  | cons char chars ih =>
    have parts_ne_nil := splitChars_ne_nil separator chars
    unfold splitChars
    cases here : splitChars separator chars with
    | nil => exact absurd here parts_ne_nil
    | cons part parts =>
      rw [here] at ih
      by_cases found : char = separator
      · simp [found, List.intercalate_cons_cons, ih]
      · cases parts <;> simp_all [List.intercalate_cons_cons]

end SchemaTypes
