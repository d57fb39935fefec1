import SchemaTypes.Proofs.Names

/-!
What a name keeps of its text. The usable characters are all there, in order and up to the case of
letters, and before them at most the underscore that guards a digit. A proper name is left as it is, so
the name in a name is the name itself.
-/

namespace SchemaTypes

def usableChars (raw : List Char) : List Char :=
  raw.filter isIdentifierChar

def digitGuard (chars : List Char) : List Char :=
  if chars.head?.any Char.isDigit then ['_'] else []

theorem toUpper_toUpper (char : Char) : char.toUpper.toUpper = char.toUpper :=
  toUpper_of_not_small (raised_not_small char)

theorem isDigit_toUpper (char : Char) : char.toUpper.isDigit = char.isDigit := by
  delta Char.isDigit Char.toUpper
  grind

theorem joinWords_toUpper (insideWord : Bool) (raw : List Char) :
    (joinWords insideWord raw).map Char.toUpper = (usableChars raw).map Char.toUpper := by
  rw [usableChars]
  induction raw generalizing insideWord with
  | nil => rfl
  | cons char chars ih =>
    by_cases usable : isIdentifierChar char = true
    · rw [joinWords, if_pos usable, List.filter_cons_of_pos usable, List.map_cons, List.map_cons, ih]
      cases insideWord with
      | false => rw [if_neg Bool.false_ne_true, toUpper_toUpper]
      | true => rw [if_pos rfl]
    · rw [joinWords, if_neg usable, List.filter_cons_of_neg usable, ih]

theorem joinWords_eq_nil {insideWord : Bool} {raw : List Char} :
    joinWords insideWord raw = [] ↔ usableChars raw = [] := by
  rw [← List.map_eq_nil_iff (f := Char.toUpper), joinWords_toUpper, List.map_eq_nil_iff]

theorem head?_joinWords (raw : List Char) :
    (joinWords false raw).head? = (usableChars raw).head?.map Char.toUpper := by
  rw [usableChars]
  induction raw with
  | nil => rfl
  | cons char chars ih =>
    by_cases usable : isIdentifierChar char = true
    · simp [joinWords, usable]
    · rw [joinWords, if_neg usable, List.filter_cons_of_neg usable, ih]

theorem guardDigit_eq (chars : List Char) : guardDigit chars = digitGuard chars ++ chars := by
  cases chars with
  | nil => rfl
  | cons char chars => cases digit : char.isDigit <;> simp [guardDigit, digitGuard, digit]

theorem digitGuard_joinWords (raw : List Char) :
    digitGuard (joinWords false raw) = digitGuard (usableChars raw) := by
  rw [digitGuard, digitGuard, head?_joinWords]
  cases (usableChars raw).head? with
  | none => rfl
  | some char => simp [isDigit_toUpper]

theorem safeChars_eq (raw : List Char) :
    safeChars raw = digitGuard (usableChars raw) ++ joinWords false raw := by
  rw [safeChars, guardDigit_eq, digitGuard_joinWords]

theorem safeChars_eq_nil {raw : List Char} : safeChars raw = [] ↔ usableChars raw = [] := by
  rw [safeChars_eq, List.append_eq_nil_iff, joinWords_eq_nil]
  constructor
  · exact And.right
  · intro nothing
    rw [nothing]
    exact ⟨rfl, rfl⟩

theorem joinWords_inside {chars : List Char} (usable : chars.all isIdentifierChar = true) :
    joinWords true chars = chars := by
  induction chars with
  | nil => rfl
  | cons char chars ih =>
    rw [List.all_cons, Bool.and_eq_true] at usable
    rw [joinWords, if_pos usable.1, if_pos rfl, ih usable.2]

theorem safeChars_of_isTypeName {chars : List Char} (proper : isTypeName chars = true) :
    safeChars chars = chars := by
  cases chars with
  | nil => cases proper
  | cons first rest =>
    simp only [isTypeName, isIdentifier, List.head?_cons, Option.any_some, Bool.and_eq_true,
      Bool.not_eq_true'] at proper
    obtain ⟨⟨start, usable⟩, large⟩ := proper
    have undigit : first.isDigit = false := by
      rw [Bool.eq_false_iff]
      intro digit
      rw [isDigit_not_start digit] at start
      cases start
    have inside : isIdentifierChar first = true := isIdentifierStart_isIdentifierChar start
    calc
      safeChars (first :: rest) = guardDigit (first.toUpper :: joinWords true rest) := by
        simp [safeChars, joinWords, inside]
      _ = guardDigit (first :: rest) := by rw [toUpper_of_not_small large, joinWords_inside usable]
      _ = first :: rest := by simp [guardDigit, undigit]

theorem safeName_of_isTypeName {name : String} (proper : isTypeName name.toList = true) :
    safeName name = name := by
  rw [safeName, safeChars_of_isTypeName proper, String.ofList_toList]

theorem safeName_eq_empty {raw : String} :
    safeName raw = "" ↔ ∀ char ∈ raw.toList, isIdentifierChar char = false := by
  rw [safeName, String.ofList_eq_empty_iff, safeChars_eq_nil, usableChars, List.filter_eq_nil_iff]
  simp only [Bool.not_eq_true]

/--
The name in a text is empty exactly if the text has no usable character, and else it is an identifier
that does not start with a small letter. It is its own name. Up to the case of letters it is the text
without all other characters, and an underscore before that exactly if it would start with a digit.
-/
theorem name_settled (raw : String) :
    (safeName raw = "" ↔ ∀ char ∈ raw.toList, isIdentifierChar char = false) ∧
      (safeName raw = "" ∨ isTypeName (safeName raw).toList = true) ∧
      safeName (safeName raw) = safeName raw ∧
      (safeName raw).toList.map Char.toUpper =
        digitGuard (usableChars raw.toList) ++ (usableChars raw.toList).map Char.toUpper := by
  have proper : safeName raw = "" ∨ isTypeName (safeName raw).toList = true := by
    cases usable : (safeName raw).isEmpty with
    | true => exact Or.inl (by simpa using usable)
    | false => exact Or.inr (safeName_isTypeName usable)
  refine ⟨safeName_eq_empty, proper, ?_, ?_⟩
  · rcases proper with nothing | proper
    · rw [nothing]
      rfl
    · exact safeName_of_isTypeName proper
  · have guard : (digitGuard (usableChars raw.toList)).map Char.toUpper =
        digitGuard (usableChars raw.toList) := by
      unfold digitGuard
      split <;> rfl
    rw [safeName, String.toList_ofList, safeChars_eq, List.map_append, guard, joinWords_toUpper]

example : safeName "2nd-order.item $id" = "_2ndOrderItem$id" := by decide +kernel

end SchemaTypes
