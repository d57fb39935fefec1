import SchemaTypes.Name
import Mathlib.Data.List.Basic

namespace SchemaTypes

def isTypeName (chars : List Char) : Bool :=
  isIdentifier chars && !(chars.head?.any Char.isLower)

theorem isIdentifierStart_isIdentifierChar {char : Char} (start : isIdentifierStart char = true) :
    isIdentifierChar char = true := by
  simp only [isIdentifierStart, isIdentifierChar, Char.isAlphanum, Bool.or_eq_true] at *
  tauto

theorem isDigit_not_start {char : Char} (digit : char.isDigit = true) :
    isIdentifierStart char = false := by
  rw [Bool.eq_false_iff]
  intro start
  simp only [isIdentifierStart, Bool.or_eq_true, decide_eq_true_eq] at start
  rcases start with (letter | rfl) | rfl
  · revert digit letter
    delta Char.isDigit Char.isAlpha Char.isUpper Char.isLower
    grind
  · revert digit
    decide
  · revert digit
    decide

theorem raised_not_small (char : Char) : char.toUpper.isLower = false := by
  delta Char.isLower Char.toUpper
  grind

theorem toUpper_of_not_small {char : Char} (large : char.isLower = false) : char.toUpper = char := by
  revert large
  delta Char.isLower Char.toUpper
  grind

theorem raised_is_identifierChar {char : Char} (usable : isIdentifierChar char = true) :
    isIdentifierChar char.toUpper = true := by
  by_cases small : char.isLower = true
  · have letter : char.toUpper.isAlpha = true := by
      revert small
      delta Char.isAlpha Char.isUpper Char.isLower Char.toUpper
      grind
    simp [isIdentifierChar, Char.isAlphanum, letter]
  · rw [toUpper_of_not_small (by simpa using small)]
    exact usable

theorem joinWords_all (insideWord : Bool) (raw : List Char) :
    (joinWords insideWord raw).all isIdentifierChar = true := by
  induction raw generalizing insideWord with
  | nil => rfl
  | cons char chars ih =>
    by_cases usable : isIdentifierChar char = true
    · cases insideWord
      · simp [joinWords, usable, raised_is_identifierChar usable, ih]
      · simp [joinWords, usable, ih]
    · simp [joinWords, usable, ih]

theorem joinWords_head_not_small (raw : List Char) :
    (joinWords false raw).head?.any Char.isLower = false := by
  induction raw with
  | nil => rfl
  | cons char chars ih =>
    by_cases usable : isIdentifierChar char = true
    · rw [joinWords, if_pos usable]
      exact raised_not_small char
    · rw [joinWords, if_neg usable]
      exact ih

theorem guardDigit_isTypeName {chars : List Char} (some_left : chars ≠ [])
    (usable : chars.all isIdentifierChar = true) (large : chars.head?.any Char.isLower = false) :
    isTypeName (guardDigit chars) = true := by
  cases chars with
  | nil => exact absurd rfl some_left
  | cons char chars =>
    simp only [List.all_cons, Bool.and_eq_true] at usable
    simp only [List.head?_cons, Option.any_some] at large
    by_cases digit : char.isDigit = true
    · have start : isIdentifierStart '_' = true := by decide
      have tall : '_'.isLower = false := by decide
      simp [guardDigit, digit, isTypeName, isIdentifier, start, tall, usable]
    · have start : isIdentifierStart char = true := by
        have letter := usable.1
        simp only [isIdentifierChar, Char.isAlphanum, Bool.or_eq_true] at letter
        simp only [isIdentifierStart, Bool.or_eq_true]
        tauto
      simp [guardDigit, digit, isTypeName, isIdentifier, start, large, usable]

theorem safeName_isTypeName {raw : String} (usable : (safeName raw).isEmpty = false) :
    isTypeName (safeName raw).toList = true := by
  rw [safeName, String.toList_ofList, safeChars]
  apply guardDigit_isTypeName
  · intro nothing
    simp [safeName, safeChars, nothing, guardDigit] at usable
  · exact joinWords_all false raw.toList
  · exact joinWords_head_not_small raw.toList

theorem digits_all (number : Nat) : (Nat.repr number).toList.all isIdentifierChar = true := by
  rw [List.all_eq_true]
  intro char inside
  rw [Nat.toList_repr] at inside
  have digit := Nat.isDigit_of_mem_toDigits (by decide) (by decide) inside
  simp [isIdentifierChar, Char.isAlphanum, digit]

theorem numbered_isTypeName {base : String} (proper : isTypeName base.toList = true) (number : Nat) :
    isTypeName (base ++ Nat.repr number).toList = true := by
  rw [String.toList_append]
  cases here : base.toList with
  | nil => simp [here, isTypeName, isIdentifier] at proper
  | cons first rest =>
    have digits := digits_all number
    rw [here] at proper
    simp only [isTypeName, isIdentifier, List.head?_cons, Option.any_some, Bool.and_eq_true] at proper
    simp only [isTypeName, isIdentifier, List.cons_append, List.all_append, List.head?_cons,
      Option.any_some, Bool.and_eq_true]
    exact ⟨⟨proper.1.1, proper.1.2, digits⟩, proper.2⟩

theorem numbered_injective {base : String} {first second : Nat}
    (same : base ++ Nat.repr first = base ++ Nat.repr second) : first = second := by
  have lists := congrArg String.toList same
  rw [String.toList_append, String.toList_append, List.append_cancel_left_eq, Nat.toList_repr,
    Nat.toList_repr] at lists
  have values := congrArg (fun digits => Nat.ofDigitChars 10 digits 0) lists
  simpa using values

theorem numbered_ne_base (base : String) (number : Nat) : base ++ Nat.repr number ≠ base := by
  intro same
  have lengths := congrArg String.length same
  have longer := Nat.length_repr_pos (n := number)
  rw [String.length_append] at lengths
  omega

/-- With more tries than taken names, numbering ends at the first number whose name is free. -/
theorem numberFrom_free (base : String) (taken : List String) (number tries : Nat)
    (enough : taken.length < tries) :
    ∃ chosen, number ≤ chosen ∧ numberFrom base taken number tries = base ++ Nat.repr chosen ∧
      base ++ Nat.repr chosen ∉ taken ∧
      ∀ smaller, number ≤ smaller → smaller < chosen → base ++ Nat.repr smaller ∈ taken := by
  induction tries generalizing taken number with
  | zero => omega
  | succ tries ih =>
    by_cases found : base ++ Nat.repr number ∈ taken
    · have shorter := List.length_erase_of_mem found
      have positive := List.length_pos_of_mem found
      obtain ⟨chosen, later, same, free, filled⟩ :=
        ih (taken.erase (base ++ Nat.repr number)) (number + 1) (by omega)
      have other : base ++ Nat.repr chosen ≠ base ++ Nat.repr number := by
        intro twice
        have := numbered_injective twice
        omega
      refine ⟨chosen, by omega, by simp [numberFrom, found, same], ?_, ?_⟩
      · intro inside
        exact free ((List.mem_erase_of_ne other).mpr inside)
      · intro smaller least below
        rcases Nat.eq_or_lt_of_le least with rfl | above
        · exact found
        · exact List.mem_of_mem_erase (filled smaller above below)
    · refine ⟨number, Nat.le_refl number, by simp [numberFrom, found], found, ?_⟩
      intro smaller least below
      omega

/-- The base itself if it is free, or else the base with the first number that makes it free. -/
inductive IsFirstFree (base : String) (taken : List String) : String → Prop
  | base (free : base ∉ taken) : IsFirstFree base taken base
  | numbered {number : Nat} (used : base ∈ taken) (positive : 1 ≤ number)
      (free : base ++ Nat.repr number ∉ taken)
      (filled : ∀ smaller, 1 ≤ smaller → smaller < number → base ++ Nat.repr smaller ∈ taken) :
      IsFirstFree base taken (base ++ Nat.repr number)

theorem freshName_isFirstFree (base : String) (taken : List String) :
    IsFirstFree base taken (freshName base taken) := by
  by_cases found : base ∈ taken
  · have shorter := List.length_erase_of_mem found
    have positive := List.length_pos_of_mem found
    obtain ⟨chosen, least, same, free, filled⟩ :=
      numberFrom_free base (taken.erase base) 1 taken.length (by omega)
    have fresh : freshName base taken = base ++ Nat.repr chosen := by
      simp [freshName, found, same]
    rw [fresh]
    refine .numbered found least ?_ ?_
    · intro inside
      exact free ((List.mem_erase_of_ne (numbered_ne_base base chosen)).mpr inside)
    · intro smaller least below
      exact List.mem_of_mem_erase (filled smaller least below)
  · have fresh : freshName base taken = base := by
      simp [freshName, found]
    rw [fresh]
    exact .base found

theorem freshName_spec (base : String) (taken : List String) :
    (freshName base taken = base ∨ ∃ number, freshName base taken = base ++ Nat.repr number) ∧
      freshName base taken ∉ taken := by
  have first := freshName_isFirstFree base taken
  generalize freshName base taken = name at first ⊢
  cases first with
  | base free => exact ⟨Or.inl rfl, free⟩
  | @numbered number _ _ free _ => exact ⟨Or.inr ⟨number, rfl⟩, free⟩

theorem freshName_not_mem (base : String) (taken : List String) : freshName base taken ∉ taken :=
  (freshName_spec base taken).2

theorem freshName_isTypeName {base : String} (proper : isTypeName base.toList = true)
    (taken : List String) : isTypeName (freshName base taken).toList = true := by
  rcases (freshName_spec base taken).1 with same | ⟨number, same⟩
  · rw [same]
    exact proper
  · rw [same]
    exact numbered_isTypeName proper number

end SchemaTypes
