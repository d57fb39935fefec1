import SchemaTypes.Json.StringText
import SchemaTypes.Proofs.Names
import SchemaTypes.Source.Layout

namespace SchemaTypes

/--
Whatever proper rest follows the text of the content, the whole tells the content from all good content,
and it tells where the rest begins.
-/
def Delimits {Content : Type} (text : Content → List Char) (good : Content → Prop)
    (follows : List Char → Prop) (content : Content) : Prop :=
  ∀ other rest rest', good other → follows rest → follows rest' →
    text content ++ rest = text other ++ rest' → content = other ∧ rest = rest'

section

variable {Item : Type} {text : Item → List Char} {good : Item → Prop}
  {follows ends : List Char → Prop}

theorem delimits_flatMap (follows_end : ∀ rest, ends rest → follows rest)
    (follows_item : ∀ item rest, good item → follows rest → follows (text item ++ rest))
    (not_end : ∀ item rest, good item → follows rest → ¬ends (text item ++ rest))
    {items : List Item} (proper : ∀ item ∈ items, good item)
    (each : ∀ item ∈ items, Delimits text good follows item) :
    Delimits (·.flatMap text) (∀ item ∈ ·, good item) ends items := by
  have follows_items : ∀ others : List Item, (∀ item ∈ others, good item) → ∀ rest, ends rest →
      follows (others.flatMap text ++ rest) := by
    intro others proper rest ended
    induction others with
    | nil => exact follows_end rest ended
    | cons item others ih =>
      rw [List.forall_mem_cons] at proper
      rw [List.flatMap_cons, List.append_assoc]
      exact follows_item item _ proper.1 (ih proper.2)
  induction items with
  | nil =>
    intro others rest rest' proper' ended ended' same
    cases others with
    | nil => exact ⟨rfl, same⟩
    | cons other others =>
      rw [List.forall_mem_cons] at proper'
      simp only [List.flatMap_nil, List.nil_append, List.flatMap_cons, List.append_assoc] at same
      rw [same] at ended
      exact absurd ended (not_end other _ proper'.1 (follows_items others proper'.2 rest' ended'))
  | cons item items ih =>
    intro others rest rest' proper' ended ended' same
    rw [List.forall_mem_cons] at proper each
    have later := follows_items items proper.2 rest ended
    cases others with
    | nil =>
      simp only [List.flatMap_nil, List.nil_append, List.flatMap_cons, List.append_assoc] at same
      rw [← same] at ended'
      exact absurd ended' (not_end item _ proper.1 later)
    | cons other others =>
      rw [List.forall_mem_cons] at proper'
      simp only [List.flatMap_cons, List.append_assoc] at same
      have later' := follows_items others proper'.2 rest' ended'
      obtain ⟨rfl, below⟩ := each.1 other _ _ proper'.1 later later' same
      obtain ⟨rfl, rfl⟩ := ih proper.2 each.2 others rest rest' proper'.2 ended ended' below
      exact ⟨rfl, rfl⟩

theorem flatMap_separator {separator : List Char} (item : List Char) (items : List (List Char)) :
    separator.intercalate (item :: items) = item ++ items.flatMap (separator ++ ·) := by
  induction items generalizing item with
  | nil => simp
  | cons next items ih =>
    rw [List.intercalate_cons_cons, ih next, List.flatMap_cons, List.append_assoc, List.append_assoc]

theorem delimits_append {Other : Type} {otherText : Other → List Char} {otherGood : Other → Prop}
    (follow : ∀ other rest, otherGood other → ends rest → follows (otherText other ++ rest))
    {item : Item} {other : Other} (first : Delimits text good follows item)
    (proper : otherGood other) (second : Delimits otherText otherGood ends other) :
    Delimits (fun both : Item × Other => text both.1 ++ otherText both.2)
      (fun both => good both.1 ∧ otherGood both.2) ends (item, other) := by
  rintro ⟨item', other'⟩ rest rest' ⟨proper', proper''⟩ ended ended' same
  simp only [List.append_assoc] at same
  obtain ⟨rfl, below⟩ := first item' _ _ proper' (follow other rest proper ended)
    (follow other' rest' proper'' ended') same
  obtain ⟨rfl, rfl⟩ := second other' rest rest' proper'' ended ended' below
  exact ⟨rfl, rfl⟩

theorem delimits_after {lead : List Char} {item : Item} (told : Delimits text good follows item) :
    Delimits (lead ++ text ·) good follows item := by
  intro other rest rest' proper follow follow' same
  simp only [List.append_assoc, List.append_cancel_left_eq] at same
  exact told other rest rest' proper follow follow' same

/-- Items between separators are told apart if each is and neither items nor separators look like the end. -/
theorem delimits_intercalate {separator : List Char} (follows_end : ∀ rest, ends rest → follows rest)
    (follows_separator : ∀ rest, follows (separator ++ rest))
    (separator_not_end : ∀ rest, ¬ends (separator ++ rest))
    (not_end : ∀ item rest, good item → ¬ends (text item ++ rest))
    {items : List Item} (proper : ∀ item ∈ items, good item)
    (each : ∀ item ∈ items, Delimits text good follows item) :
    Delimits (fun items => separator.intercalate (items.map text)) (∀ item ∈ ·, good item) ends
      items := by
  have joined : ∀ item others, separator.intercalate ((item :: others).map text) =
      text item ++ others.flatMap (separator ++ text ·) := by
    intro item others
    rw [List.map_cons, flatMap_separator, List.flatMap_map]
  have follows_later : ∀ (others : List Item) rest, (∀ item ∈ others, good item) → ends rest →
      follows (others.flatMap (separator ++ text ·) ++ rest) := by
    intro others rest _ ended
    cases others with
    | nil => exact follows_end rest ended
    | cons other others =>
      rw [List.flatMap_cons, List.append_assoc, List.append_assoc]
      exact follows_separator _
  intro others rest rest' proper' ended ended' same
  dsimp only at same
  cases items with
  | nil =>
    cases others with
    | nil => exact ⟨rfl, same⟩
    | cons other others =>
      rw [List.map_nil, List.intercalate_nil, List.nil_append, joined, List.append_assoc] at same
      rw [same] at ended
      exact absurd ended (not_end other _ (proper' other List.mem_cons_self))
  | cons item items =>
    rw [List.forall_mem_cons] at proper each
    cases others with
    | nil =>
      rw [List.map_nil, List.intercalate_nil, List.nil_append, joined, List.append_assoc] at same
      rw [← same] at ended'
      exact absurd ended' (not_end item _ proper.1)
    | cons other others =>
      rw [List.forall_mem_cons] at proper'
      have later : Delimits (·.flatMap (separator ++ text ·)) (∀ item ∈ ·, good item) ends items := by
        apply delimits_flatMap follows_end _ _ proper.2
        · exact fun item inside => delimits_after (each.2 item inside)
        · intro item rest _ _
          rw [List.append_assoc]
          exact follows_separator _
        · intro item rest _ _
          rw [List.append_assoc]
          exact separator_not_end _
      rw [joined, joined] at same
      obtain ⟨both, rfl⟩ := delimits_append follows_later each.1 proper.2 later (other, others) rest
        rest' proper' ended ended' same
      obtain ⟨rfl, rfl⟩ := Prod.mk.inj both
      exact ⟨rfl, rfl⟩

end

def isWordChar (char : Char) : Bool :=
  isIdentifierChar char || char = '-'

def isWord (chars : List Char) : Bool :=
  !chars.isEmpty && chars.all isWordChar

def Unworded (rest : List Char) : Prop :=
  ∀ char, rest.head? = some char → isWordChar char = false

theorem unworded_cons {char : Char} (other : isWordChar char = false) (rest : List Char) :
    Unworded (char :: rest) := by
  intro first same
  cases same
  exact other

theorem delimits_word {word : List Char} (proper : word.all isWordChar = true) :
    Delimits id (·.all isWordChar = true) Unworded word := by
  induction word with
  | nil =>
    intro other rest rest' proper' follow follow' same
    cases other with
    | nil => exact ⟨rfl, same⟩
    | cons char other =>
      rw [List.all_cons, Bool.and_eq_true] at proper'
      have stopped := follow char (congrArg List.head? same)
      rw [proper'.1] at stopped
      cases stopped
  | cons char word ih =>
    intro other rest rest' proper' follow follow' same
    rw [List.all_cons, Bool.and_eq_true] at proper
    cases other with
    | nil =>
      have stopped := follow' char (congrArg List.head? same).symm
      rw [proper.1] at stopped
      cases stopped
    | cons char' other =>
      rw [List.all_cons, Bool.and_eq_true] at proper'
      obtain ⟨rfl, below⟩ := List.cons.inj same
      obtain ⟨rfl, rfl⟩ := ih proper.2 other rest rest' proper'.2 follow follow' below
      exact ⟨rfl, rfl⟩

theorem isIdentifier_word {chars : List Char} (identifier : isIdentifier chars = true) :
    isWord chars = true := by
  have word : ∀ char, isIdentifierChar char = true → isWordChar char = true := by
    intro char usable
    rw [isWordChar, usable, Bool.true_or]
  cases chars with
  | nil => cases identifier
  | cons first rest =>
    rw [isIdentifier, Bool.and_eq_true, List.all_eq_true] at identifier
    rw [isWord, List.isEmpty_cons, Bool.not_false, Bool.true_and, List.all_cons, Bool.and_eq_true,
      List.all_eq_true]
    refine ⟨word first (isIdentifierStart_isIdentifierChar identifier.1), ?_⟩
    exact fun char inside => word char (identifier.2 char inside)

theorem isWord_cons {word : List Char} (proper : isWord word = true) :
    ∃ first rest, word = first :: rest ∧ isWordChar first = true := by
  cases word with
  | nil => cases proper
  | cons first rest =>
    rw [isWord, Bool.and_eq_true, List.all_cons, Bool.and_eq_true] at proper
    exact ⟨first, rest, rfl, proper.2.1⟩

theorem delimits_isWord {word : List Char} (proper : isWord word = true) :
    Delimits id (isWord · = true) Unworded word := by
  rw [isWord, Bool.and_eq_true] at proper
  intro other rest rest' proper'
  rw [isWord, Bool.and_eq_true] at proper'
  exact delimits_word proper.2 other rest rest' proper'.2

theorem hexValue?_digitChar {digit : Nat} (small : digit < 16) :
    hexValue? (Nat.digitChar digit) = some digit := by
  have digits : ∀ digit < 16, hexValue? (Nat.digitChar digit) = some digit := by decide
  exact digits digit small

theorem readHex_hexDigits {code : Nat} (small : code < 32) (rest : List Char) :
    readHex ('0' :: '0' :: hexDigits code ++ rest) = .ok (code, rest) := by
  have zero : hexValue? '0' = some 0 := by decide
  simp only [hexDigits, List.cons_append, List.nil_append, readHex, zero,
    hexValue?_digitChar (show code / 16 < 16 by omega),
    hexValue?_digitChar (show code % 16 < 16 by omega), Except.ok.injEq, Prod.mk.injEq, and_true]
  omega

theorem readStringFrom_escape (done : List Char) {chars rest : List Char} {meant : Char}
    (read : readEscape chars = .ok (meant, rest)) :
    readStringFrom done ('\\' :: chars) = readStringFrom (meant :: done) rest := by
  rw [readStringFrom, if_neg (by decide), if_pos rfl]
  split
  · rename_i read'
    rw [read] at read'
    cases read'
    rfl
  · rename_i failed
    rw [read] at failed
    cases failed

theorem readEscape_code {code : Nat} (small : code < 32) (rest : List Char) :
    readEscape ('u' :: '0' :: '0' :: hexDigits code ++ rest) = .ok (Char.ofNat code, rest) := by
  have high : isHighSurrogate code = false := by simp [isHighSurrogate]; omega
  have low : isLowSurrogate code = false := by simp [isLowSurrogate]; omega
  have hex : readHex ('0' :: '0' :: (hexDigits code ++ rest)) = .ok (code, rest) :=
    readHex_hexDigits small rest
  simp [readEscape, readCodeEscape, hex, bind, Except.bind, high, low]

def escapeLetters : List (Char × Char) := [
  ('"', '"'),
  ('\\', '\\'),
  ('\n', 'n'),
  ('\r', 'r'),
  ('\t', 't'),
  (Char.ofNat 8, 'b'),
  (Char.ofNat 12, 'f')]

theorem escapedChar_letter {char letter : Char} (listed : (char, letter) ∈ escapeLetters) :
    escapedChar char = ['\\', letter] ∧ letter ≠ 'u' ∧ simpleEscape? letter = some char := by
  have each : ∀ entry ∈ escapeLetters, escapedChar entry.1 = ['\\', entry.2] ∧ entry.2 ≠ 'u' ∧
      simpleEscape? entry.2 = some entry.1 := by decide
  exact each (char, letter) listed

theorem escapedChar_other {char : Char} (other : char ∉ escapeLetters.map (·.1)) :
    char ≠ '"' ∧ char ≠ '\\' ∧ escapedChar char =
      if char.toNat < 32 then ['\\', 'u', '0', '0'] ++ hexDigits char.toNat else [char] := by
  simp only [escapeLetters, List.map_cons, List.map_nil, List.mem_cons, List.not_mem_nil, or_false,
    not_or] at other
  obtain ⟨quote, backslash, newline, back, tab, eight, twelve⟩ := other
  refine ⟨quote, backslash, ?_⟩
  simp only [escapedChar, if_neg quote, if_neg backslash, if_neg newline, if_neg back, if_neg tab,
    if_neg eight, if_neg twelve]

theorem readStringFrom_escapedChar (done rest : List Char) (char : Char) :
    readStringFrom done (escapedChar char ++ rest) = readStringFrom (char :: done) rest := by
  by_cases lettered : char ∈ escapeLetters.map (·.1)
  · obtain ⟨⟨_, letter⟩, listed, rfl⟩ := List.mem_map.mp lettered
    obtain ⟨written, other, meant⟩ := escapedChar_letter listed
    rw [written]
    apply readStringFrom_escape
    simp [readEscape, other, meant]
  · obtain ⟨quote, backslash, written⟩ := escapedChar_other lettered
    rw [written]
    by_cases control : char.toNat < 32
    · have code := readStringFrom_escape done (readEscape_code control rest)
      rw [Char.ofNat_toNat] at code
      rw [if_pos control]
      exact code
    · rw [if_neg control, List.singleton_append, readStringFrom, if_neg quote, if_neg backslash,
        if_neg control]

theorem readStringFrom_escaped (done text rest : List Char) :
    readStringFrom done (text.flatMap escapedChar ++ '"' :: rest) = .ok (done.reverse ++ text, rest) := by
  induction text generalizing done with
  | nil =>
    rw [List.flatMap_nil, List.nil_append, readStringFrom, List.append_nil]
    simp
  | cons char text ih =>
    rw [List.flatMap_cons, List.append_assoc, readStringFrom_escapedChar, ih, List.reverse_cons,
      List.append_assoc, List.singleton_append]

theorem readString_quoted (text : String) (rest : List Char) :
    ∃ chars, (quoted text).toList ++ rest = '"' :: chars ∧ readString chars = .ok (text, rest) := by
  refine ⟨text.toList.flatMap escapedChar ++ '"' :: rest, ?_, ?_⟩
  · simp [quoted, quotedChars]
  · rw [readString, readStringFrom_escaped, Except.map]
    simp

theorem delimits_quoted (text : String) :
    Delimits (fun text => (quoted text).toList) (fun _ => True) (fun _ => True) text := by
  intro other rest rest' _ _ _ same
  obtain ⟨chars, spelled, read⟩ := readString_quoted text rest
  obtain ⟨chars', spelled', read'⟩ := readString_quoted other rest'
  dsimp only at same
  rw [spelled, spelled', List.cons_inj_right] at same
  rw [same, read', Except.ok.injEq, Prod.mk.injEq] at read
  exact ⟨read.1.symm, read.2.symm⟩

theorem word_ne_quoted {word : List Char} (proper : isWord word = true) (rest rest' : List Char)
    (text : String) : word ++ rest ≠ (quoted text).toList ++ rest' := by
  intro same
  obtain ⟨first, others, rfl, usable⟩ := isWord_cons proper
  have quote : first = '"' := by
    simpa [quoted, quotedChars] using congrArg List.head? same
  rw [quote] at usable
  exact absurd usable (by decide)

theorem delimits_memberKey (name : String) :
    Delimits (fun name => (memberKey name).toList) (fun _ => True) Unworded name := by
  intro other rest rest' _ follow follow' same
  dsimp only [memberKey] at same
  by_cases bare : isIdentifier name.toList = true
  · have word := isIdentifier_word bare
    by_cases bare' : isIdentifier other.toList = true
    · rw [if_pos bare, if_pos bare'] at same
      obtain ⟨named, rfl⟩ := delimits_isWord word other.toList rest rest' (isIdentifier_word bare')
        follow follow' same
      exact ⟨String.toList_inj.mp named, rfl⟩
    · rw [if_pos bare, if_neg bare'] at same
      exact absurd same (word_ne_quoted word rest rest' other)
  · by_cases bare' : isIdentifier other.toList = true
    · rw [if_neg bare, if_pos bare'] at same
      exact absurd same.symm (word_ne_quoted (isIdentifier_word bare') rest' rest name)
    · rw [if_neg bare, if_neg bare'] at same
      exact delimits_quoted name other rest rest' trivial trivial trivial same

def isPlainLiteral : Json → Bool
  | .string _ => true
  | .boolean _ => true
  | .number (.integer _) => true
  | _ => false

theorem toDigits_inj {number other : Nat} (same : Nat.toDigits 10 number = Nat.toDigits 10 other) :
    number = other := by
  have value := congrArg (Nat.ofDigitChars 10 · 0) same
  simpa [Nat.ofDigitChars_ten_toDigits] using value

theorem toDigits_digits (number : Nat) : ∀ char ∈ Nat.toDigits 10 number, char.isDigit = true :=
  fun _ inside => Nat.isDigit_of_mem_toDigits (by decide) (by decide) inside

theorem integer_chars_inj {value other : Int}
    (same : (Number.integer value).chars = (Number.integer other).chars) : value = other := by
  have unsigned : ∀ (number : Nat) (chars : List Char), Nat.toDigits 10 number ≠ '-' :: chars := by
    intro number chars same
    have digit := toDigits_digits number '-' (by rw [same]; exact List.mem_cons_self)
    exact absurd digit (by decide)
  simp only [Number.chars] at same
  split at same
  · split at same
    · have size := toDigits_inj (List.cons.inj same).2
      omega
    · exact absurd same.symm (unsigned _ _)
  · split at same
    · exact absurd same (unsigned _ _)
    · have size := toDigits_inj same
      omega

theorem integer_word (value : Int) : isWord (Number.integer value).chars = true := by
  have digits : (Nat.toDigits 10 value.natAbs).all isWordChar = true := by
    rw [List.all_eq_true]
    intro char inside
    simp [isWordChar, isIdentifierChar, Char.isAlphanum, toDigits_digits _ char inside]
  rw [Number.chars]
  split
  · rw [isWord, List.all_cons, digits]
    rfl
  · rw [isWord, digits, Bool.and_true, Bool.not_eq_true', List.isEmpty_eq_false_iff]
    exact Nat.toDigits_ne_nil

theorem integer_not_identifier (value : Int) : isIdentifier (Number.integer value).chars = false := by
  rw [Number.chars]
  split
  · rfl
  · cases here : Nat.toDigits 10 value.natAbs with
    | nil => rfl
    | cons first rest =>
      have digit : first.isDigit = true :=
        toDigits_digits value.natAbs first (by rw [here]; exact List.mem_cons_self)
      rw [isIdentifier, isDigit_not_start digit, Bool.false_and]

def truthText (value : Bool) : String :=
  if value then "true" else "false"

theorem chars_boolean (value : Bool) : (Json.boolean value).chars = (truthText value).toList := by
  cases value <;> decide

theorem truthText_identifier (value : Bool) : isIdentifier (truthText value).toList = true := by
  cases value <;> decide

theorem truthText_inj {value other : Bool} (same : truthText value = truthText other) :
    value = other := by
  revert same
  cases value <;> cases other <;> decide

theorem literal_word {value : Json} (plain : isPlainLiteral value = true)
    (other : ∀ text, value ≠ .string text) : isWord value.chars = true := by
  match value with
  | .string text => exact absurd rfl (other text)
  | .boolean value =>
    rw [chars_boolean]
    exact isIdentifier_word (truthText_identifier value)
  | .number (.integer value) => exact integer_word value

theorem literal_word_inj {value other : Json} (plain : isPlainLiteral value = true)
    (plain' : isPlainLiteral other = true) (wordy : ∀ text, value ≠ .string text)
    (wordy' : ∀ text, other ≠ .string text) (same : value.chars = other.chars) : value = other := by
  match value, other with
  | .string text, _ => exact absurd rfl (wordy text)
  | _, .string text => exact absurd rfl (wordy' text)
  | .boolean value, .boolean other =>
    rw [chars_boolean, chars_boolean] at same
    rw [truthText_inj (String.toList_inj.mp same)]
  | .boolean value, .number (.integer other) =>
    have identifier := truthText_identifier value
    rw [← chars_boolean, same, Json.chars, integer_not_identifier] at identifier
    cases identifier
  | .number (.integer value), .boolean other =>
    have identifier := truthText_identifier other
    rw [← chars_boolean, ← same, Json.chars, integer_not_identifier] at identifier
    cases identifier
  | .number (.integer value), .number (.integer other) => rw [integer_chars_inj same]

theorem delimits_literal {value : Json} (plain : isPlainLiteral value = true) :
    Delimits (fun value => value.text.toList) (isPlainLiteral · = true) Unworded value := by
  intro other rest rest' plain' follow follow' same
  have spelled : ∀ text : String, (Json.string text).text = quoted text := fun _ => rfl
  dsimp only at same
  by_cases quotes : ∃ text, value = .string text
  · obtain ⟨text, rfl⟩ := quotes
    by_cases quotes' : ∃ text, other = .string text
    · obtain ⟨text', rfl⟩ := quotes'
      obtain ⟨rfl, rfl⟩ := delimits_quoted text text' rest rest' trivial trivial trivial same
      exact ⟨rfl, rfl⟩
    · have word := literal_word plain' (not_exists.mp quotes')
      rw [spelled, Json.text, String.toList_ofList] at same
      exact absurd same.symm (word_ne_quoted word rest' rest text)
  · have word := literal_word plain (not_exists.mp quotes)
    by_cases quotes' : ∃ text, other = .string text
    · obtain ⟨text, rfl⟩ := quotes'
      rw [spelled, Json.text, String.toList_ofList] at same
      exact absurd same (word_ne_quoted word rest rest' text)
    · have word' := literal_word plain' (not_exists.mp quotes')
      rw [Json.text, Json.text, String.toList_ofList, String.toList_ofList] at same
      obtain ⟨chars, rfl⟩ := delimits_isWord word other.chars rest rest' word' follow follow' same
      exact ⟨literal_word_inj plain plain' (not_exists.mp quotes) (not_exists.mp quotes') chars, rfl⟩

end SchemaTypes
