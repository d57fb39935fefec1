import SchemaTypes.Proofs.DistinctKeys
import SchemaTypes.Proofs.Tokens

namespace SchemaTypes

inductive SpellsCode : List Char → Nat → Prop where
  | four {first second third fourth : Char} {a b c d : Nat} (one : hexValue? first = some a)
      (two : hexValue? second = some b) (three : hexValue? third = some c)
      (last : hexValue? fourth = some d) :
      SpellsCode [first, second, third, fourth] (((a * 16 + b) * 16 + c) * 16 + d)

inductive SpellsChar : List Char → Char → Prop where
  | plain {char : Char} (quote : char ≠ '"') (backslash : char ≠ '\\') (printed : 32 ≤ char.toNat) :
      SpellsChar [char] char
  | letter {char letter : Char} (listed : (char, letter) ∈ escapeLetters) :
      SpellsChar ['\\', letter] char
  | slash : SpellsChar ['\\', '/'] '/'
  | code {digits : List Char} {code : Nat} (written : SpellsCode digits code)
      (notHigh : isHighSurrogate code = false) (notLow : isLowSurrogate code = false) :
      SpellsChar ('\\' :: 'u' :: digits) (Char.ofNat code)
  | pair {first second : List Char} {high low : Nat} (written : SpellsCode first high)
      (isHigh : isHighSurrogate high = true) (written' : SpellsCode second low)
      (isLow : isLowSurrogate low = true) :
      SpellsChar ('\\' :: 'u' :: (first ++ '\\' :: 'u' :: second))
        (Char.ofNat ((high - 0xD800) * 0x400 + (low - 0xDC00) + 0x10000))

inductive SpellsBody : List Char → List Char → Prop where
  | nil : SpellsBody [] []
  | cons {text texts : List Char} {char : Char} {chars : List Char} (first : SpellsChar text char)
      (later : SpellsBody texts chars) : SpellsBody (text ++ texts) (char :: chars)

def SpellsString (text : List Char) (value : String) : Prop :=
  ∃ body, text = '"' :: (body ++ ['"']) ∧ SpellsBody body value.toList

theorem readHex_spells {chars rest : List Char} {code : Nat} (read : readHex chars = .ok (code, rest)) :
    ∃ digits, chars = digits ++ rest ∧ SpellsCode digits code := by
  unfold readHex at read
  split at read
  · rename_i first second third fourth rest'
    split at read
    · rename_i a b c d one two three last
      cases read
      exact ⟨[first, second, third, fourth], rfl, .four one two three last⟩
    · cases read
  · cases read

theorem SpellsCode.read {digits : List Char} {code : Nat} (written : SpellsCode digits code)
    (rest : List Char) : readHex (digits ++ rest) = .ok (code, rest) := by
  cases written with
  | four one two three last =>
    simp only [List.cons_append, List.nil_append, readHex, one, two, three, last]

theorem expectInPair_eq {expected : Char} {chars rest : List Char}
    (read : expectInPair expected chars = .ok rest) : chars = expected :: rest := by
  unfold expectInPair at read
  split at read
  · cases read
  · split at read
    · rename_i same
      cases read
      rw [same]
    · cases read

theorem simpleEscape?_spells {letter meant : Char} (listed : simpleEscape? letter = some meant) :
    SpellsChar ['\\', letter] meant := by
  unfold simpleEscape? at listed
  split at listed
  · rename_i same
    cases listed
    rcases same with rfl | rfl | rfl
    · exact .letter (by decide)
    · exact .letter (by decide)
    · exact .slash
  · repeat' split at listed
    all_goals cases listed
    all_goals
      subst letter
      exact .letter (by decide)

theorem ok_of_bind {Error Content Other : Type} {first : Except Error Content}
    {next : Content → Except Error Other} {result : Other} (read : first >>= next = .ok result) :
    ∃ content, first = .ok content ∧ next content = .ok result := by
  cases first with
  | error => cases read
  | ok content => exact ⟨content, rfl, read⟩

theorem readCodeEscape_spells {chars rest : List Char} {char : Char}
    (read : readCodeEscape chars = .ok (char, rest)) :
    ∃ text, '\\' :: 'u' :: chars = text ++ rest ∧ SpellsChar text char := by
  obtain ⟨⟨code, afterCode⟩, codeRead, single⟩ := ok_of_bind read
  obtain ⟨digits, rfl, written⟩ := readHex_spells codeRead
  simp only at single
  split at single
  · cases single
  · rename_i notLow
    split at single
    · rename_i isHigh
      obtain ⟨_, backslashRead, marked⟩ := ok_of_bind single
      obtain ⟨_, markRead, second⟩ := ok_of_bind marked
      obtain ⟨⟨low, afterLow⟩, lowRead, joined⟩ := ok_of_bind second
      obtain rfl := expectInPair_eq backslashRead
      obtain rfl := expectInPair_eq markRead
      obtain ⟨digits', rfl, written'⟩ := readHex_spells lowRead
      simp only at joined
      split at joined
      · rename_i isLow
        rw [Except.ok.injEq, Prod.mk.injEq] at joined
        obtain ⟨rfl, rfl⟩ := joined
        exact ⟨_, by simp, .pair written isHigh written' isLow⟩
      · cases joined
    · rename_i notHigh
      cases single
      exact ⟨_, rfl, .code written (Bool.eq_false_iff.mpr notHigh) (Bool.eq_false_iff.mpr notLow)⟩

theorem readEscape_spells {chars rest : List Char} {char : Char}
    (read : readEscape chars = .ok (char, rest)) :
    ∃ text, '\\' :: chars = text ++ rest ∧ SpellsChar text char := by
  unfold readEscape at read
  split at read
  · cases read
  · rename_i letter tail
    split at read
    · rename_i mark
      subst mark
      exact readCodeEscape_spells read
    · split at read
      · rename_i meant listed
        cases read
        exact ⟨['\\', letter], rfl, simpleEscape?_spells listed⟩
      · cases read

theorem readStringFrom_spells {done chars text rest : List Char}
    (read : readStringFrom done chars = .ok (text, rest)) :
    ∃ body meant, chars = body ++ '"' :: rest ∧ SpellsBody body meant ∧ text = done.reverse ++ meant := by
  fun_induction readStringFrom done chars with
  | case1 => cases read
  | case2 =>
    cases read
    exact ⟨[], [], rfl, .nil, by simp⟩
  | case3 done tail char afterEscape escapeRead _ _ ih =>
    obtain ⟨escape, cut, spelled⟩ := readEscape_spells escapeRead
    obtain ⟨body, meant, rfl, later, rfl⟩ := ih read
    refine ⟨escape ++ body, char :: meant, ?_, .cons spelled later, by simp⟩
    rw [cut, List.append_assoc]
  | case4 => cases read
  | case5 => cases read
  | case6 done char tail quote backslash printed ih =>
    obtain ⟨body, meant, rfl, later, rfl⟩ := ih read
    exact ⟨char :: body, char :: meant, rfl, .cons (.plain quote backslash (Nat.le_of_not_lt printed)) later,
      by simp⟩

theorem isLowSurrogate_of_high {code : Nat} (high : isHighSurrogate code = true) :
    isLowSurrogate code = false := by
  simp only [isHighSurrogate, isLowSurrogate, decide_eq_true_eq, decide_eq_false_iff_not] at *
  omega

theorem SpellsChar.read {text : List Char} {char : Char} (spelled : SpellsChar text char)
    (done rest : List Char) : readStringFrom done (text ++ rest) = readStringFrom (char :: done) rest := by
  cases spelled with
  | plain quote backslash printed =>
    rw [List.singleton_append, readStringFrom, if_neg quote, if_neg backslash,
      if_neg (Nat.not_lt.mpr printed)]
  | letter listed =>
    obtain ⟨_, other, meant⟩ := escapedChar_letter listed
    apply readStringFrom_escape
    simp [readEscape, other, meant]
  | slash => exact readStringFrom_escape done rfl
  | code written notHigh notLow =>
    apply readStringFrom_escape
    simp [readEscape, readCodeEscape, written.read, bind, Except.bind, notHigh, notLow]
  | pair written isHigh written' isLow =>
    have notLow := isLowSurrogate_of_high isHigh
    apply readStringFrom_escape
    simp [readEscape, readCodeEscape, written.read, written'.read, bind, Except.bind, isHigh, isLow,
      notLow, expectInPair]

theorem SpellsBody.read {body meant : List Char} (spelled : SpellsBody body meant)
    (done rest : List Char) :
    readStringFrom done (body ++ '"' :: rest) = .ok (done.reverse ++ meant, rest) := by
  induction spelled generalizing done with
  | nil =>
    rw [List.nil_append, readStringFrom, List.append_nil]
    simp
  | cons first later ih =>
    rw [List.append_assoc, first.read, ih, List.reverse_cons, List.append_assoc,
      List.singleton_append]

theorem readString_spells {chars rest : List Char} {value : String}
    (read : readString chars = .ok (value, rest)) :
    ∃ text, '"' :: chars = text ++ rest ∧ SpellsString text value := by
  unfold readString at read
  cases result : readStringFrom [] chars with
  | error => simp [result, Except.map] at read
  | ok parts =>
    obtain ⟨text, unread⟩ := parts
    rw [result] at read
    cases read
    obtain ⟨body, meant, rfl, spelled, rfl⟩ := readStringFrom_spells result
    refine ⟨'"' :: (body ++ ['"']), by simp, body, rfl, ?_⟩
    simpa using spelled

theorem SpellsString.read {text : List Char} {value : String} (spelled : SpellsString text value)
    (rest : List Char) : ∃ chars, text ++ rest = '"' :: chars ∧ readString chars = .ok (value, rest) := by
  obtain ⟨body, rfl, inside⟩ := spelled
  refine ⟨body ++ '"' :: rest, by simp, ?_⟩
  rw [readString, inside.read, Except.map]
  simp

def IsDigits (digits : List Char) : Prop :=
  digits ≠ [] ∧ ∀ digit ∈ digits, digit.isDigit = true

def IsWhole (digits : List Char) : Prop :=
  digits = ['0'] ∨ (IsDigits digits ∧ digits.head? ≠ some '0')

inductive SpellsFraction : List Char → Option (List Char) → Prop where
  | absent : SpellsFraction [] none
  | point {digits : List Char} (proper : IsDigits digits) : SpellsFraction ('.' :: digits) (some digits)

inductive SpellsSign : List Char → Bool → Prop where
  | absent : SpellsSign [] false
  | plus : SpellsSign ['+'] false
  | minus : SpellsSign ['-'] true

inductive SpellsExponent : List Char → Option (Bool × List Char) → Prop where
  | absent : SpellsExponent [] none
  | marked {mark : Char} {sign digits : List Char} {negative : Bool} (marks : mark = 'e' ∨ mark = 'E')
      (signed : SpellsSign sign negative) (proper : IsDigits digits) :
      SpellsExponent (mark :: (sign ++ digits)) (some (negative, digits))

/-- A number without its minus sign. Its value has to be in range. -/
inductive SpellsMagnitude (negative : Bool) : List Char → Number → Prop where
  | parts {whole fractionText exponentText : List Char} {fraction : Option (List Char)}
      {exponent : Option (Bool × List Char)} {number : Number} (proper : IsWhole whole)
      (point : SpellsFraction fractionText fraction) (marked : SpellsExponent exponentText exponent)
      (valued : (Numeral.mk negative whole fraction exponent).number = .ok number) :
      SpellsMagnitude negative (whole ++ (fractionText ++ exponentText)) number

inductive SpellsNumber : List Char → Number → Prop where
  | positive {text : List Char} {number : Number} (magnitude : SpellsMagnitude false text number) :
      SpellsNumber text number
  | negative {text : List Char} {number : Number} (magnitude : SpellsMagnitude true text number) :
      SpellsNumber ('-' :: text) number

/-- No numeral goes on here. -/
def Unnumbered (rest : List Char) : Prop :=
  startsWithDigit rest = false ∧ ∀ mark ∈ ['.', 'e', 'E'], rest.head? ≠ some mark

theorem IsDigits.starts {digits : List Char} (proper : IsDigits digits) (rest : List Char) :
    ∃ digit others, digits ++ rest = digit :: others ∧ digit.isDigit = true := by
  cases digits with
  | nil => exact absurd rfl proper.1
  | cons digit digits => exact ⟨digit, digits ++ rest, rfl, proper.2 digit List.mem_cons_self⟩

theorem readDigits_spells {chars digits rest : List Char} (read : readDigits chars = .ok (digits, rest)) :
    chars = digits ++ rest ∧ IsDigits digits := by
  unfold readDigits at read
  split at read
  · cases read
  · rename_i char tail
    split at read
    · rename_i isDigit
      cases read
      refine ⟨List.takeWhile_append_dropWhile.symm, ?_, fun digit inside => ?_⟩
      · rw [List.takeWhile_cons_of_pos isDigit]
        exact List.cons_ne_nil char _
      · exact List.all_eq_true.mp List.all_takeWhile digit inside
    · cases read

theorem IsDigits.read {digits rest : List Char} (proper : IsDigits digits)
    (stops : startsWithDigit rest = false) : readDigits (digits ++ rest) = .ok (digits, rest) := by
  obtain ⟨digit, others, starts, isDigit⟩ := proper.starts rest
  have cut : digitsOf (digits ++ rest) = (digits, rest) := by
    rw [digitsOf, List.takeWhile_append_of_pos proper.2, List.dropWhile_append_of_pos proper.2]
    cases rest with
    | nil => simp
    | cons char rest =>
      rw [startsWithDigit] at stops
      simp [stops]
  rw [starts] at cut
  rw [starts, readDigits, if_pos isDigit, cut]

theorem readWhole_spells {chars digits rest : List Char} (read : readWhole chars = .ok (digits, rest)) :
    chars = digits ++ rest ∧ IsWhole digits := by
  unfold readWhole at read
  split at read
  · split at read
    · cases read
    · cases read
      exact ⟨rfl, .inl rfl⟩
  · rename_i other
    obtain ⟨rfl, proper⟩ := readDigits_spells read
    refine ⟨rfl, .inr ⟨proper, fun zero => ?_⟩⟩
    obtain ⟨tail, rfl⟩ := List.head?_eq_some_iff.mp zero
    exact other _ rfl

theorem IsWhole.read {digits rest : List Char} (proper : IsWhole digits)
    (stops : startsWithDigit rest = false) : readWhole (digits ++ rest) = .ok (digits, rest) := by
  rcases proper with rfl | ⟨proper, other⟩
  · simp [readWhole, stops]
  · rw [← proper.read stops]
    obtain ⟨digit, digits, rfl⟩ := List.exists_cons_of_ne_nil proper.1
    unfold readWhole
    split
    · rename_i same
      cases same
      exact absurd rfl other
    · rfl

theorem readFraction_spells {chars rest : List Char} {fraction : Option (List Char)}
    (read : readFraction chars = .ok (fraction, rest)) :
    ∃ text, chars = text ++ rest ∧ SpellsFraction text fraction := by
  unfold readFraction at read
  split at read
  · obtain ⟨digits, digitsRead, rfl⟩ := Json.ok_of_map read
    obtain ⟨rfl, proper⟩ := readDigits_spells digitsRead
    exact ⟨'.' :: digits, rfl, .point proper⟩
  · cases read
    exact ⟨[], rfl, .absent⟩

theorem SpellsFraction.read {text rest : List Char} {fraction : Option (List Char)}
    (spelled : SpellsFraction text fraction) (stops : startsWithDigit rest = false)
    (pointless : rest.head? ≠ some '.') : readFraction (text ++ rest) = .ok (fraction, rest) := by
  cases spelled with
  | absent =>
    rw [List.nil_append]
    unfold readFraction
    split
    · exact absurd rfl pointless
    · rfl
  | point proper =>
    rw [List.cons_append, readFraction, proper.read stops]
    rfl

theorem readSign_spells (chars : List Char) :
    ∃ text, chars = text ++ (readSign chars).2 ∧ SpellsSign text (readSign chars).1 := by
  unfold readSign
  split
  · exact ⟨['-'], rfl, .minus⟩
  · exact ⟨['+'], rfl, .plus⟩
  · exact ⟨[], rfl, .absent⟩

theorem SpellsSign.read {text digits : List Char} {negative : Bool} (signed : SpellsSign text negative)
    (proper : IsDigits digits) (rest : List Char) :
    readSign (text ++ (digits ++ rest)) = (negative, digits ++ rest) := by
  cases signed with
  | absent =>
    obtain ⟨digit, others, starts, isDigit⟩ := proper.starts rest
    rw [List.nil_append, starts]
    unfold readSign
    split
    · rename_i same
      cases same
      cases isDigit
    · rename_i same
      cases same
      cases isDigit
    · rfl
  | plus => rfl
  | minus => rfl

theorem readExponent_spells {chars rest : List Char} {exponent : Option (Bool × List Char)}
    (read : readExponent chars = .ok (exponent, rest)) :
    ∃ text, chars = text ++ rest ∧ SpellsExponent text exponent := by
  have marked (mark : Char) (marks : mark = 'e' ∨ mark = 'E') (tail : List Char)
      (digitsRead : ((readDigits (readSign tail).2).map fun read =>
        (some ((readSign tail).1, read.1), read.2)) = .ok (exponent, rest)) :
      ∃ text, mark :: tail = text ++ rest ∧ SpellsExponent text exponent := by
    obtain ⟨digits, unsigned, rfl⟩ : ∃ digits, readDigits (readSign tail).2 = .ok (digits, rest) ∧
        exponent = some ((readSign tail).1, digits) := Json.ok_of_map digitsRead
    obtain ⟨sign, cut, signed⟩ := readSign_spells tail
    obtain ⟨unsigned, proper⟩ := readDigits_spells unsigned
    refine ⟨mark :: (sign ++ digits), ?_, .marked marks signed proper⟩
    rw [cut, unsigned, List.cons_append, List.append_assoc]
  unfold readExponent at read
  split at read
  · exact marked 'e' (.inl rfl) _ read
  · exact marked 'E' (.inr rfl) _ read
  · cases read
    exact ⟨[], rfl, .absent⟩

theorem SpellsExponent.read {text rest : List Char} {exponent : Option (Bool × List Char)}
    (spelled : SpellsExponent text exponent) (ends : Unnumbered rest) :
    readExponent (text ++ rest) = .ok (exponent, rest) := by
  cases spelled with
  | absent =>
    rw [List.nil_append]
    unfold readExponent
    split
    · exact absurd rfl (ends.2 'e' (by decide))
    · exact absurd rfl (ends.2 'E' (by decide))
    · rfl
  | marked marks signed proper =>
    rw [List.cons_append, List.append_assoc]
    rcases marks with rfl | rfl <;>
      simp only [readExponent, signed.read proper, proper.read ends.1, Except.map]

theorem SpellsExponent.stops {text rest : List Char} {exponent : Option (Bool × List Char)}
    (spelled : SpellsExponent text exponent) (ends : Unnumbered rest) :
    startsWithDigit (text ++ rest) = false ∧ (text ++ rest).head? ≠ some '.' := by
  cases spelled with
  | absent => exact ⟨ends.1, ends.2 '.' (by decide)⟩
  | marked marks signed proper => rcases marks with rfl | rfl <;> exact ⟨rfl, by simp⟩

theorem SpellsFraction.stops {text rest : List Char} {fraction : Option (List Char)}
    (spelled : SpellsFraction text fraction) (stops : startsWithDigit rest = false) :
    startsWithDigit (text ++ rest) = false := by
  cases spelled with
  | absent => exact stops
  | point proper => rfl

theorem readMagnitude_spells {negative : Bool} {chars rest : List Char} {number : Number}
    (read : readMagnitude negative chars = .ok (number, rest)) :
    ∃ text, chars = text ++ rest ∧ SpellsMagnitude negative text number := by
  obtain ⟨⟨whole, _⟩, wholeRead, later⟩ := ok_of_bind read
  obtain ⟨⟨fraction, _⟩, fractionRead, last⟩ := ok_of_bind later
  obtain ⟨⟨exponent, _⟩, exponentRead, value⟩ := ok_of_bind last
  obtain ⟨rfl, proper⟩ := readWhole_spells wholeRead
  obtain ⟨fractionText, rfl, point⟩ := readFraction_spells fractionRead
  obtain ⟨exponentText, rfl, marked⟩ := readExponent_spells exponentRead
  simp only at value
  split at value
  · rename_i valued
    cases value
    exact ⟨_, by simp, .parts proper point marked valued⟩
  · cases value

theorem SpellsMagnitude.read {negative : Bool} {text rest : List Char} {number : Number}
    (spelled : SpellsMagnitude negative text number) (ends : Unnumbered rest) :
    readMagnitude negative (text ++ rest) = .ok (number, rest) := by
  cases spelled with
  | parts proper point marked valued =>
    obtain ⟨stops, pointless⟩ := marked.stops ends
    simp only [List.append_assoc, readMagnitude, proper.read (point.stops stops),
      point.read stops pointless, marked.read ends, valued, bind, Except.bind]

theorem IsWhole.starts {digits : List Char} (proper : IsWhole digits) (rest : List Char) :
    ∃ digit others, digits ++ rest = digit :: others ∧ digit.isDigit = true := by
  rcases proper with rfl | ⟨proper, _⟩
  · exact ⟨'0', rest, rfl, rfl⟩
  · exact proper.starts rest

theorem SpellsMagnitude.starts {negative : Bool} {text : List Char} {number : Number}
    (spelled : SpellsMagnitude negative text number) :
    ∃ digit others, text = digit :: others ∧ digit.isDigit = true := by
  cases spelled with
  | parts proper => exact proper.starts _

end SchemaTypes
