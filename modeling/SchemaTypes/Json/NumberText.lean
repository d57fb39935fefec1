import SchemaTypes.Json.Number
import SchemaTypes.Json.ReadError

namespace SchemaTypes

structure Numeral where
  negative : Bool
  whole : List Char
  fraction : Option (List Char)
  exponent : Option (Bool × List Char)
  deriving DecidableEq, Repr

def digitValue (digit : Char) : Nat :=
  digit.toNat - 48

/-- Joins digits to a significand while it stays below `2 ^ 64`, and counts those that joined. -/
def joinDigits (significand : Nat) : List Char → Nat × Nat
  | [] => (significand, 0)
  | digit :: digits =>
    let next := significand * 10 + digitValue digit
    if next < powerOfTwo 64 then
      let joined := joinDigits next digits
      (joined.1, joined.2 + 1)
    else (significand, 0)

def largestExponent : Nat := 2147483647

def digitsToExceed (value : Nat) : List Char → Option Nat
  | [] => none
  | digit :: digits =>
    let next := value * 10 + digitValue digit
    if largestExponent < next then some 1
    else (digitsToExceed next digits).map (· + 1)

def decimalValue (digits : List Char) : Nat :=
  digits.foldl (fun value digit => value * 10 + digitValue digit) 0

namespace Numeral

def significand (numeral : Numeral) : Nat × Int :=
  let whole := joinDigits 0 numeral.whole
  let fraction := joinDigits whole.1 (numeral.fraction.getD [])
  (fraction.1, ((numeral.whole.length - whole.2 : Nat) : Int) - fraction.2)

def isInteger (numeral : Numeral) : Bool :=
  numeral.fraction.isNone && numeral.exponent.isNone && decide (numeral.significand.2 = 0)

def integerNumber (negative : Bool) (magnitude : Nat) : Option Number :=
  if negative = false then some (.integer magnitude)
  else if 0 < magnitude ∧ magnitude ≤ powerOfTwo 63 then some (.integer (-magnitude))
  else (Double.ofDecimal? true magnitude 0).map .double

/-- The number, or how many of the exponent's digits were read when it proved too large. -/
def number (numeral : Numeral) : Except Nat Number :=
  let (significand, power) := numeral.significand
  let scaled (shift : Int) (read : Nat) :=
    match Double.ofDecimal? numeral.negative significand (power + shift) with
    | some value => .ok (.double value)
    | none => .error read
  match numeral.exponent with
  | none =>
    if numeral.isInteger then
      match integerNumber numeral.negative significand with
      | some number => .ok number
      | none => .error 0
    else scaled 0 0
  | some (negative, digits) =>
    match digitsToExceed 0 digits with
    | none => scaled (if negative then -(decimalValue digits : Int) else decimalValue digits) digits.length
    | some read =>
      if significand ≠ 0 ∧ negative = false then .error read
      else .ok (.double (Double.zero numeral.negative))

end Numeral

def startsWithDigit : List Char → Bool
  | [] => false
  | char :: _ => char.isDigit

def digitsOf (chars : List Char) : List Char × List Char :=
  (chars.takeWhile Char.isDigit, chars.dropWhile Char.isDigit)

def readDigits (chars : List Char) : Except ReadError (List Char × List Char) :=
  match chars with
  | [] => .error (.here .unfinishedValue [])
  | char :: _ =>
    if char.isDigit then .ok (digitsOf chars) else .error (.past .invalidNumber chars)

def readWhole (chars : List Char) : Except ReadError (List Char × List Char) :=
  match chars with
  | '0' :: rest =>
    if startsWithDigit rest then .error (.past .invalidNumber rest) else .ok (['0'], rest)
  | _ => readDigits chars

def readFraction (chars : List Char) : Except ReadError (Option (List Char) × List Char) :=
  match chars with
  | '.' :: rest => (readDigits rest).map fun read => (some read.1, read.2)
  | _ => .ok (none, chars)

def readSign (chars : List Char) : Bool × List Char :=
  match chars with
  | '-' :: rest => (true, rest)
  | '+' :: rest => (false, rest)
  | _ => (false, chars)

def readExponent (chars : List Char) : Except ReadError (Option (Bool × List Char) × List Char) :=
  let afterMark rest :=
    let signed := readSign rest
    (readDigits signed.2).map fun read => (some (signed.1, read.1), read.2)
  match chars with
  | 'e' :: rest => afterMark rest
  | 'E' :: rest => afterMark rest
  | _ => .ok (none, chars)

def readMagnitude (negative : Bool) (chars : List Char) : Except ReadError (Number × List Char) := do
  let (whole, afterWhole) ← readWhole chars
  let (fraction, afterFraction) ← readFraction afterWhole
  let (exponent, rest) ← readExponent afterFraction
  match (Numeral.mk negative whole fraction exponent).number with
  | .ok number => .ok (number, rest)
  | .error read =>
    let digits := (exponent.map (·.2)).getD []
    .error (.here .numberOutOfRange (digits.drop read ++ rest))

theorem length_dropWhile_le (keep : Char → Bool) (chars : List Char) :
    (chars.dropWhile keep).length ≤ chars.length :=
  (List.dropWhile_sublist keep).length_le

theorem readDigits_shrinks {chars digits rest : List Char}
    (read : readDigits chars = .ok (digits, rest)) : rest.length < chars.length := by
  unfold readDigits at read
  split at read
  · cases read
  · rename_i char tail
    split at read
    · rename_i isDigit
      simp only [digitsOf, Except.ok.injEq, Prod.mk.injEq] at read
      obtain ⟨_, rfl⟩ := read
      have le := length_dropWhile_le Char.isDigit tail
      simp only [List.dropWhile, isDigit, List.length_cons]
      omega
    · cases read

theorem readWhole_shrinks {chars digits rest : List Char}
    (read : readWhole chars = .ok (digits, rest)) : rest.length < chars.length := by
  unfold readWhole at read
  split at read
  · split at read
    · cases read
    · cases read
      simp
  · exact readDigits_shrinks read

theorem readFraction_grows_not {chars rest : List Char} {digits : Option (List Char)}
    (read : readFraction chars = .ok (digits, rest)) : rest.length ≤ chars.length := by
  unfold readFraction at read
  split at read
  · rename_i tail
    cases digitsRead : readDigits tail with
    | error => simp [digitsRead, Except.map] at read
    | ok result =>
      obtain ⟨found, unread⟩ := result
      simp only [digitsRead, Except.map, Except.ok.injEq, Prod.mk.injEq] at read
      have shorter := readDigits_shrinks digitsRead
      simp only [List.length_cons, ← read.2]
      omega
  · cases read
    exact Nat.le_refl _

theorem readSign_grows_not (chars : List Char) : (readSign chars).2.length ≤ chars.length := by
  unfold readSign
  split <;> simp

theorem readExponent_grows_not {chars rest : List Char} {exponent : Option (Bool × List Char)}
    (read : readExponent chars = .ok (exponent, rest)) : rest.length ≤ chars.length := by
  have marked (tail : List Char)
      (digitsRead : ((readDigits (readSign tail).2).map fun read =>
        (some ((readSign tail).1, read.1), read.2)) = .ok (exponent, rest)) :
      rest.length ≤ tail.length + 1 := by
    cases result : readDigits (readSign tail).2 with
    | error => simp [result, Except.map] at digitsRead
    | ok digits =>
      obtain ⟨found, unread⟩ := digits
      simp only [result, Except.map, Except.ok.injEq, Prod.mk.injEq] at digitsRead
      have shorter := readDigits_shrinks result
      have signed := readSign_grows_not tail
      rw [← digitsRead.2]
      omega
  unfold readExponent at read
  split at read
  · exact marked _ read
  · exact marked _ read
  · cases read
    exact Nat.le_refl _

theorem readMagnitude_shrinks {negative : Bool} {chars rest : List Char} {number : Number}
    (read : readMagnitude negative chars = .ok (number, rest)) : rest.length < chars.length := by
  unfold readMagnitude at read
  cases wholeRead : readWhole chars with
  | error => simp [wholeRead, bind, Except.bind] at read
  | ok whole =>
    obtain ⟨whole, afterWhole⟩ := whole
    cases fractionRead : readFraction afterWhole with
    | error => simp [wholeRead, fractionRead, bind, Except.bind] at read
    | ok fraction =>
      obtain ⟨fraction, afterFraction⟩ := fraction
      cases exponentRead : readExponent afterFraction with
      | error => simp [wholeRead, fractionRead, exponentRead, bind, Except.bind] at read
      | ok exponent =>
        obtain ⟨exponent, unread⟩ := exponent
        have first := readWhole_shrinks wholeRead
        have second := readFraction_grows_not fractionRead
        have third := readExponent_grows_not exponentRead
        simp only [wholeRead, fractionRead, exponentRead, bind, Except.bind] at read
        split at read
        · cases read
          omega
        · cases read

end SchemaTypes
