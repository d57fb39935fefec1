import SchemaTypes.Json.Value
import SchemaTypes.Split

namespace SchemaTypes

abbrev Pointer := List String

def escapeToken (token : List Char) : List Char :=
  token.flatMap fun char =>
    if char = '~' then ['~', '0'] else if char = '/' then ['~', '1'] else [char]

def unescapeToken : List Char → List Char
  | '~' :: '1' :: chars => '/' :: unescapeToken chars
  | '~' :: '0' :: chars => '~' :: unescapeToken chars
  | char :: chars => char :: unescapeToken chars
  | [] => []

theorem unescapeToken_cons {char : Char} (plain : char ≠ '~') (chars : List Char) :
    unescapeToken (char :: chars) = char :: unescapeToken chars := by
  rw [unescapeToken.eq_def]
  split <;> simp_all

theorem unescapeToken_escapeToken (token : List Char) : unescapeToken (escapeToken token) = token := by
  induction token with
  | nil => rfl
  | cons char chars ih =>
    rw [escapeToken, List.flatMap_cons, ← escapeToken]
    split
    · simp_all [unescapeToken]
    · split <;> simp_all [unescapeToken, unescapeToken_cons]

/-- An index has digits only, and no zero before others. -/
def elementIndex? (token : String) : Option Nat :=
  let digits := token.toList
  if digits = [] ∨ digits.any (fun char => !char.isDigit) then none
  else if digits.head? = some '0' ∧ digits.length ≠ 1 then none
  else some (digits.foldl (fun index digit => index * 10 + (digit.toNat - 48)) 0)

namespace Pointer

def chars (pointer : Pointer) : List Char :=
  pointer.flatMap fun token => '/' :: escapeToken token.toList

def text (pointer : Pointer) : String :=
  String.ofList ('#' :: pointer.chars)

def ofText? (text : String) : Option Pointer :=
  match text.toList with
  | [] => some []
  | '/' :: chars => some ((splitChars '/' chars).map fun token => String.ofList (unescapeToken token))
  | _ => none

end Pointer

namespace Json

def part? (token : String) : Json → Option Json
  | object members => members.lookup token
  | array elements => (elementIndex? token).bind (elements[·]?)
  | _ => none

def select? : Pointer → Json → Option Json
  | [], value => some value
  | token :: pointer, value => (value.part? token).bind (select? pointer)

theorem select?_append (first second : Pointer) (value : Json) :
    value.select? (first ++ second) = (value.select? first).bind (select? second) := by
  induction first generalizing value with
  | nil => rfl
  | cons token first ih =>
    simp only [List.cons_append, select?, Option.bind_assoc]
    exact congrArg _ (funext ih)

end Json

end SchemaTypes
