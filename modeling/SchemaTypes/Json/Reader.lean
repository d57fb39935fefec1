import SchemaTypes.Json.Value
import SchemaTypes.Json.Written
import SchemaTypes.Json.NumberText
import SchemaTypes.Json.StringText

/-!
Reading one JSON value from the front of a text. Each reader comes with the fact that it shortens
the text, so lists of any length are read without a bound; the depth of nesting is bounded instead.
-/

namespace SchemaTypes

abbrev Reads (α : Type) := List Char → Except ReadError (α × List Char)

structure Reader (α : Type) where
  read : Reads α
  shrinks : ∀ {chars rest : List Char} {value : α},
    read chars = .ok (value, rest) → rest.length < chars.length

def Reader.map {α β : Type} (change : α → β) (reader : Reader α) : Reader β where
  read chars := (reader.read chars).map fun read => (change read.1, read.2)
  shrinks := by
    intro chars rest value read
    cases result : reader.read chars with
    | error => simp [result, Except.map] at read
    | ok found =>
      obtain ⟨inner, unread⟩ := found
      simp only [result, Except.map, Except.ok.injEq, Prod.mk.injEq] at read
      rw [← read.2]
      exact reader.shrinks result

def isBlank (char : Char) : Bool :=
  char = ' ' || char = '\t' || char = '\n' || char = '\r'

def skipBlanks (chars : List Char) : List Char :=
  chars.dropWhile isBlank

theorem skipBlanks_length_le (chars : List Char) : (skipBlanks chars).length ≤ chars.length :=
  length_dropWhile_le isBlank chars

def afterElement (chars : List Char) : Except ReadError (Option (List Char) × List Char) :=
  match skipBlanks chars with
  | [] => .error (.here .unfinishedList [])
  | ']' :: rest => .ok (none, rest)
  | ',' :: rest =>
    match skipBlanks rest with
    | [] => .error (.here .unfinishedValue [])
    | ']' :: rest => .error (.past .trailingComma (']' :: rest))
    | next => .ok (some next, next)
  | unread => .error (.past .expectedListEnd unread)

theorem afterElement_shrinks {chars rest : List Char} {next : Option (List Char)}
    (read : afterElement chars = .ok (next, rest)) : rest.length < chars.length := by
  have skipped := skipBlanks_length_le chars
  unfold afterElement at read
  split at read
  · cases read
  · rename_i tail found
    cases read
    simp only [found, List.length_cons] at skipped
    omega
  · rename_i tail found
    have again := skipBlanks_length_le tail
    simp only [found, List.length_cons] at skipped
    split at read
    · cases read
    · cases read
    · cases read
      omega
  · cases read

def readElements {α : Type} (item : Reader α) (index : Nat) (chars : List Char) :
    Except ReadError (List α × List Char) :=
  match itemRead : item.read chars with
  | .error error => .error (error.within (.element index))
  | .ok (value, rest) =>
    match nextRead : afterElement rest with
    | .error error => .error error
    | .ok (none, rest) => .ok ([value], rest)
    | .ok (some _, next) =>
      have := item.shrinks itemRead
      have := afterElement_shrinks nextRead
      match readElements item (index + 1) next with
      | .error error => .error error
      | .ok (values, rest) => .ok (value :: values, rest)
termination_by chars.length
decreasing_by omega

theorem readElements_shrinks {α : Type} (item : Reader α) {index : Nat} {chars rest : List Char}
    {values : List α} (read : readElements item index chars = .ok (values, rest)) :
    rest.length < chars.length := by
  fun_induction readElements item index chars generalizing values rest with
  | case1 => cases read
  | case2 => cases read
  | case3 index chars value tail itemRead rest' nextRead =>
    cases read
    have first := item.shrinks itemRead
    have second := afterElement_shrinks nextRead
    omega
  | case4 => cases read
  | case5 index chars value tail itemRead _ next nextRead _ _ values' rest' _ ih =>
    cases read
    have first := item.shrinks itemRead
    have second := afterElement_shrinks nextRead
    have third := ih ‹_›
    omega

def readList {α : Type} (item : Reader α) (chars : List Char) :
    Except ReadError (List α × List Char) :=
  match skipBlanks chars with
  | [] => .error (.here .unfinishedList [])
  | ']' :: rest => .ok ([], rest)
  | unread => readElements item 0 unread

theorem readList_shrinks {α : Type} (item : Reader α) {chars rest : List Char} {values : List α}
    (read : readList item chars = .ok (values, rest)) : rest.length < chars.length := by
  have skipped := skipBlanks_length_le chars
  unfold readList at read
  split at read
  · cases read
  · rename_i tail found
    cases read
    simp only [found, List.length_cons] at skipped
    omega
  · have shorter := readElements_shrinks item read
    omega

/-- A member's key, after which its colon is skipped. The text starts with the key's quote. -/
def readKey (chars : List Char) : Except ReadError (String × List Char) :=
  match chars with
  | '"' :: rest =>
    match readString rest with
    | .error error => .error (error.within (.member none))
    | .ok (key, rest) =>
      match skipBlanks rest with
      | [] => .error (.here .unfinishedObject [])
      | ':' :: rest => .ok (key, rest)
      | unread => .error (.past .expectedColon unread)
  | unread => .error ((ReadError.past .expectedKey unread).within (.member none))

theorem readKey_shrinks {chars rest : List Char} {key : String}
    (read : readKey chars = .ok (key, rest)) : rest.length < chars.length := by
  unfold readKey at read
  split at read
  · rename_i tail
    split at read
    · cases read
    · rename_i found afterKey keyRead
      have first := readString_shrinks keyRead
      have skipped := skipBlanks_length_le afterKey
      split at read
      · cases read
      · rename_i afterColon colon
        cases read
        simp only [colon, List.length_cons] at skipped
        simp only [List.length_cons]
        omega
      · cases read
  · cases read

def afterMember (chars : List Char) : Except ReadError (Option (List Char) × List Char) :=
  let refused error : Except ReadError (Option (List Char) × List Char) :=
    .error (ReadError.within (.member none) error)
  match skipBlanks chars with
  | [] => refused (.here .unfinishedObject [])
  | '}' :: rest => .ok (none, rest)
  | ',' :: rest =>
    match skipBlanks rest with
    | [] => refused (.here .unfinishedValue [])
    | '}' :: rest => refused (.past .trailingComma ('}' :: rest))
    | next => .ok (some next, next)
  | unread => refused (.past .expectedObjectEnd unread)

theorem afterMember_shrinks {chars rest : List Char} {next : Option (List Char)}
    (read : afterMember chars = .ok (next, rest)) : rest.length < chars.length := by
  have skipped := skipBlanks_length_le chars
  unfold afterMember at read
  simp only at read
  split at read
  · cases read
  · rename_i tail found
    cases read
    simp only [found, List.length_cons] at skipped
    omega
  · rename_i tail found
    have again := skipBlanks_length_le tail
    simp only [found, List.length_cons] at skipped
    split at read
    · cases read
    · cases read
    · cases read
      omega
  · cases read

def readMembers {α : Type} (item : String → Reader α) (chars : List Char) :
    Except ReadError (List (String × α) × List Char) :=
  match keyRead : readKey chars with
  | .error error => .error error
  | .ok (key, afterKey) =>
    match itemRead : (item key).read afterKey with
    | .error error => .error (error.within (.member (some key)))
    | .ok (value, rest) =>
      match nextRead : afterMember rest with
      | .error error => .error error
      | .ok (none, rest) => .ok ([(key, value)], rest)
      | .ok (some _, next) =>
        have := readKey_shrinks keyRead
        have := (item key).shrinks itemRead
        have := afterMember_shrinks nextRead
        match readMembers item next with
        | .error error => .error error
        | .ok (members, rest) => .ok ((key, value) :: members, rest)
termination_by chars.length
decreasing_by omega

theorem readMembers_shrinks {α : Type} (item : String → Reader α) {chars rest : List Char}
    {members : List (String × α)} (read : readMembers item chars = .ok (members, rest)) :
    rest.length < chars.length := by
  fun_induction readMembers item chars generalizing members rest with
  | case1 => cases read
  | case2 => cases read
  | case3 => cases read
  | case4 chars key afterKey keyRead value tail itemRead rest' nextRead =>
    cases read
    have first := readKey_shrinks keyRead
    have second := (item key).shrinks itemRead
    have third := afterMember_shrinks nextRead
    omega
  | case5 => cases read
  | case6 chars key afterKey keyRead value tail itemRead _ next nextRead _ _ _ members' rest' _ ih =>
    cases read
    have first := readKey_shrinks keyRead
    have second := (item key).shrinks itemRead
    have third := afterMember_shrinks nextRead
    have fourth := ih ‹_›
    omega

def readTable {α : Type} (item : String → Reader α) (chars : List Char) :
    Except ReadError (List (String × α) × List Char) :=
  match skipBlanks chars with
  | [] => .error ((ReadError.here .unfinishedObject []).within (.member none))
  | '}' :: rest => .ok ([], rest)
  | unread => readMembers item unread

theorem readTable_shrinks {α : Type} (item : String → Reader α) {chars rest : List Char}
    {members : List (String × α)} (read : readTable item chars = .ok (members, rest)) :
    rest.length < chars.length := by
  have skipped := skipBlanks_length_le chars
  unfold readTable at read
  split at read
  · cases read
  · rename_i tail found
    cases read
    simp only [found, List.length_cons] at skipped
    omega
  · have shorter := readMembers_shrinks item read
    omega

def readWord (letters chars : List Char) : Except ReadError (List Char) :=
  match letters, chars with
  | [], _ => .ok chars
  | _ :: _, [] => .error (.here .unfinishedValue [])
  | letter :: letters, char :: rest =>
    if char = letter then readWord letters rest else .error (.past .expectedWord chars)

theorem readWord_grows_not {letters chars rest : List Char}
    (read : readWord letters chars = .ok rest) : rest.length ≤ chars.length := by
  fun_induction readWord letters chars with
  | case1 =>
    cases read
    exact Nat.le_refl _
  | case2 => cases read
  | case3 _ _ _ ih =>
    have shorter := ih read
    simp only [List.length_cons]
    omega
  | case4 => cases read

namespace Json

/-- Members in the order of their first writing, each with its last value. -/
def ofWritten (members : List (String × Json)) : Json :=
  object (settleWritten members)

/-- A value whose parts, if it may have parts, are read by `nested`. -/
def readWith (nested : Option (Reader Json)) (chars : List Char) :
    Except ReadError (Json × List Char) :=
  let word letters (value : Json) rest := (readWord letters rest).map fun rest => (value, rest)
  match skipBlanks chars with
  | [] => .error (.here .unfinishedValue [])
  | 'n' :: rest => word ['u', 'l', 'l'] null rest
  | 't' :: rest => word ['r', 'u', 'e'] (boolean true) rest
  | 'f' :: rest => word ['a', 'l', 's', 'e'] (boolean false) rest
  | '"' :: rest => (readString rest).map fun read => (string read.1, read.2)
  | '-' :: rest => (readMagnitude true rest).map fun read => (number read.1, read.2)
  | '[' :: rest =>
    match nested with
    | none => .error (.past .tooDeep ('[' :: rest))
    | some item => (readList item rest).map fun read => (array read.1, read.2)
  | '{' :: rest =>
    match nested with
    | none => .error (.past .tooDeep ('{' :: rest))
    | some item => (readTable (fun _ => item) rest).map fun read => (ofWritten read.1, read.2)
  | char :: rest =>
    if char.isDigit then
      (readMagnitude false (char :: rest)).map fun read => (number read.1, read.2)
    else .error (.past .expectedValue (char :: rest))

theorem map_shrinks {α β : Type} {result : Except ReadError (α × List Char)} {make : α → β}
    {value : β} {rest : List Char} {bound : Nat}
    (mapped : (result.map fun read => (make read.1, read.2)) = .ok (value, rest))
    (shrinks : ∀ {inner : α}, result = .ok (inner, rest) → rest.length < bound) :
    rest.length < bound := by
  cases result with
  | error => simp [Except.map] at mapped
  | ok read =>
    obtain ⟨inner, unread⟩ := read
    simp only [Except.map, Except.ok.injEq, Prod.mk.injEq] at mapped
    obtain ⟨_, rfl⟩ := mapped
    exact shrinks rfl

theorem word_shrinks {letters chars rest : List Char} {value read : Json}
    (mapped : ((readWord letters chars).map fun rest => (value, rest)) = .ok (read, rest)) :
    rest.length ≤ chars.length := by
  cases result : readWord letters chars with
  | error => simp [result, Except.map] at mapped
  | ok unread =>
    simp only [result, Except.map, Except.ok.injEq, Prod.mk.injEq] at mapped
    rw [← mapped.2]
    exact readWord_grows_not result

theorem readWith_shrinks {nested : Option (Reader Json)} {chars rest : List Char} {value : Json}
    (read : readWith nested chars = .ok (value, rest)) : rest.length < chars.length := by
  have skipped := skipBlanks_length_le chars
  unfold readWith at read
  simp only at read
  split at read
  · cases read
  · rename_i tail found
    have shorter := word_shrinks read
    simp only [found, List.length_cons] at skipped
    omega
  · rename_i tail found
    have shorter := word_shrinks read
    simp only [found, List.length_cons] at skipped
    omega
  · rename_i tail found
    have shorter := word_shrinks read
    simp only [found, List.length_cons] at skipped
    omega
  · rename_i tail found
    simp only [found, List.length_cons] at skipped
    have shorter := map_shrinks read readString_shrinks
    omega
  · rename_i tail found
    simp only [found, List.length_cons] at skipped
    have shorter := map_shrinks read readMagnitude_shrinks
    omega
  · rename_i tail found
    simp only [found, List.length_cons] at skipped
    split at read
    · cases read
    · rename_i item
      have shorter := map_shrinks read (readList_shrinks item)
      omega
  · rename_i tail found
    simp only [found, List.length_cons] at skipped
    split at read
    · cases read
    · rename_i item
      have shorter := map_shrinks read (readTable_shrinks fun _ => item)
      omega
  · split at read
    · have shorter := map_shrinks read readMagnitude_shrinks
      simp_all only [List.length_cons]
      omega
    · cases read

/-- Reads values with at most `depth` containers around any part. -/
def reader (depth : Nat) : Reader Json :=
  match depth with
  | 0 => ⟨readWith none, readWith_shrinks⟩
  | depth + 1 => ⟨readWith (some (reader depth)), readWith_shrinks⟩

def depthLimit : Nat := 127

/-- Reads the value at the front of a text and leaves what follows it unread. -/
def readFront (text : String) : Except ReadError (Json × List Char) :=
  (reader depthLimit).read text.toList

/-- Reads a document. Text after the value is not looked at. -/
def readDocument (text : String) : Except ReadError Json :=
  (readFront text).map (·.1)

end Json

end SchemaTypes
