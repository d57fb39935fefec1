import SchemaTypes.Json.Text

namespace SchemaTypes

inductive Quote where
  | single
  | double
  deriving DecidableEq, Repr

def Quote.mark : Quote → Char
  | single => '\''
  | double => '"'

/-- Where a scan stands. After a slash in code and a star in a comment the next character decides. -/
inductive ScanState where
  | code
  | slash
  | comment
  | star
  | inQuotes (quote : Quote)
  | escaped (quote : Quote)
  deriving DecidableEq, Repr

namespace ScanState

def fromCode (char : Char) : ScanState :=
  if char = '/' then slash
  else if char = '\'' then inQuotes .single
  else if char = '"' then inQuotes .double
  else code

def next : ScanState → Char → ScanState
  | code, char => fromCode char
  | slash, char => if char = '*' then comment else fromCode char
  | comment, char => if char = '*' then star else comment
  | star, char => if char = '/' then code else if char = '*' then star else comment
  | inQuotes quote, char =>
    if char = quote.mark then code else if char = '\\' then escaped quote else inQuotes quote
  | escaped quote, _ => inQuotes quote

/-- What a character adds to the text that is kept; a slash in code waits for the next character. -/
def kept : ScanState → Char → List Char
  | code, char => if char = '/' then [] else [char]
  | slash, char => if char = '*' then [] else if char = '/' then ['/'] else ['/', char]
  | comment, _ => []
  | star, _ => []
  | inQuotes _, char => [char]
  | escaped _, char => [char]

def after (state : ScanState) (chars : List Char) : ScanState :=
  chars.foldl next state

def keeps : ScanState → List Char → List Char
  | _, [] => []
  | state, char :: chars => state.kept char ++ keeps (state.next char) chars

def waiting : ScanState → List Char
  | slash => ['/']
  | _ => []

theorem after_append (state : ScanState) (first second : List Char) :
    state.after (first ++ second) = (state.after first).after second :=
  List.foldl_append

theorem keeps_append (state : ScanState) (first second : List Char) :
    state.keeps (first ++ second) = state.keeps first ++ (state.after first).keeps second := by
  induction first generalizing state with
  | nil => rfl
  | cons char first ih =>
    rw [List.cons_append, keeps, keeps, ih, List.append_assoc]
    rfl

end ScanState

def withoutComments (text : String) : String :=
  String.ofList (ScanState.code.keeps text.toList ++ (ScanState.code.after text.toList).waiting)

open ScanState

def Settled (text : String) : Prop :=
  code.after text.toList = code

theorem settled_append {first second : String} (settled : Settled first) (settled' : Settled second) :
    Settled (first ++ second) := by
  unfold Settled at *
  rw [String.toList_append, after_append, settled, settled']

/-- Both texts leave the scan in code, which keeps the same of them. -/
structure Alike (first second : String) : Prop where
  settled : Settled first
  settled' : Settled second
  same : code.keeps first.toList = code.keeps second.toList

theorem Settled.alike {text : String} (settled : Settled text) : Alike text text :=
  ⟨settled, settled, rfl⟩

theorem Alike.append {first second third fourth : String} (front : Alike first second)
    (back : Alike third fourth) : Alike (first ++ third) (second ++ fourth) where
  settled := settled_append front.settled back.settled
  settled' := settled_append front.settled' back.settled'
  same := by
    rw [String.toList_append, String.toList_append, keeps_append, keeps_append, front.settled,
      front.settled', front.same, back.same]

theorem Alike.withoutComments_eq {first second : String} (alike : Alike first second) :
    withoutComments first = withoutComments second := by
  rw [withoutComments, withoutComments, alike.settled, alike.settled', alike.same]

def isPlain (char : Char) : Bool :=
  char ≠ '/' ∧ char ≠ '\'' ∧ char ≠ '"' ∧ char ≠ '\\'

theorem next_of_isPlain {char : Char} (plain : isPlain char = true) : code.next char = code := by
  simp only [isPlain, decide_eq_true_eq] at plain
  simp [next, fromCode, plain]

theorem after_plain {chars : List Char} (plain : chars.all isPlain = true) :
    code.after chars = code := by
  induction chars with
  | nil => rfl
  | cons char chars ih =>
    rw [List.all_cons, Bool.and_eq_true] at plain
    rw [after, List.foldl_cons, next_of_isPlain plain.1]
    exact ih plain.2

theorem settled_plain {text : String} (plain : text.toList.all isPlain = true) : Settled text :=
  after_plain plain

theorem after_quoted_hexDigits {number : Nat} (small : number < 32) :
    (inQuotes .double).after (hexDigits number) = inQuotes .double := by
  have digits : ∀ value < 32, (inQuotes .double).after (hexDigits value) = inQuotes .double := by
    decide
  exact digits number small

theorem after_escapedChar (char : Char) :
    (inQuotes .double).after (escapedChar char) = inQuotes .double := by
  unfold escapedChar
  split
  · rfl
  · rename_i notQuote
    split
    · rfl
    · rename_i notBackslash
      repeat' split
      all_goals try rfl
      · rename_i small
        rw [after_append]
        exact after_quoted_hexDigits small
      · simp [after, next, Quote.mark, notQuote, notBackslash]

theorem after_escaped (text : List Char) :
    (inQuotes .double).after (text.flatMap escapedChar) = inQuotes .double := by
  induction text with
  | nil => rfl
  | cons char text ih => rw [List.flatMap_cons, after_append, after_escapedChar, ih]

theorem after_quotedChars (text : List Char) : code.after (quotedChars text) = code := by
  have opened : code.after ['"'] = inQuotes .double := by decide
  have closed : (inQuotes .double).after ['"'] = code := by decide
  rw [quotedChars, ← List.singleton_append, after_append, after_append, opened, after_escaped, closed]

theorem settled_quoted (text : String) : Settled (quoted text) := by
  rw [Settled, quoted, String.toList_ofList]
  exact after_quotedChars text.toList

end SchemaTypes
