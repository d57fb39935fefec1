import SchemaTypes.Json.ReadError

namespace SchemaTypes

def hexValue? (char : Char) : Option Nat :=
  if char.isDigit then some (char.toNat - 48)
  else if 'a' ≤ char ∧ char ≤ 'f' then some (char.toNat - 87)
  else if 'A' ≤ char ∧ char ≤ 'F' then some (char.toNat - 55)
  else none

/-- Why four hexadecimal digits are missing. Four bytes are looked at, whatever characters they belong to. -/
def hexError (chars : List Char) : ReadError :=
  if ReadError.byteCount chars < 4 then .here .unfinishedString []
  else ⟨.invalidEscape, chars, 4, []⟩

def readHex (chars : List Char) : Except ReadError (Nat × List Char) :=
  match chars with
  | first :: second :: third :: fourth :: rest =>
    match hexValue? first, hexValue? second, hexValue? third, hexValue? fourth with
    | some a, some b, some c, some d => .ok (((a * 16 + b) * 16 + c) * 16 + d, rest)
    | _, _, _, _ => .error (hexError chars)
  | _ => .error (hexError chars)

def isHighSurrogate (code : Nat) : Bool :=
  decide (0xD800 ≤ code ∧ code ≤ 0xDBFF)

def isLowSurrogate (code : Nat) : Bool :=
  decide (0xDC00 ≤ code ∧ code ≤ 0xDFFF)

def expectInPair (expected : Char) (chars : List Char) : Except ReadError (List Char) :=
  match chars with
  | [] => .error (.here .unfinishedString [])
  | char :: rest =>
    if char = expected then .ok rest else .error (.past .unfinishedSurrogatePair chars)

def readCodeEscape (chars : List Char) : Except ReadError (Char × List Char) := do
  let (code, rest) ← readHex chars
  if isLowSurrogate code then .error (.here .loneSurrogate rest)
  else if isHighSurrogate code then
    let afterBackslash ← expectInPair '\\' rest
    let afterMark ← expectInPair 'u' afterBackslash
    let (low, rest) ← readHex afterMark
    if isLowSurrogate low then
      .ok (Char.ofNat ((code - 0xD800) * 0x400 + (low - 0xDC00) + 0x10000), rest)
    else .error (.here .loneSurrogate rest)
  else .ok (Char.ofNat code, rest)

def simpleEscape? (char : Char) : Option Char :=
  if char = '"' ∨ char = '\\' ∨ char = '/' then some char
  else if char = 'b' then some (Char.ofNat 8)
  else if char = 'f' then some (Char.ofNat 12)
  else if char = 'n' then some '\n'
  else if char = 'r' then some '\r'
  else if char = 't' then some '\t'
  else none

def readEscape (chars : List Char) : Except ReadError (Char × List Char) :=
  match chars with
  | [] => .error (.here .unfinishedString [])
  | char :: rest =>
    if char = 'u' then readCodeEscape rest
    else
      match simpleEscape? char with
      | some meant => .ok (meant, rest)
      | none => .error (.past .invalidEscape chars)

theorem readHex_shrinks {chars rest : List Char} {code : Nat}
    (read : readHex chars = .ok (code, rest)) : rest.length < chars.length := by
  unfold readHex at read
  split at read
  · split at read
    · cases read
      simp only [List.length_cons]
      omega
    · cases read
  · cases read

theorem expectInPair_shrinks {expected : Char} {chars rest : List Char}
    (read : expectInPair expected chars = .ok rest) : rest.length < chars.length := by
  unfold expectInPair at read
  split at read
  · cases read
  · split at read
    · cases read
      simp
    · cases read

theorem readCodeEscape_shrinks {chars rest : List Char} {char : Char}
    (read : readCodeEscape chars = .ok (char, rest)) : rest.length < chars.length := by
  unfold readCodeEscape at read
  cases hexRead : readHex chars with
  | error => simp [hexRead, bind, Except.bind] at read
  | ok hex =>
    obtain ⟨code, afterHex⟩ := hex
    have first := readHex_shrinks hexRead
    simp only [hexRead, bind, Except.bind] at read
    split at read
    · cases read
    · split at read
      · cases backslashRead : expectInPair '\\' afterHex with
        | error => simp [backslashRead] at read
        | ok afterBackslash =>
          have second := expectInPair_shrinks backslashRead
          cases markRead : expectInPair 'u' afterBackslash with
          | error => simp [backslashRead, markRead] at read
          | ok afterMark =>
            have third := expectInPair_shrinks markRead
            cases lowRead : readHex afterMark with
            | error => simp [backslashRead, markRead, lowRead] at read
            | ok low =>
              obtain ⟨low, afterLow⟩ := low
              have fourth := readHex_shrinks lowRead
              simp only [backslashRead, markRead, lowRead] at read
              split at read
              · simp only [Except.ok.injEq, Prod.mk.injEq] at read
                rw [← read.2]
                omega
              · cases read
      · simp only [Except.ok.injEq, Prod.mk.injEq] at read
        rw [← read.2]
        exact first

theorem readEscape_shrinks {chars rest : List Char} {char : Char}
    (read : readEscape chars = .ok (char, rest)) : rest.length < chars.length := by
  unfold readEscape at read
  split at read
  · cases read
  · split at read
    · have shorter := readCodeEscape_shrinks read
      simp only [List.length_cons]
      omega
    · split at read
      · cases read
        simp
      · cases read

/-- The characters up to the closing quote, before which `done` were read, last first. -/
def readStringFrom (done chars : List Char) : Except ReadError (List Char × List Char) :=
  match chars with
  | [] => .error (.here .unfinishedString [])
  | char :: rest =>
    if char = '"' then .ok (done.reverse, rest)
    else if char = '\\' then
      match escapeRead : readEscape rest with
      | .ok (meant, afterEscape) =>
        have := readEscape_shrinks escapeRead
        readStringFrom (meant :: done) afterEscape
      | .error error => .error error
    else if char.toNat < 32 then .error (.past .controlCharacter chars)
    else readStringFrom (char :: done) rest
termination_by chars.length
decreasing_by
  · simp only [List.length_cons]
    omega
  · simp

def readString (chars : List Char) : Except ReadError (String × List Char) :=
  (readStringFrom [] chars).map fun read => (String.ofList read.1, read.2)

theorem readStringFrom_shrinks {done chars text rest : List Char}
    (read : readStringFrom done chars = .ok (text, rest)) : rest.length < chars.length := by
  fun_induction readStringFrom done chars with
  | case1 => cases read
  | case2 =>
    cases read
    simp
  | case3 done tail meant afterEscape escapeRead _ _ ih =>
    have shorter := readEscape_shrinks escapeRead
    have remaining := ih read
    simp only [List.length_cons]
    omega
  | case4 => cases read
  | case5 => cases read
  | case6 done char tail _ _ _ ih =>
    have remaining := ih read
    simp only [List.length_cons]
    omega

theorem readString_shrinks {chars rest : List Char} {text : String}
    (read : readString chars = .ok (text, rest)) : rest.length < chars.length := by
  unfold readString at read
  cases result : readStringFrom [] chars with
  | error => simp [result, Except.map] at read
  | ok parts =>
    obtain ⟨text, unread⟩ := parts
    simp only [result, Except.map, Except.ok.injEq, Prod.mk.injEq] at read
    rw [← read.2]
    exact readStringFrom_shrinks result

end SchemaTypes
