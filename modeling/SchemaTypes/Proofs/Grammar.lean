import SchemaTypes.Proofs.Spellings

/-!
The grammar of values, apart from how they are read. A reader takes a value from the front of a text and
leaves the rest of it alone, and it takes every spelled value that no numeral goes on after.
-/

namespace SchemaTypes

def IsBlanks (chars : List Char) : Prop :=
  ∀ char ∈ chars, isBlank char = true

theorem skipBlanks_append {blanks : List Char} (blank : IsBlanks blanks) (rest : List Char) :
    skipBlanks (blanks ++ rest) = skipBlanks rest :=
  List.dropWhile_append_of_pos blank

theorem skipBlanks_cons {first : Char} (other : isBlank first = false) (more : List Char) :
    skipBlanks (first :: more) = first :: more := by
  simp [skipBlanks, other]

theorem skipBlanks_mark {blanks : List Char} (blank : IsBlanks blanks) (mark : Char)
    (other : isBlank mark = false) (rest : List Char) :
    skipBlanks (blanks ++ mark :: rest) = mark :: rest := by
  rw [skipBlanks_append blank, skipBlanks_cons other]

theorem cut_of_skipBlanks {chars front : List Char} (found : skipBlanks chars = front) :
    ∃ blanks, chars = blanks ++ front ∧ IsBlanks blanks := by
  refine ⟨chars.takeWhile isBlank, ?_, ?_⟩
  · rw [← found]
    exact List.takeWhile_append_dropWhile.symm
  · exact fun char inside => List.all_eq_true.mp List.all_takeWhile char inside

theorem IsBlanks.append {blanks more : List Char} (blank : IsBlanks blanks) (blank' : IsBlanks more) :
    IsBlanks (blanks ++ more) := by
  intro char inside
  rcases List.mem_append.mp inside with first | second
  · exact blank char first
  · exact blank' char second

theorem IsBlanks.unnumbered {blanks rest : List Char} (blank : IsBlanks blanks) (follow : Unnumbered rest) :
    Unnumbered (blanks ++ rest) := by
  cases blanks with
  | nil => exact follow
  | cons char blanks =>
    have here := blank char List.mem_cons_self
    simp only [isBlank, Bool.or_eq_true, decide_eq_true_eq] at here
    rcases here with ((rfl | rfl) | rfl) | rfl <;> exact ⟨rfl, by simp⟩

theorem unnumbered_mark {mark : Char} (marks : mark = ',' ∨ mark = ']' ∨ mark = '}') (rest : List Char) :
    Unnumbered (mark :: rest) := by
  rcases marks with rfl | rfl | rfl <;> exact ⟨rfl, by simp⟩

section

variable {Content : Type}

inductive Padded (spells : List Char → Content → Prop) : List Char → Content → Prop where
  | blanks {before text after : List Char} {content : Content} (blank : IsBlanks before)
      (spelled : spells text content) (blank' : IsBlanks after) :
      Padded spells (before ++ (text ++ after)) content

inductive SpellsItems (spells : List Char → Content → Prop) : List Char → List Content → Prop where
  | last {text : List Char} {content : Content} (spelled : Padded spells text content) :
      SpellsItems spells text [content]
  | more {text texts : List Char} {content : Content} {contents : List Content}
      (spelled : Padded spells text content) (later : SpellsItems spells texts contents) :
      SpellsItems spells (text ++ ',' :: texts) (content :: contents)

inductive SpellsInside (spells : List Char → Content → Prop) : List Char → List Content → Prop where
  | empty {blanks : List Char} (blank : IsBlanks blanks) : SpellsInside spells blanks []
  | items {text : List Char} {contents : List Content} (spelled : SpellsItems spells text contents) :
      SpellsInside spells text contents

inductive SpellsMember (spells : List Char → Content → Prop) : List Char → String × Content → Prop where
  | keyed {keyText blanks before text : List Char} {key : String} {content : Content}
      (quoted : SpellsString keyText key) (blank : IsBlanks blanks) (blank' : IsBlanks before)
      (spelled : spells text content) :
      SpellsMember spells (keyText ++ (blanks ++ ':' :: (before ++ text))) (key, content)

end

namespace Json

/-- A value of which the parts, if it may have parts, are spelled in this way. -/
inductive SpellsWith (part : Option (List Char → Json → Prop)) : List Char → Json → Prop where
  | null : SpellsWith part ['n', 'u', 'l', 'l'] null
  | true : SpellsWith part ['t', 'r', 'u', 'e'] (boolean Bool.true)
  | false : SpellsWith part ['f', 'a', 'l', 's', 'e'] (boolean Bool.false)
  | number {text : List Char} {value : Number} (spelled : SpellsNumber text value) :
      SpellsWith part text (number value)
  | string {text : List Char} {value : String} (spelled : SpellsString text value) :
      SpellsWith part text (string value)
  | array {spells : List Char → Json → Prop} (nested : part = some spells) {inside : List Char}
      {elements : List Json} (spelled : SpellsInside spells inside elements) :
      SpellsWith part ('[' :: (inside ++ [']'])) (array elements)
  | object {spells : List Char → Json → Prop} (nested : part = some spells) {inside : List Char}
      {written : List (String × Json)} (spelled : SpellsInside (SpellsMember spells) inside written) :
      SpellsWith part ('{' :: (inside ++ ['}'])) (ofWritten written)

/-- Values with at most `depth` containers around any part. -/
def Spells : Nat → List Char → Json → Prop
  | 0 => SpellsWith none
  | depth + 1 => SpellsWith (some (Spells depth))

end Json

section

variable {Content : Type} {spells : List Char → Content → Prop}

def Starts (spells : List Char → Content → Prop) : Prop :=
  ∀ text content, spells text content →
    ∃ first more, text = first :: more ∧ isBlank first = false ∧ first ≠ ']' ∧ first ≠ '}'

/-- The reader takes a spelling from the front of a text, and every one that is properly followed. -/
structure Takes (read : Reads Content) (spells : List Char → Content → Prop) : Prop where
  starts : Starts spells
  spelled : ∀ {chars rest content}, read chars = .ok (content, rest) →
    ∃ blanks text, chars = blanks ++ (text ++ rest) ∧ IsBlanks blanks ∧ spells text content
  taken : ∀ {blanks text rest content}, IsBlanks blanks → spells text content → Unnumbered rest →
    read (blanks ++ (text ++ rest)) = .ok (content, rest)

theorem Starts.front (starts : Starts spells) {text : List Char} {content : Content}
    (spelled : spells text content) (rest : List Char) : skipBlanks (text ++ rest) = text ++ rest := by
  obtain ⟨first, more, rfl, other, _⟩ := starts text content spelled
  exact skipBlanks_cons other (more ++ rest)

theorem Starts.unpadded (starts : Starts spells) {text : List Char} {content : Content}
    (padded : Padded spells text content) :
    ∃ inner after, spells inner content ∧ IsBlanks after ∧
      ∀ rest, skipBlanks (text ++ rest) = inner ++ (after ++ rest) := by
  cases padded with
  | @blanks before inner after _ blank spelled blank' =>
    refine ⟨inner, after, spelled, blank', fun rest => ?_⟩
    rw [List.append_assoc, skipBlanks_append blank, List.append_assoc, starts.front spelled]

theorem Starts.items (starts : Starts spells) {text : List Char} {contents : List Content}
    (spelled : SpellsItems spells text contents) (rest : List Char) :
    skipBlanks (text ++ rest) ≠ [] ∧ (skipBlanks (text ++ rest)).head? ≠ some ']' ∧
      (skipBlanks (text ++ rest)).head? ≠ some '}' := by
  have padded {text : List Char} {content : Content} (padded : Padded spells text content)
      (rest : List Char) :
      skipBlanks (text ++ rest) ≠ [] ∧ (skipBlanks (text ++ rest)).head? ≠ some ']' ∧
        (skipBlanks (text ++ rest)).head? ≠ some '}' := by
    obtain ⟨inner, after, spelled, _, front⟩ := starts.unpadded padded
    obtain ⟨first, more, rfl, _, other⟩ := starts _ _ spelled
    rw [front]
    simpa using other
  cases spelled with
  | last spelled => exact padded spelled rest
  | more spelled later =>
    rw [List.append_assoc]
    exact padded spelled _

theorem SpellsItems.led {blanks text : List Char} {contents : List Content} (blank : IsBlanks blanks)
    (spelled : SpellsItems spells text contents) : SpellsItems spells (blanks ++ text) contents := by
  have padded {text : List Char} {content : Content} (padded : Padded spells text content) :
      Padded spells (blanks ++ text) content := by
    cases padded with
    | blanks blank' spelled blank'' =>
      rw [← List.append_assoc]
      exact .blanks (blank.append blank') spelled blank''
  cases spelled with
  | last spelled => exact .last (padded spelled)
  | more spelled later =>
    rw [← List.append_assoc]
    exact .more (padded spelled) later

inductive After (closing : Char) (chars : List Char) : Option (List Char) → List Char → Prop where
  | closed {rest : List Char} (found : skipBlanks chars = closing :: rest) : After closing chars none rest
  | comma {tail next : List Char} (found : skipBlanks chars = ',' :: tail) (inner : skipBlanks tail = next)
      (filled : next ≠ []) (opened : next.head? ≠ some closing) : After closing chars (some next) next

end

theorem afterElement_iff {chars rest : List Char} {next : Option (List Char)} :
    afterElement chars = .ok (next, rest) ↔ After ']' chars next rest := by
  constructor
  · intro read
    unfold afterElement at read
    split at read
    · cases read
    · rename_i found
      cases read
      exact .closed found
    · rename_i found
      split at read
      · cases read
      · cases read
      · rename_i filled opened
        cases read
        refine .comma found rfl filled fun closed => ?_
        obtain ⟨tail, same⟩ := List.head?_eq_some_iff.mp closed
        exact opened tail same
    · cases read
  · intro after
    cases after with
    | closed found => simp only [afterElement, found]
    | comma found inner filled opened =>
      simp only [afterElement, found, inner]
      split
      · exact absurd rfl filled
      · exact absurd rfl opened
      · rfl

theorem afterMember_iff {chars rest : List Char} {next : Option (List Char)} :
    afterMember chars = .ok (next, rest) ↔ After '}' chars next rest := by
  constructor
  · intro read
    unfold afterMember at read
    simp only at read
    split at read
    · cases read
    · rename_i found
      cases read
      exact .closed found
    · rename_i found
      split at read
      · cases read
      · cases read
      · rename_i filled opened
        cases read
        refine .comma found rfl filled fun closed => ?_
        obtain ⟨tail, same⟩ := List.head?_eq_some_iff.mp closed
        exact opened tail same
    · cases read
  · intro after
    cases after with
    | closed found => simp only [afterMember, found]
    | comma found inner filled opened =>
      simp only [afterMember, found, inner]
      split
      · exact absurd rfl filled
      · exact absurd rfl opened
      · rfl

section

variable {Content : Type} {spells : List Char → Content → Prop}

theorem readElements_spells {item : Reader Content} (takes : Takes item.read spells) {index : Nat}
    {chars rest : List Char} {contents : List Content}
    (read : readElements item index chars = .ok (contents, rest)) :
    ∃ text, chars = text ++ ']' :: rest ∧ SpellsItems spells text contents := by
  fun_induction readElements item index chars generalizing contents rest with
  | case1 => cases read
  | case2 => cases read
  | case3 index chars content tail itemRead rest' nextRead =>
    cases read
    obtain ⟨before, text, rfl, blank, spelled⟩ := takes.spelled itemRead
    cases afterElement_iff.mp nextRead with
    | closed found =>
      obtain ⟨after, rfl, blank'⟩ := cut_of_skipBlanks found
      exact ⟨_, by simp, .last (.blanks blank spelled blank')⟩
  | case4 => cases read
  | case5 index chars content tail itemRead _ next nextRead _ _ contents' rest' _ ih =>
    cases read
    obtain ⟨before, text, rfl, blank, spelled⟩ := takes.spelled itemRead
    obtain ⟨texts, cut, later⟩ := ih ‹_›
    cases afterElement_iff.mp nextRead with
    | comma found inner =>
      obtain ⟨after, rfl, blank'⟩ := cut_of_skipBlanks found
      obtain ⟨between, rfl, blank''⟩ := cut_of_skipBlanks inner
      rw [cut]
      exact ⟨_, by simp, .more (.blanks blank spelled blank') (later.led blank'')⟩

theorem readElements_step {item : Reader Content} {index : Nat} {chars tail : List Char}
    {content : Content} (itemRead : item.read chars = .ok (content, tail)) :
    readElements item index chars =
      match afterElement tail with
      | .error error => .error error
      | .ok (none, rest) => .ok ([content], rest)
      | .ok (some _, next) =>
        (readElements item (index + 1) next).map fun read => (content :: read.1, read.2) := by
  rw [readElements]
  split
  · simp_all
  · rename_i same
    rw [itemRead] at same
    cases same
    split
    · simp_all
    · simp_all
    · rename_i nextRead
      simp only [nextRead]
      split <;> simp_all [Except.map]

theorem readElements_taken {item : Reader Content} (takes : Takes item.read spells) {text : List Char}
    {contents : List Content} (spelled : SpellsItems spells text contents) (index : Nat)
    (rest : List Char) :
    readElements item index (skipBlanks (text ++ ']' :: rest)) = .ok (contents, rest) := by
  induction spelled generalizing index with
  | last padded =>
    obtain ⟨inner, after, spelled, blank, front⟩ := takes.starts.unpadded padded
    have follow := blank.unnumbered (unnumbered_mark (.inr (.inl rfl)) rest)
    have itemRead := takes.taken (List.forall_mem_nil _) spelled follow
    have ended := afterElement_iff.mpr (.closed (skipBlanks_mark blank ']' rfl rest))
    rw [front]
    refine (readElements_step itemRead).trans ?_
    simp only [ended]
  | @more _ texts content contents padded later ih =>
    obtain ⟨inner, after, spelled, blank, front⟩ := takes.starts.unpadded padded
    obtain ⟨filled, opened, _⟩ := takes.starts.items later (']' :: rest)
    have follow := blank.unnumbered (unnumbered_mark (.inl rfl) (texts ++ ']' :: rest))
    have itemRead := takes.taken (List.forall_mem_nil _) spelled follow
    have goesOn := afterElement_iff.mpr (.comma (skipBlanks_mark blank ',' rfl _) rfl filled opened)
    rw [List.append_assoc, front]
    refine (readElements_step itemRead).trans ?_
    simp only [goesOn, ih (index + 1), Except.map]

theorem readKey_spells {chars rest : List Char} {key : String} (read : readKey chars = .ok (key, rest)) :
    ∃ keyText blanks, chars = keyText ++ (blanks ++ ':' :: rest) ∧ SpellsString keyText key ∧
      IsBlanks blanks := by
  unfold readKey at read
  split at read
  · split at read
    · cases read
    · rename_i keyRead
      obtain ⟨keyText, cut, quoted⟩ := readString_spells keyRead
      split at read
      · cases read
      · rename_i colon
        cases read
        obtain ⟨blanks, rfl, blank⟩ := cut_of_skipBlanks colon
        exact ⟨keyText, blanks, cut, quoted, blank⟩
      · cases read
  · cases read

theorem SpellsString.key {keyText blanks : List Char} {key : String} (quoted : SpellsString keyText key)
    (blank : IsBlanks blanks) (rest : List Char) :
    readKey (keyText ++ (blanks ++ ':' :: rest)) = .ok (key, rest) := by
  obtain ⟨chars, starts, keyRead⟩ := quoted.read (blanks ++ ':' :: rest)
  rw [starts, readKey, keyRead]
  simp only [skipBlanks_mark blank ':' rfl rest]

theorem readMembers_spells {item : Reader Content} (takes : Takes item.read spells)
    {chars rest : List Char} {members : List (String × Content)}
    (read : readMembers (fun _ => item) chars = .ok (members, rest)) :
    ∃ text, chars = text ++ '}' :: rest ∧ SpellsItems (SpellsMember spells) text members := by
  -- the key is at the very front: the blanks before it were skipped with the brace or the comma
  have keyed {chars afterKey tail : List Char} {key : String} {content : Content}
      (keyRead : readKey chars = .ok (key, afterKey)) (itemRead : item.read afterKey = .ok (content, tail)) :
      ∃ text, chars = text ++ tail ∧ SpellsMember spells text (key, content) := by
    obtain ⟨keyText, blanks, rfl, quoted, blank⟩ := readKey_spells keyRead
    obtain ⟨before, text, rfl, blank', spelled⟩ := takes.spelled itemRead
    exact ⟨_, by simp, .keyed quoted blank blank' spelled⟩
  fun_induction readMembers (fun _ => item) chars generalizing members rest with
  | case1 => cases read
  | case2 => cases read
  | case3 => cases read
  | case4 chars key afterKey keyRead content tail itemRead rest' nextRead =>
    cases read
    obtain ⟨text, rfl, member⟩ := keyed keyRead itemRead
    cases afterMember_iff.mp nextRead with
    | closed found =>
      obtain ⟨after, rfl, blank⟩ := cut_of_skipBlanks found
      exact ⟨_, by simp, .last (.blanks (List.forall_mem_nil _) member blank)⟩
  | case5 => cases read
  | case6 chars key afterKey keyRead content tail itemRead _ next nextRead _ _ _ members' rest' _ ih =>
    cases read
    obtain ⟨text, rfl, member⟩ := keyed keyRead itemRead
    obtain ⟨texts, cut, later⟩ := ih ‹_›
    cases afterMember_iff.mp nextRead with
    | comma found inner =>
      obtain ⟨after, rfl, blank⟩ := cut_of_skipBlanks found
      obtain ⟨between, rfl, blank'⟩ := cut_of_skipBlanks inner
      rw [cut]
      exact ⟨_, by simp, .more (.blanks (List.forall_mem_nil _) member blank) (later.led blank')⟩

theorem readMembers_step {item : String → Reader Content} {chars afterKey tail : List Char}
    {key : String} {content : Content} (keyRead : readKey chars = .ok (key, afterKey))
    (itemRead : (item key).read afterKey = .ok (content, tail)) :
    readMembers item chars =
      match afterMember tail with
      | .error error => .error error
      | .ok (none, rest) => .ok ([(key, content)], rest)
      | .ok (some _, next) =>
        (readMembers item next).map fun read => ((key, content) :: read.1, read.2) := by
  rw [readMembers]
  split
  · simp_all
  · rename_i same
    rw [keyRead] at same
    cases same
    split
    · simp_all
    · rename_i same
      rw [itemRead] at same
      cases same
      split
      · simp_all
      · simp_all
      · rename_i nextRead
        simp only [nextRead]
        split <;> simp_all [Except.map]

theorem starts_member : Starts (SpellsMember spells) := by
  intro text member spelled
  cases spelled with
  | keyed quoted blank blank' spelled =>
    obtain ⟨body, rfl, _⟩ := quoted
    exact ⟨'"', _, rfl, rfl, by decide, by decide⟩

theorem readMembers_taken {item : Reader Content} (takes : Takes item.read spells) {text : List Char}
    {members : List (String × Content)} (spelled : SpellsItems (SpellsMember spells) text members)
    (rest : List Char) :
    readMembers (fun _ => item) (skipBlanks (text ++ '}' :: rest)) = .ok (members, rest) := by
  have keyed {text : List Char} {key : String} {content : Content}
      (spelled : SpellsMember spells text (key, content)) {tail : List Char} (follow : Unnumbered tail) :
      ∃ afterKey, readKey (text ++ tail) = .ok (key, afterKey) ∧
        item.read afterKey = .ok (content, tail) := by
    cases spelled with
    | @keyed keyText blanks before text _ _ quoted blank blank' spelled =>
      refine ⟨before ++ (text ++ tail), ?_, takes.taken blank' spelled follow⟩
      simp only [List.append_assoc, List.cons_append]
      exact quoted.key blank _
  induction spelled with
  | last padded =>
    obtain ⟨inner, after, spelled, blank, front⟩ := starts_member.unpadded padded
    obtain ⟨afterKey, keyRead, itemRead⟩ :=
      keyed spelled (blank.unnumbered (unnumbered_mark (.inr (.inr rfl)) rest))
    have ended := afterMember_iff.mpr (.closed (skipBlanks_mark blank '}' rfl rest))
    rw [front, readMembers_step keyRead itemRead, ended]
  | @more _ texts member members padded later ih =>
    obtain ⟨inner, after, spelled, blank, front⟩ := starts_member.unpadded padded
    obtain ⟨filled, _, opened⟩ := starts_member.items later ('}' :: rest)
    obtain ⟨afterKey, keyRead, itemRead⟩ :=
      keyed spelled (blank.unnumbered (unnumbered_mark (.inl rfl) (texts ++ '}' :: rest)))
    have goesOn := afterMember_iff.mpr (.comma (skipBlanks_mark blank ',' rfl _) rfl filled opened)
    rw [List.append_assoc, front]
    refine (readMembers_step keyRead itemRead).trans ?_
    simp only [goesOn, ih, Except.map]

theorem readList_spells {item : Reader Content} (takes : Takes item.read spells) {chars rest : List Char}
    {contents : List Content} (read : readList item chars = .ok (contents, rest)) :
    ∃ inside, chars = inside ++ ']' :: rest ∧ SpellsInside spells inside contents := by
  unfold readList at read
  split at read
  · cases read
  · rename_i found
    cases read
    obtain ⟨blanks, rfl, blank⟩ := cut_of_skipBlanks found
    exact ⟨blanks, rfl, .empty blank⟩
  · obtain ⟨text, found, spelled⟩ := readElements_spells takes read
    obtain ⟨blanks, rfl, blank⟩ := cut_of_skipBlanks found
    exact ⟨blanks ++ text, by simp, .items (spelled.led blank)⟩

theorem SpellsInside.list {item : Reader Content} (takes : Takes item.read spells)
    {inside : List Char} {contents : List Content} (spelled : SpellsInside spells inside contents)
    (rest : List Char) : readList item (inside ++ ']' :: rest) = .ok (contents, rest) := by
  cases spelled with
  | empty blank => simp only [readList, skipBlanks_mark blank ']' rfl rest]
  | items spelled =>
    obtain ⟨filled, opened, _⟩ := takes.starts.items spelled (']' :: rest)
    rw [← readElements_taken takes spelled 0 rest]
    unfold readList
    split
    · rename_i nothing
      exact absurd nothing filled
    · rename_i closed
      exact absurd (congrArg List.head? closed) opened
    · rfl

theorem readTable_spells {item : Reader Content} (takes : Takes item.read spells)
    {chars rest : List Char} {members : List (String × Content)}
    (read : readTable (fun _ => item) chars = .ok (members, rest)) :
    ∃ inside, chars = inside ++ '}' :: rest ∧ SpellsInside (SpellsMember spells) inside members := by
  unfold readTable at read
  split at read
  · cases read
  · rename_i found
    cases read
    obtain ⟨blanks, rfl, blank⟩ := cut_of_skipBlanks found
    exact ⟨blanks, rfl, .empty blank⟩
  · obtain ⟨text, found, spelled⟩ := readMembers_spells takes read
    obtain ⟨blanks, rfl, blank⟩ := cut_of_skipBlanks found
    exact ⟨blanks ++ text, by simp, .items (spelled.led blank)⟩

theorem SpellsInside.table {item : Reader Content} (takes : Takes item.read spells)
    {inside : List Char} {members : List (String × Content)}
    (spelled : SpellsInside (SpellsMember spells) inside members) (rest : List Char) :
    readTable (fun _ => item) (inside ++ '}' :: rest) = .ok (members, rest) := by
  cases spelled with
  | empty blank => simp only [readTable, skipBlanks_mark blank '}' rfl rest]
  | items spelled =>
    obtain ⟨filled, _, opened⟩ := starts_member.items spelled ('}' :: rest)
    rw [← readMembers_taken takes spelled rest]
    unfold readTable
    split
    · rename_i nothing
      exact absurd nothing filled
    · rename_i closed
      exact absurd (congrArg List.head? closed) opened
    · rfl

end

theorem readWord_spells {letters chars rest : List Char} (read : readWord letters chars = .ok rest) :
    chars = letters ++ rest := by
  fun_induction readWord letters chars with
  | case1 =>
    cases read
    rfl
  | case2 => cases read
  | case3 _ _ _ ih =>
    rw [ih read]
    rfl
  | case4 => cases read

namespace Json

theorem spells_of_word {letters unread rest : List Char} {result value : Json}
    (mapped : ((readWord letters unread).map fun rest => (result, rest)) = .ok (value, rest)) :
    value = result ∧ unread = letters ++ rest := by
  refine ⟨eq_of_word mapped, ?_⟩
  cases here : readWord letters unread with
  | error => simp [here, Except.map] at mapped
  | ok unread' =>
    rw [here] at mapped
    cases mapped
    exact readWord_spells here

theorem not_bracket_of_isDigit {char : Char} (digit : char.isDigit = Bool.true) :
    isBlank char = Bool.false ∧ char ≠ ']' ∧ char ≠ '}' := by
  refine ⟨?_, ?_, ?_⟩
  · rw [Bool.eq_false_iff]
    intro blank
    simp only [isBlank, Bool.or_eq_true, decide_eq_true_eq] at blank
    rcases blank with ((rfl | rfl) | rfl) | rfl <;> cases digit
  · rintro rfl
    cases digit
  · rintro rfl
    cases digit

variable {nested : Option (Reader Json)} {part : Option (List Char → Json → Prop)}

theorem starts_with : Starts (SpellsWith part) := by
  intro text value spelled
  cases spelled with
  | null => exact ⟨'n', _, rfl, rfl, by decide, by decide⟩
  | true => exact ⟨'t', _, rfl, rfl, by decide, by decide⟩
  | false => exact ⟨'f', _, rfl, rfl, by decide, by decide⟩
  | number spelled =>
    cases spelled with
    | positive magnitude =>
      obtain ⟨digit, more, rfl, isDigit⟩ := magnitude.starts
      exact ⟨digit, more, rfl, not_bracket_of_isDigit isDigit⟩
    | negative magnitude => exact ⟨'-', _, rfl, rfl, by decide, by decide⟩
  | string spelled =>
    obtain ⟨body, rfl, _⟩ := spelled
    exact ⟨'"', _, rfl, rfl, by decide, by decide⟩
  | array _ _ => exact ⟨'[', _, rfl, rfl, by decide, by decide⟩
  | object _ _ => exact ⟨'{', _, rfl, rfl, by decide, by decide⟩

/-- What is read as a value is spelled at the front of the text if the parts that are read are spelled. -/
theorem readWith_spells
    (parts : Option.Rel (fun item spells => Takes item.read spells) nested part)
    {chars rest : List Char} {value : Json} (read : readWith nested chars = .ok (value, rest)) :
    ∃ blanks text, chars = blanks ++ (text ++ rest) ∧ IsBlanks blanks ∧ SpellsWith part text value := by
  suffices spelled : ∃ text, skipBlanks chars = text ++ rest ∧ SpellsWith part text value by
    obtain ⟨text, front, spelled⟩ := spelled
    obtain ⟨blanks, cut, blank⟩ := cut_of_skipBlanks front
    exact ⟨blanks, text, cut, blank, spelled⟩
  unfold readWith at read
  simp only at read
  split at read
  · cases read
  · rename_i found
    obtain ⟨rfl, rfl⟩ := spells_of_word read
    exact ⟨_, found, .null⟩
  · rename_i found
    obtain ⟨rfl, rfl⟩ := spells_of_word read
    exact ⟨_, found, .true⟩
  · rename_i found
    obtain ⟨rfl, rfl⟩ := spells_of_word read
    exact ⟨_, found, .false⟩
  · rename_i found
    obtain ⟨text, stringRead, rfl⟩ := ok_of_map read
    obtain ⟨spelling, cut, spelled⟩ := readString_spells stringRead
    exact ⟨spelling, found.trans cut, .string spelled⟩
  · rename_i found
    obtain ⟨number, magnitudeRead, rfl⟩ := ok_of_map read
    obtain ⟨text, rfl, magnitude⟩ := readMagnitude_spells magnitudeRead
    exact ⟨_, found, .number (.negative magnitude)⟩
  · rename_i found
    cases parts with
    | none => cases read
    | some takes =>
      obtain ⟨elements, listRead, rfl⟩ := ok_of_map read
      obtain ⟨inside, rfl, spelled⟩ := readList_spells takes listRead
      exact ⟨_, by simpa using found, .array rfl spelled⟩
  · rename_i found
    cases parts with
    | none => cases read
    | some takes =>
      obtain ⟨written, tableRead, rfl⟩ := ok_of_map read
      obtain ⟨inside, rfl, spelled⟩ := readTable_spells takes tableRead
      exact ⟨_, by simpa using found, .object rfl spelled⟩
  · rename_i found
    split at read
    · obtain ⟨number, magnitudeRead, rfl⟩ := ok_of_map read
      obtain ⟨text, cut, magnitude⟩ := readMagnitude_spells magnitudeRead
      exact ⟨text, found.trans cut, .number (.positive magnitude)⟩
    · cases read

theorem readWith_of_digit {chars more : List Char} {digit : Char}
    (starts : skipBlanks chars = digit :: more) (isDigit : digit.isDigit = Bool.true) :
    readWith nested chars =
      (readMagnitude Bool.false (digit :: more)).map fun read => (number read.1, read.2) := by
  unfold readWith
  simp only [starts]
  split
  -- every other branch is of a character that is no digit
  all_goals
    rename_i same
    cases same
    try cases isDigit
  rw [if_pos isDigit]

theorem SpellsWith.read
    (parts : Option.Rel (fun item spells => Takes item.read spells) nested part)
    {blanks text rest : List Char} {value : Json} (blank : IsBlanks blanks)
    (spelled : SpellsWith part text value) (follow : Unnumbered rest) :
    readWith nested (blanks ++ (text ++ rest)) = .ok (value, rest) := by
  have front : skipBlanks (blanks ++ (text ++ rest)) = text ++ rest := by
    rw [skipBlanks_append blank, starts_with.front spelled]
  generalize blanks ++ (text ++ rest) = chars at front
  cases spelled with
  | null => simp [readWith, front, readWord, Except.map]
  | true => simp [readWith, front, readWord, Except.map]
  | false => simp [readWith, front, readWord, Except.map]
  | number spelled =>
    cases spelled with
    | positive magnitude =>
      obtain ⟨digit, more, starts, isDigit⟩ := magnitude.starts
      have read := magnitude.read follow
      rw [starts, List.cons_append] at front read
      rw [readWith_of_digit front isDigit, read]
      rfl
    | negative magnitude =>
      simp only [readWith, front, List.cons_append, magnitude.read follow, Except.map]
  | string spelled =>
    obtain ⟨chars, starts, stringRead⟩ := spelled.read rest
    simp only [readWith, front, starts, stringRead, Except.map]
  | array given spelled =>
    subst given
    cases parts with
    | some takes =>
      simp only [readWith, front, List.cons_append, List.append_assoc, List.nil_append,
        spelled.list takes, Except.map]
  | object given spelled =>
    subst given
    cases parts with
    | some takes =>
      simp only [readWith, front, List.cons_append, List.append_assoc, List.nil_append,
        spelled.table takes, Except.map]

theorem takes_with (parts : Option.Rel (fun item spells => Takes item.read spells) nested part) :
    Takes (readWith nested) (SpellsWith part) :=
  ⟨starts_with, readWith_spells parts, SpellsWith.read parts⟩

theorem takes_reader (depth : Nat) : Takes (reader depth).read (Spells depth) := by
  induction depth with
  | zero => exact takes_with .none
  | succ depth ih => exact takes_with (.some ih)

end Json

end SchemaTypes
