import SchemaTypes.Proofs.Grammar
import SchemaTypes.Proofs.LayerFields
import SchemaTypes.Proofs.Sources

/-!
Which texts are documents, and which are read as one. A value is read from the front of a text, so a text
is read as a document if it begins with one; what follows is neither refused nor kept. The texts of
configuration files are read to their end.
-/

namespace SchemaTypes

/-- The text is one value with blanks around it and nothing else. -/
def IsDocument : List Char → Json → Prop :=
  Padded (Json.Spells Json.depthLimit)

theorem isFinished_iff {chars : List Char} : isFinished chars = true ↔ IsBlanks chars := by
  rw [isFinished, List.isEmpty_iff]
  constructor
  · intro nothing
    obtain ⟨blanks, rfl, blank⟩ := cut_of_skipBlanks nothing
    rw [List.append_nil]
    exact blank
  · intro blank
    rw [← List.append_nil chars, skipBlanks_append blank]
    rfl

theorem readFront_of_isDocument {text : String} {front rest : List Char} {value : Json}
    (cut : text.toList = front ++ rest) (document : IsDocument front value) (follow : Unnumbered rest) :
    ∃ after, Json.readFront text = .ok (value, after ++ rest) ∧ IsBlanks after := by
  cases document with
  | @blanks before inner after _ blank spelled blank' =>
    refine ⟨after, ?_, blank'⟩
    rw [Json.readFront, cut, List.append_assoc, List.append_assoc]
    exact (Json.takes_reader Json.depthLimit).taken blank spelled (blank'.unnumbered follow)

theorem isDocument_of_readFront {text : String} {rest : List Char} {value : Json}
    (read : Json.readFront text = .ok (value, rest)) :
    ∃ front, text.toList = front ++ rest ∧ IsDocument front value := by
  obtain ⟨before, inner, cut, blank, spelled⟩ := (Json.takes_reader Json.depthLimit).spelled read
  refine ⟨before ++ (inner ++ []), ?_, .blanks blank spelled (List.forall_mem_nil _)⟩
  rw [cut, List.append_nil, List.append_assoc]

theorem isDocument_iff {text : String} {value : Json} :
    IsDocument text.toList value ↔ ∃ rest, Json.readFront text = .ok (value, rest) ∧ IsBlanks rest := by
  constructor
  · intro document
    obtain ⟨after, read, blank⟩ :=
      readFront_of_isDocument (List.append_nil _).symm document ⟨rfl, by simp⟩
    rw [List.append_nil] at read
    exact ⟨after, read, blank⟩
  · rintro ⟨rest, read, blank⟩
    obtain ⟨before, inner, cut, blank', spelled⟩ := (Json.takes_reader Json.depthLimit).spelled read
    rw [cut]
    exact .blanks blank' spelled blank

theorem isDocument_of_ofText? {text : String} {layer : ConfigLayer}
    (given : ConfigLayer.ofText? text = some layer) : ∃ value, IsDocument text.toList value := by
  obtain ⟨written, ⟨inside, rest, opened, table, finished⟩, _⟩ := ofText?_eq_some.mp given
  have read : Json.readWith (some innerReader) text.toList = .ok (Json.ofWritten written, rest) := by
    simp only [Json.readWith, opened, table, Except.map]
  exact ⟨_, isDocument_iff.mpr ⟨rest, read, isFinished_iff.mp finished⟩⟩

variable {files : Files}

theorem fetched_of_readDocument {path text : String} {pointer : Option String} {bytes : ByteArray}
    {value : Json} (plain : isPattern path = false) (stored : files.readBytes path = .ok bytes)
    (decoded : String.fromUTF8? bytes = some text) (read : Json.readDocument text = .ok value) :
    fetched files ⟨[path], pointer⟩ = .ok [⟨fileStem path, selectSchema pointer value⟩] := by
  have resolves : resolved files path = .ok [path] := by
    rw [resolved, resolvePattern, plain]
    rfl
  have found : (FileReader.readBytes path : ReaderM Files (Except FileFault ByteArray)) files =
      .ok bytes := stored
  have collected : readAt files pointer path = .ok ⟨fileStem path, selectSchema pointer value⟩ := by
    rw [readAt, readCollection, readText, read_bind, read_bind, found]
    simp only [decoded, read_pure, read]
  rw [fetched_eq]
  simp [resolves, collected, Except.bind, bind, pure, Except.pure]

/-- What is read as a document begins with one, and whatever follows that is dropped. Only if nothing but
blanks follows is the text itself a document, as the text of a layer has to be; a file is fetched either
way. -/
theorem document_read_from_front {text : String} {value : Json}
    (read : Json.readDocument text = .ok value) :
    ∃ front rest, text.toList = front ++ rest ∧ IsDocument front value ∧
      Json.readFront text = .ok (value, rest) ∧
      ((∃ other, IsDocument text.toList other) ↔ isFinished rest = true) ∧
      (isFinished rest = false → ConfigLayer.ofText? text = none) ∧
      ∀ files path pointer bytes, isPattern path = false → Files.readBytes files path = .ok bytes →
        String.fromUTF8? bytes = some text →
        fetched files ⟨[path], pointer⟩ = .ok [⟨fileStem path, selectSchema pointer value⟩] := by
  obtain ⟨rest, front⟩ : ∃ rest, Json.readFront text = .ok (value, rest) := by
    rw [Json.readDocument] at read
    cases result : Json.readFront text with
    | error => simp [result, Except.map] at read
    | ok found =>
      rw [result] at read
      cases read
      exact ⟨found.2, rfl⟩
  have whole : (∃ other, IsDocument text.toList other) ↔ isFinished rest = true := by
    rw [isFinished_iff]
    constructor
    · rintro ⟨other, document⟩
      obtain ⟨rest', read', blank⟩ := isDocument_iff.mp document
      rw [front] at read'
      cases read'
      exact blank
    · exact fun blank => ⟨value, isDocument_iff.mpr ⟨rest, front, blank⟩⟩
  obtain ⟨chars, cut, document⟩ := isDocument_of_readFront front
  refine ⟨chars, rest, cut, document, front, whole, fun unfinished => ?_, ?_⟩
  · cases given : ConfigLayer.ofText? text with
    | none => rfl
    | some layer =>
      rw [whole.mp (isDocument_of_ofText? given)] at unfinished
      cases unfinished
  · exact fun files path pointer bytes plain stored decoded =>
      fetched_of_readDocument plain stored decoded read

def strayText : String := "\x7b\"title\":\"A\"\x7d x"

def strayFront : Json := .object [("title", .string "A")]

def strayFiles : Files := ⟨[("a.json", .file 0)], fun _ => strayText.toUTF8, []⟩

theorem stray_dropped :
    Json.readDocument strayText = .ok strayFront ∧ (¬∃ other, IsDocument strayText.toList other) ∧
      ConfigLayer.ofText? strayText = none ∧
      fetched strayFiles ⟨["a.json"], none⟩ = .ok [⟨"a", some strayFront⟩] := by
  have read : Json.readDocument strayText = .ok strayFront := by decide +kernel
  have unread : Json.readFront strayText = .ok (strayFront, [' ', 'x']) := by decide +kernel
  have stem : fileStem "a.json" = "a" := by decide +kernel
  obtain ⟨front, rest, _, _, left, whole, refused, fetches⟩ := document_read_from_front read
  rw [unread] at left
  cases left
  refine ⟨read, fun document => absurd (whole.mp document) (by decide), refused (by decide), ?_⟩
  rw [← stem]
  exact fetches strayFiles "a.json" none strayText.toUTF8 (by decide +kernel) (by decide +kernel)
    (by decide +kernel)

end SchemaTypes
