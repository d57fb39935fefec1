import SchemaTypes.Batch.Source
import SchemaTypes.Files.Store

namespace SchemaTypes

section

variable {Source Content Error : Type} {read : Source → Except Error Content} {sources : List Source}

theorem mapM_fails_iff :
    (∃ error, sources.mapM read = .error error) ↔
      ∃ source ∈ sources, ∃ error, read source = .error error := by
  induction sources with
  | nil => simp [pure, Except.pure]
  | cons source sources ih =>
    cases first : read source with
    | error error => simp [List.mapM_cons, first, bind, Except.bind]
    | ok content =>
      cases others : sources.mapM read with
      | error error => simpa [List.mapM_cons, first, others, bind, Except.bind] using ih
      | ok contents =>
        simpa [List.mapM_cons, first, others, bind, Except.bind, pure, Except.pure] using ih

theorem mem_mapM {contents : List Content} (all : sources.mapM read = .ok contents)
    (content : Content) : content ∈ contents ↔ ∃ source ∈ sources, read source = .ok content := by
  induction sources generalizing contents with
  | nil =>
    cases all
    simp
  | cons source sources ih =>
    cases first : read source with
    | error error =>
      rw [List.mapM_cons, first] at all
      cases all
    | ok here =>
      cases others : sources.mapM read with
      | error error =>
        rw [List.mapM_cons, first, others] at all
        cases all
      | ok more =>
        rw [List.mapM_cons, first, others] at all
        cases all
        simp [first, ih others, eq_comm]

end

variable {files : Files}

section

variable {Content Other : Type}

theorem read_bind (first : ReaderM Files Content) (next : Content → ReaderM Files Other) :
    (first >>= next : ReaderM Files Other) files = next (first files) files :=
  rfl

theorem read_pure (content : Content) : (pure content : ReaderM Files Content) files = content :=
  rfl

end

def resolved (files : Files) (text : String) : Except Failure (List String) :=
  (resolvePattern text : ReaderM Files (Except Failure (List String))) files

def readAt (files : Files) (pointer : Option String) (path : String) : Except Failure Collection :=
  (readCollection pointer path : ReaderM Files (Except Failure Collection)) files

def fetched (files : Files) (source : FileSource) : Except Failure (List Collection) :=
  (source.fetch : ReaderM Files (Except Failure (List Collection))) files

def matchesOf (files : Files) (pattern : Pattern) : Matches :=
  (pattern.matching patternLevels : ReaderM Files Matches) files

theorem resolvePatterns_eq (texts : List String) :
    (resolvePatterns texts : ReaderM Files (Except Failure (List String))) files =
      (texts.mapM (resolved files)).map List.flatten := by
  induction texts with
  | nil => rfl
  | cons text texts ih =>
    rw [resolvePatterns, read_bind, List.mapM_cons, ← resolved]
    cases resolved files text with
    | error failure => rfl
    | ok paths =>
      simp only [read_bind, ih]
      cases texts.mapM (resolved files) <;> rfl

theorem readCollections_eq (pointer : Option String) (paths : List String) :
    (readCollections pointer paths : ReaderM Files (Except Failure (List Collection))) files =
      paths.mapM (readAt files pointer) := by
  induction paths with
  | nil => rfl
  | cons path paths ih =>
    rw [readCollections, read_bind, List.mapM_cons, ← readAt]
    cases readAt files pointer path with
    | error failure => rfl
    | ok collection =>
      simp only [read_bind, ih]
      cases paths.mapM (readAt files pointer) <;> rfl

theorem fetched_eq (source : FileSource) :
    fetched files source =
      (source.patterns.mapM (resolved files)).bind fun paths =>
        paths.flatten.mapM (readAt files source.pointer) := by
  rw [fetched, FileSource.fetch, read_bind, resolvePatterns_eq]
  cases source.patterns.mapM (resolved files) with
  | error failure => rfl
  | ok paths => exact readCollections_eq source.pointer paths.flatten

/-- A pattern that is none, that leads to a directory which cannot be listed, or that nothing matches. -/
def Unresolved (files : Files) (text : String) : Prop :=
  isPattern text = true ∧
    ((∃ fault, Pattern.ofText text = .error fault) ∨
      ∃ pattern, Pattern.ofText text = .ok pattern ∧
        ((∃ fault, Except.error fault ∈ matchesOf files pattern) ∨ matchesOf files pattern = []))

/-- A file that cannot be read, that is no text or whose text is no document. -/
def Unread (files : Files) (path : String) : Prop :=
  (∃ fault, files.readBytes path = .error fault) ∨
    ∃ bytes, files.readBytes path = .ok bytes ∧
      (String.fromUTF8? bytes = none ∨
        ∃ text error, String.fromUTF8? bytes = some text ∧ Json.readDocument text = .error error)

def FileSource.Faulty (files : Files) (source : FileSource) : Prop :=
  (∃ text ∈ source.patterns, Unresolved files text) ∨
    ∃ text ∈ source.patterns, ∃ paths, resolved files text = .ok paths ∧
      ∃ path ∈ paths, Unread files path

theorem firstFault_fails_iff {found : Matches} :
    (∃ failure, firstFault found = .error failure) ↔ ∃ fault, Except.error fault ∈ found := by
  rw [firstFault, mapM_fails_iff]
  constructor
  · rintro ⟨entry, inside, failure, failed⟩
    cases entry with
    | error fault => exact ⟨fault, inside⟩
    | ok path => cases failed
  · rintro ⟨fault, inside⟩
    exact ⟨.error fault, inside, _, rfl⟩

theorem firstFault_eq_nil {found : Matches} (all : firstFault found = .ok []) : found = [] := by
  rw [List.eq_nil_iff_forall_not_mem]
  intro entry inside
  cases entry with
  | error fault =>
    obtain ⟨failure, failed⟩ := firstFault_fails_iff.mpr ⟨fault, inside⟩
    rw [all] at failed
    cases failed
  | ok path =>
    have listed := (mem_mapM all path).mpr ⟨.ok path, inside, rfl⟩
    cases listed

theorem resolved_pattern {text : String} {pattern : Pattern} (wild : isPattern text = true)
    (parsed : Pattern.ofText text = .ok pattern) :
    resolved files text =
      match firstFault (matchesOf files pattern) with
      | .error failure => .error failure
      | .ok [] => .error (.noMatch text)
      | .ok paths => .ok paths := by
  rw [resolved, resolvePattern, if_pos wild, parsed]
  simp only
  rw [read_bind, ← matchesOf]
  cases firstFault (matchesOf files pattern) with
  | error failure => rfl
  | ok paths => cases paths <;> rfl

theorem resolved_fails_iff {text : String} :
    (∃ failure, resolved files text = .error failure) ↔ Unresolved files text := by
  by_cases wild : isPattern text = true
  · cases parsed : Pattern.ofText text with
    | error fault =>
      rw [resolved, resolvePattern, if_pos wild, parsed, Unresolved]
      simp [wild, parsed, read_pure]
    | ok pattern =>
      have faults := @firstFault_fails_iff (matchesOf files pattern)
      rw [resolved_pattern wild parsed, Unresolved]
      simp only [wild, parsed, true_and]
      cases first : firstFault (matchesOf files pattern) with
      | error failure =>
        have fault := faults.mp ⟨failure, first⟩
        simp [fault]
      | ok paths =>
        have faultless : ¬∃ fault, Except.error fault ∈ matchesOf files pattern := by
          intro fault
          obtain ⟨failure, failed⟩ := faults.mpr fault
          rw [first] at failed
          cases failed
        cases paths with
        | nil => simp [firstFault_eq_nil first]
        | cons path paths =>
          have found : matchesOf files pattern ≠ [] := by
            intro nothing
            rw [nothing] at first
            cases first
          simp [found, not_exists.mp faultless]
  · rw [resolved, resolvePattern, if_neg wild, Unresolved]
    simp [wild, read_pure]

theorem readAt_fails_iff {pointer : Option String} {path : String} :
    (∃ failure, readAt files pointer path = .error failure) ↔ Unread files path := by
  have bytes : (FileReader.readBytes path : ReaderM Files (Except FileFault ByteArray)) files =
      files.readBytes path := rfl
  rw [readAt, readCollection, readText, read_bind, read_bind, bytes, Unread]
  cases files.readBytes path with
  | error fault => simp [read_pure]
  | ok bytes =>
    cases decoded : String.fromUTF8? bytes with
    | none => simp [read_pure, decoded]
    | some text =>
      cases parsed : Json.readDocument text <;> simp [read_pure, decoded, parsed]

theorem fetched_fails_iff {source : FileSource} :
    (∃ failure, fetched files source = .error failure) ↔ source.Faulty files := by
  rw [fetched_eq, FileSource.Faulty]
  cases all : source.patterns.mapM (resolved files) with
  | error failure =>
    obtain ⟨text, listed, failed⟩ := mapM_fails_iff.mp ⟨failure, all⟩
    have unresolved := resolved_fails_iff.mp failed
    constructor
    · intro _
      exact Or.inl ⟨text, listed, unresolved⟩
    · intro _
      exact ⟨failure, rfl⟩
  | ok paths =>
    have resolves : ∀ text ∈ source.patterns, ¬Unresolved files text := by
      intro text listed unresolved
      obtain ⟨failure, failed⟩ := mapM_fails_iff.mpr ⟨text, listed, resolved_fails_iff.mpr unresolved⟩
      rw [all] at failed
      cases failed
    simp only [Except.bind, mapM_fails_iff, readAt_fails_iff, List.mem_flatten, mem_mapM all]
    constructor
    · rintro ⟨path, ⟨found, ⟨text, listed, same⟩, inside⟩, unread⟩
      exact Or.inr ⟨text, listed, found, same, path, inside, unread⟩
    · rintro (⟨text, listed, unresolved⟩ | ⟨text, listed, found, same, path, inside, unread⟩)
      · exact absurd unresolved (resolves text listed)
      · exact ⟨path, ⟨found, ⟨text, listed, same⟩, inside⟩, unread⟩

end SchemaTypes
