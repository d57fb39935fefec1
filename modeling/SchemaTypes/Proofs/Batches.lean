import SchemaTypes.Batch.Run
import SchemaTypes.Proofs.FileChanges
import SchemaTypes.Proofs.Pointers
import SchemaTypes.Proofs.SchemaNodes
import Mathlib.Data.List.Nodup

/-!
The files that a run leaves. Each validator's text goes to the file of its title and stays there unless
a later validator has the same title, so a run loses no text just if validators of one title have one
text.
-/

namespace SchemaTypes

open Files

theorem pathParts_append (front back : List Char) :
    pathParts (String.ofList (front ++ '/' :: back)) =
      pathParts (String.ofList front) ++ pathParts (String.ofList back) := by
  simp only [pathParts, String.toList_ofList, splitChars_append_cons, List.filter_append,
    List.map_append]

theorem pathParts_name {name : String} (named : name ≠ "") (plain : '/' ∉ name.toList) :
    pathParts name = [name] := by
  have filled : name.toList.isEmpty = false := by
    simpa using named
  rw [pathParts, splitChars_of_not_mem plain]
  simp [filled]

theorem pathParts_joinPath {name : String} (named : name ≠ "") (plain : '/' ∉ name.toList)
    (directory : String) : pathParts (joinPath directory name) = pathParts directory ++ [name] := by
  unfold joinPath
  by_cases empty : directory = ""
  · subst empty
    have here : ("".isEmpty || endsWithSlash "") = true := by decide
    rw [if_pos here, String.empty_append, pathParts_name named plain]
    rfl
  by_cases closed : endsWithSlash directory = true
  · obtain ⟨front, ends⟩ := List.getLast?_eq_some_iff.mp (of_decide_eq_true closed)
    have spelled : directory = String.ofList (front ++ '/' :: []) := by
      rw [← ends, String.ofList_toList]
    have whole : directory ++ name = String.ofList (front ++ '/' :: name.toList) := by
      rw [spelled, ← String.toList_inj]
      simp [String.toList_append]
    rw [if_pos (by simp [closed]), whole, spelled, pathParts_append, pathParts_append,
      String.ofList_toList, pathParts_name named plain]
    simp [pathParts, splitChars]
  · have whole : directory ++ "/" ++ name =
        String.ofList (directory.toList ++ '/' :: name.toList) := by
      rw [← String.toList_inj]
      simp [String.toList_append]
    rw [if_neg (by simp [empty, closed]), whole, pathParts_append, String.ofList_toList,
      String.ofList_toList, pathParts_name named plain]

theorem getLast?_joinPath {name : String} {last : Char} (ends : name.toList.getLast? = some last)
    (directory : String) : (joinPath directory name).toList.getLast? = some last := by
  unfold joinPath
  split <;> simp only [String.toList_append, List.getLast?_append, ends, Option.some_or]

theorem joinPath_inj {directory name other : String} :
    joinPath directory name = joinPath directory other ↔ name = other := by
  unfold joinPath
  split <;> simp [String.append_right_inj]

theorem titlePath_injective (directory : String) : Function.Injective (titlePath directory) :=
  fun _ _ same => (String.append_left_inj ".ts").mp (joinPath_inj.mp same)

theorem slash_not_mem_title {title : String} (plain : isPlainTitle title = true) :
    '/' ∉ (title ++ ".ts").toList := by
  simp only [isPlainTitle, Bool.and_eq_true, List.all_eq_true, decide_eq_true_eq] at plain
  rw [String.toList_append, List.mem_append, not_or]
  exact ⟨fun inside => (plain.2 '/' inside).1 rfl, by decide⟩

theorem title_named (title : String) :
    title ++ ".ts" ≠ "" ∧ title ++ ".ts" ≠ "." ∧ title ++ ".ts" ≠ ".." := by
  refine ⟨?_, ?_, ?_⟩ <;>
  · intro same
    have ends := congrArg (·.toList.getLast?) same
    simp [String.toList_append, List.getLast?_append] at ends

theorem pathSteps_titlePath {title : String} (plain : isPlainTitle title = true) (directory : String) :
    pathSteps (titlePath directory title) = pathParts directory ++ [title ++ ".ts"] := by
  have ends : (titlePath directory title).toList.getLast? = some 's' :=
    getLast?_joinPath (by simp [String.toList_append, List.getLast?_append]) directory
  have unclosed : endsWithSlash (titlePath directory title) = false := by
    simp [endsWithSlash, ends]
  rw [pathSteps, unclosed, if_neg Bool.false_ne_true, titlePath,
    pathParts_joinPath (title_named title).1 (slash_not_mem_title plain)]

structure IsFolder (files : Files) (folder : String) (directory : Place) : Prop where
  leads : Leads files.form? maxLinks (files.origin folder) (pathParts folder) directory
  there : files.form? directory = some .directory

/--
The file is that of the title: the path leads to it, by an entry in the directory of the folder that is
a name of the file or a link.
-/
structure IsTitleFile (files : Files) (folder title : String) (id : FileId) : Prop where
  found : files.fileAt? (titlePath folder title) = some id
  child : ∃ directory, IsFolder files folder directory ∧
    (files.form? (directory ++ [title ++ ".ts"]) = some (.file id) ∨
      ∃ target, files.form? (directory ++ [title ++ ".ts"]) = some (.link target))

/-- In the directory of the folder no name is a symbolic link, and no file has two names. -/
structure UnlinkedIn (files : Files) (folder : String) : Prop where
  links : ∀ directory name target, IsFolder files folder directory →
    files.form? (directory ++ [name]) ≠ some (.link target)
  names : ∀ directory name other id, IsFolder files folder directory →
    files.form? (directory ++ [name]) = some (.file id) →
      files.form? (directory ++ [other]) = some (.file id) → name = other

theorem isAbsolute_titlePath {title : String} (plain : isPlainTitle title = true) (folder : String) :
    isAbsolute (titlePath folder title) = isAbsolute folder := by
  unfold titlePath joinPath
  by_cases empty : folder = ""
  · subst empty
    have unslashed : (title ++ ".ts").toList.head? ≠ some '/' := fun first =>
      slash_not_mem_title plain (List.mem_of_mem_head? first)
    have here : ("".isEmpty || endsWithSlash "") = true := by decide
    rw [if_pos here, String.empty_append, isAbsolute, decide_eq_false unslashed]
    rfl
  · have first : ∀ text, (folder ++ text).toList.head? = folder.toList.head? := by
      intro text
      rw [String.toList_append]
      exact List.head?_append_of_ne_nil _ (by simpa using empty)
    split
    · rw [isAbsolute, isAbsolute, first]
    · rw [isAbsolute, isAbsolute, String.append_assoc, first]

theorem UnlinkedIn.of_unlinked {files : Files} {folder : String} (unlinked : files.Unlinked) :
    UnlinkedIn files folder where
  links _ _ target _ := unlinked.links _ target
  names _ _ _ id _ first second :=
    List.singleton_inj.mp (List.append_cancel_left (unlinked.names _ _ id first second))

section

variable {files : Files} {folder title other : String} {id : FileId}

theorem isTitleFile_of_fileAt? (standing : files.Standing) (plain : isPlainTitle title = true)
    (found : files.fileAt? (titlePath folder title) = some id) : IsTitleFile files folder title id := by
  obtain ⟨place, reaches, file⟩ := (fileAt?_iff standing).mp found
  have leads := reaches.leads
  have origin : files.origin (titlePath folder title) = files.origin folder := by
    rw [Files.origin, Files.origin, originOf, originOf, isAbsolute_titlePath plain]
  rw [pathSteps_titlePath plain, origin] at leads
  obtain ⟨directory, above, there, rfl | linked⟩ := leads.last (title_named title).2
  · exact ⟨found, directory, ⟨above, there⟩, Or.inl file⟩
  · exact ⟨found, directory, ⟨above, there⟩, Or.inr linked⟩

theorem IsTitleFile.title_eq (unlinked : UnlinkedIn files folder) (file : IsTitleFile files folder title id)
    (file' : IsTitleFile files folder other id) : title = other := by
  obtain ⟨directory, is, own | ⟨target, linked⟩⟩ := file.child
  · obtain ⟨directory', is', own' | ⟨target, linked⟩⟩ := file'.child
    · rw [← is.leads.unique is'.leads] at own'
      exact (String.append_left_inj ".ts").mp (unlinked.names directory _ _ id is own own')
    · exact absurd linked (unlinked.links directory' _ target is')
  · exact absurd linked (unlinked.links directory _ target is)

end

section

variable {folder title text : String} {path : Option String} {session after : Session}

theorem write_cases {result : Except Failure (Option String)}
    (wrote : ((Sink.directory folder).write title text : StateM Session (Except Failure (Option String)))
      session = (result, after)) :
    (isPlainTitle title = false ∧ result = .error (.unsafeTitle title) ∧ after = session) ∨
      (∃ path fault, isPlainTitle title = true ∧ result = .error (.file path fault) ∧
        after = { session with files := (session.files.makeDirectories folder).1 }) ∨
      ∃ files, isPlainTitle title = true ∧ result = .ok (some (titlePath folder title)) ∧
        (session.files.makeDirectories folder).1.writeBytes (titlePath folder title) text.toUTF8 =
          .ok files ∧
        after = { session with files } := by
  by_cases plain : isPlainTitle title = true
  · simp only [Sink.write, if_pos plain, bind, StateT.bind, FileWriter.makeDirectories,
      FileWriter.writeText] at wrote
    cases made : (session.files.makeDirectories folder).2 with
    | error fault =>
      simp only [made] at wrote
      cases wrote
      exact Or.inr (Or.inl ⟨folder, fault, plain, rfl, rfl⟩)
    | ok nothing =>
      simp only [made, StateT.bind] at wrote
      cases ready : (session.files.makeDirectories folder).1.writeBytes (titlePath folder title)
          text.toUTF8 with
      | error fault =>
        simp only [ready] at wrote
        cases wrote
        exact Or.inr (Or.inl ⟨_, fault, plain, rfl, rfl⟩)
      | ok files =>
        simp only [ready] at wrote
        cases wrote
        exact Or.inr (Or.inr ⟨files, plain, rfl, rfl, rfl⟩)
  · simp only [Sink.write, if_neg plain] at wrote
    cases wrote
    exact Or.inl ⟨Bool.eq_false_iff.mpr plain, rfl, rfl⟩

theorem write_directory (standing : session.files.Standing)
    (wrote : ((Sink.directory folder).write title text : StateM Session (Except Failure (Option String)))
      session = (.ok path, after)) :
    isPlainTitle title = true ∧ path = some (titlePath folder title) ∧
      ∃ id, after.files.fileAt? (titlePath folder title) = some id ∧
        session.files.Writes id text.toUTF8 after.files := by
  rcases write_cases wrote with ⟨_, same, _⟩ | ⟨_, _, _, same, _⟩ | ⟨files, plain, same, ready, rfl⟩
  · cases same
  · cases same
  · have grows := grows_makeDirectories session.files folder
    obtain ⟨id, found, writes⟩ := writes_of_writeBytes (grows.standing standing) ready
    exact ⟨plain, Except.ok.inj same, id, found,
      writes.of_sameContents grows (sameContents_makeDirectories session.files folder)⟩

end

section

variable {Key : Type} [BEq Key] [LawfulBEq Key]

def lastText? (outputs : List (Key × String)) (key : Key) : Option String :=
  outputs.reverse.lookup key

omit [LawfulBEq Key] in
theorem lastText?_append (outputs later : List (Key × String)) (key : Key) :
    lastText? (outputs ++ later) key = (lastText? later key).or (lastText? outputs key) := by
  rw [lastText?, List.reverse_append, List.lookup_append, lastText?, lastText?]

theorem mem_of_lastText? {outputs : List (Key × String)} {key : Key} {text : String}
    (last : lastText? outputs key = some text) : (key, text) ∈ outputs :=
  List.mem_reverse.mp (mem_of_lookup last)

theorem lastText?_eq_none {outputs : List (Key × String)} {key : Key} :
    lastText? outputs key = none ↔ ∀ output ∈ outputs, output.1 ≠ key := by
  rw [lastText?, List.lookup_eq_none_iff]
  simp [eq_comm (a := key)]

theorem exists_lastText? {outputs : List (Key × String)} {output : Key × String}
    (inside : output ∈ outputs) : ∃ text, lastText? outputs output.1 = some text := by
  cases last : lastText? outputs output.1 with
  | some text => exact ⟨text, rfl⟩
  | none => exact absurd rfl (lastText?_eq_none.mp last output inside)

theorem lastText?_map {Other : Type} [BEq Other] [LawfulBEq Other] (rename : Key → Other)
    {outputs : List (Key × String)} {key : Key}
    (apart : ∀ output ∈ outputs, rename output.1 = rename key → output.1 = key) :
    lastText? (outputs.map fun output => (rename output.1, output.2)) (rename key) =
      lastText? outputs key := by
  induction outputs with
  | nil => rfl
  | cons output outputs ih =>
    have others := ih fun other inside => apart other (List.mem_cons_of_mem _ inside)
    have first : lastText? [(rename output.1, output.2)] (rename key) = lastText? [output] key := by
      by_cases same : output.1 = key
      · obtain ⟨own, text⟩ := output
        obtain rfl : own = key := same
        simp [lastText?]
      · have differs : rename output.1 ≠ rename key := fun equal =>
          same (apart output List.mem_cons_self equal)
        rw [lastText?_eq_none.mpr (by simpa using differs), lastText?_eq_none.mpr (by simpa using same)]
    rw [List.map_cons, ← List.singleton_append, lastText?_append, others, first,
      ← List.singleton_append (l := outputs), lastText?_append]

end

/-- Texts by the files that the paths of their titles lead to. -/
def byFile (files : Files) (folder : String) (outputs : List (String × String)) :
    List (Option FileId × String) :=
  outputs.map fun output => (files.fileAt? (titlePath folder output.1), output.2)

/--
What writing texts under their titles leaves: each file that a title leads to has the last of the texts
written there, under whatever title, and every other file is as it was.
-/
structure Leaves (folder : String) (outputs : List (String × String)) (before after : Files) : Prop where
  plain : ∀ output ∈ outputs, isPlainTitle output.1 = true
  grows : before.Grows after
  reached : ∀ output ∈ outputs, ∃ id, after.fileAt? (titlePath folder output.1) = some id
  last : ∀ id text, lastText? (byFile after folder outputs) (some id) = some text →
    after.contents id = text.toUTF8
  others : ∀ id, lastText? (byFile after folder outputs) (some id) = none →
    after.contents id = before.contents id ∧
      ∀ place, after.named? place = some id → before.named? place = some id
  unlinked : before.Unlinked → after.Unlinked

section

variable {folder : String} {outputs later : List (String × String)} {before between after : Files}

theorem leaves_of_sameContents (grows : before.Grows after) (same : before.SameContents after) :
    Leaves folder [] before after where
  plain := by simp
  grows := grows
  reached := by simp
  last := by simp [lastText?, byFile]
  others id _ := ⟨by rw [same.contents], fun place named => by rw [← same.named, named]⟩
  unlinked unlinked := unlinked.of_same grows same.named

theorem Leaves.byFile_eq (leaves : Leaves folder outputs before between) (grows : between.Grows after)
    (standing : before.Standing) : byFile after folder outputs = byFile between folder outputs := by
  apply List.map_congr_left
  intro output inside
  obtain ⟨id, found⟩ := leaves.reached output inside
  rw [found, grows.fileAt? (leaves.grows.standing standing) found]

theorem leaves_append (standing : before.Standing) (first : Leaves folder outputs before between)
    (second : Leaves folder later between after) : Leaves folder (outputs ++ later) before after := by
  have split : ∀ id, lastText? (byFile after folder (outputs ++ later)) id =
      (lastText? (byFile after folder later) id).or (lastText? (byFile between folder outputs) id) := by
    intro id
    rw [byFile, List.map_append, lastText?_append, ← byFile, ← byFile,
      first.byFile_eq second.grows standing]
  refine ⟨?_, first.grows.trans second.grows, ?_, ?_, ?_, fun apart => second.unlinked (first.unlinked apart)⟩
  · intro output inside
    rcases List.mem_append.mp inside with early | late
    · exact first.plain output early
    · exact second.plain output late
  · intro output inside
    rcases List.mem_append.mp inside with early | late
    · obtain ⟨id, found⟩ := first.reached output early
      exact ⟨id, second.grows.fileAt? (first.grows.standing standing) found⟩
    · exact second.reached output late
  · intro id text last
    rw [split] at last
    cases latest : lastText? (byFile after folder later) (some id) with
    | some other =>
      rw [latest, Option.some_or, Option.some.injEq] at last
      rw [← last]
      exact second.last id other latest
    | none =>
      rw [latest, Option.none_or] at last
      rw [(second.others id latest).1]
      exact first.last id text last
  · intro id absent
    rw [split, Option.or_eq_none_iff] at absent
    obtain ⟨content, names⟩ := second.others id absent.1
    obtain ⟨content', names'⟩ := first.others id absent.2
    exact ⟨content.trans content', fun place named => names' place (names place named)⟩

theorem Leaves.readBytes (leaves : Leaves folder outputs before after) {output : String × String}
    (inside : output ∈ outputs) :
    ∃ text, lastText? (byFile after folder outputs) (after.fileAt? (titlePath folder output.1)) = some text ∧
      after.readBytes (titlePath folder output.1) = .ok text.toUTF8 := by
  obtain ⟨id, found⟩ := leaves.reached output inside
  have listed : (after.fileAt? (titlePath folder output.1), output.2) ∈ byFile after folder outputs :=
    List.mem_map.mpr ⟨output, inside, rfl⟩
  obtain ⟨text, last⟩ := exists_lastText? listed
  refine ⟨text, last, readBytes_iff.mpr ⟨id, found, leaves.last id text ?_⟩⟩
  rw [← found]
  exact last

theorem Leaves.content? (leaves : Leaves folder outputs before after) {place : Place}
    (apart : ∀ output ∈ outputs, ∀ id, after.fileAt? (titlePath folder output.1) = some id →
      after.named? place ≠ some id) : after.content? place = before.content? place := by
  apply leaves.grows.content?
  intro id named
  have unwritten : lastText? (byFile after folder outputs) (some id) = none := by
    rw [lastText?_eq_none]
    intro listed inside same
    obtain ⟨output, inside', rfl⟩ := List.mem_map.mp inside
    exact apart output inside' id same named
  obtain ⟨content, names⟩ := leaves.others id unwritten
  exact ⟨content, names place named⟩

theorem Leaves.title_eq (leaves : Leaves folder outputs before after) (standing : before.Standing)
    (unlinked : UnlinkedIn after folder) {output other : String × String} (inside : output ∈ outputs)
    (inside' : other ∈ outputs)
    (same : after.fileAt? (titlePath folder output.1) = after.fileAt? (titlePath folder other.1)) :
    output.1 = other.1 := by
  obtain ⟨id, found⟩ := leaves.reached output inside
  have standing' := leaves.grows.standing standing
  have file := isTitleFile_of_fileAt? standing' (leaves.plain output inside) found
  exact file.title_eq unlinked
    (isTitleFile_of_fileAt? standing' (leaves.plain other inside') (same ▸ found))

theorem Leaves.readBytes_of_unlinked (leaves : Leaves folder outputs before after)
    (standing : before.Standing) (unlinked : UnlinkedIn after folder) {title text : String}
    (last : lastText? outputs title = some text) :
    after.readBytes (titlePath folder title) = .ok text.toUTF8 := by
  have inside := mem_of_lastText? last
  have apart : ∀ output ∈ outputs, after.fileAt? (titlePath folder output.1) =
      after.fileAt? (titlePath folder title) → output.1 = title := by
    intro output inside' same
    exact leaves.title_eq standing unlinked inside' inside same
  obtain ⟨other, latest, read⟩ := leaves.readBytes inside
  have same := lastText?_map (fun title => after.fileAt? (titlePath folder title)) apart
  rw [← byFile, latest, last, Option.some.injEq] at same
  rw [read, same]

end

section

variable {folder : String} {session after : Session}

theorem leaves_write {title text : String} {path : Option String}
    (standing : session.files.Standing)
    (wrote : ((Sink.directory folder).write title text :
      StateM Session (Except Failure (Option String))) session = (.ok path, after)) :
    path = some (titlePath folder title) ∧
      Leaves folder [(title, text)] session.files after.files := by
  obtain ⟨plain, same, id, found, writes⟩ := write_directory standing wrote
  have listed : byFile after.files folder [(title, text)] = [(some id, text)] := by
    rw [byFile, List.map_singleton, found]
  refine ⟨same, by simpa using plain, writes.grows, ?_, ?_, ?_, writes.unlinked⟩
  · intro output inside
    obtain rfl := List.mem_singleton.mp inside
    exact ⟨id, found⟩
  · intro other text' last
    rw [listed] at last
    obtain ⟨here, rfl⟩ := Prod.mk.inj (List.mem_singleton.mp (mem_of_lastText? last))
    rw [Option.some.inj here]
    exact writes.written
  · intro other absent
    rw [listed] at absent
    have differs : other ≠ id := by
      rintro rfl
      exact lastText?_eq_none.mp absent _ (List.mem_singleton_self _) rfl
    exact ⟨writes.others other differs, fun place => writes.names place other differs⟩

def outputsOf (options : Options) (collections : List Collection) :
    Except Failure (List (String × String)) :=
  (collections.filterMap fun collection => collection.schema.map (collection.name, ·)).mapM
    fun validator => compileCollection options validator.1 validator.2

theorem outputsOf_cons (options : Options) (name : String) (schema : Json)
    (collections : List Collection) :
    outputsOf options (⟨name, some schema⟩ :: collections) =
      (compileCollection options name schema).bind fun output =>
        (outputsOf options collections).map (output :: ·) := by
  simp [outputsOf, bind, pure, Except.pure, Except.bind, Except.map]

section

variable {options : Options} {sink : Sink} {name title text : String} {schema : Json}
  {session between : Session}

theorem runCollections_uncompiled {failure : Failure}
    (failed : compileCollection options name schema = .error failure) (report : Report)
    (later : List Collection) :
    (runCollections options sink report (⟨name, some schema⟩ :: later) :
      StateM Session (Except Failure Report)) session = (.error failure, session) := by
  simp only [runCollections, failed]
  rfl

theorem runCollections_unwritten {failure : Failure}
    (made : compileCollection options name schema = .ok (title, text))
    (failed : (sink.write title text : StateM Session (Except Failure (Option String))) session =
      (.error failure, between))
    (report : Report) (later : List Collection) :
    (runCollections options sink report (⟨name, some schema⟩ :: later) :
      StateM Session (Except Failure Report)) session = (.error failure, between) := by
  simp only [runCollections, made, bind, StateT.bind, failed]
  rfl

theorem runCollections_written {path : Option String}
    (made : compileCollection options name schema = .ok (title, text))
    (wrote : (sink.write title text : StateM Session (Except Failure (Option String))) session =
      (.ok path, between))
    (report : Report) (later : List Collection) :
    (runCollections options sink report (⟨name, some schema⟩ :: later) :
        StateM Session (Except Failure Report)) session =
      (runCollections options sink (report.count path) later :
        StateM Session (Except Failure Report)) between := by
  simp only [runCollections, made, bind, StateT.bind, wrote]

end

theorem runCollections_outputs {options : Options} {collections : List Collection}
    {report final : Report} (standing : session.files.Standing)
    (ran : (runCollections options (.directory folder) report collections :
      StateM Session (Except Failure Report)) session = (.ok final, after)) :
    ∃ outputs, outputsOf options collections = .ok outputs ∧
      final.written = report.written ++ outputs.map (fun output => titlePath folder output.1) ∧
      final.compiled = report.compiled + outputs.length ∧
      Leaves folder outputs session.files after.files := by
  induction collections generalizing report session with
  | nil =>
    cases ran
    exact ⟨[], rfl, (List.append_nil _).symm, rfl, leaves_of_sameContents (.refl _) (.refl _)⟩
  | cons collection collections ih =>
    obtain ⟨name, validator⟩ := collection
    cases validator with
    | none =>
      have later := @ih session (report.skip name) standing ran
      exact later
    | some schema =>
      cases made : compileCollection options name schema with
      | error failure =>
        rw [runCollections_uncompiled made] at ran
        cases ran
      | ok output =>
        obtain ⟨title, text⟩ := output
        cases wrote : ((Sink.directory folder).write title text :
            StateM Session (Except Failure (Option String))) session with
        | mk result between =>
          cases result with
          | error failure =>
            rw [runCollections_unwritten made wrote] at ran
            cases ran
          | ok path =>
            rw [runCollections_written made wrote] at ran
            obtain ⟨rfl, first⟩ := leaves_write standing wrote
            obtain ⟨outputs, produced, written, compiled, later⟩ := ih (first.grows.standing standing) ran
            refine ⟨(title, text) :: outputs, ?_, ?_, ?_, leaves_append standing first later⟩
            · rw [outputsOf_cons, made, produced]
              rfl
            · rw [written]
              simp [Report.count]
            · have counted : (report.count (some (titlePath folder title))).compiled =
                  report.compiled + 1 := rfl
              rw [compiled, counted, List.length_cons]
              omega

/-- The text of every output is in the file that the path of its title leads to. -/
def Kept (files : Files) (folder : String) (outputs : List (String × String)) : Prop :=
  ∀ output ∈ outputs, files.readBytes (titlePath folder output.1) = .ok output.2.toUTF8

theorem Leaves.kept_iff {outputs : List (String × String)} {before after : Files}
    (leaves : Leaves folder outputs before after) :
    Kept after folder outputs ↔ ∀ output ∈ outputs, ∀ other ∈ outputs,
      after.fileAt? (titlePath folder output.1) = after.fileAt? (titlePath folder other.1) →
        output.2 = other.2 := by
  constructor
  · intro kept output inside other inside' same
    obtain ⟨id, found, content⟩ := readBytes_iff.mp (kept output inside)
    obtain ⟨id', found', content'⟩ := readBytes_iff.mp (kept other inside')
    rw [found, found', Option.some.injEq] at same
    rw [same, content'] at content
    exact (String.toByteArray_inj.mp content).symm
  · intro agree output inside
    obtain ⟨text, last, read⟩ := leaves.readBytes inside
    obtain ⟨other, inside', same⟩ := List.mem_map.mp (mem_of_lastText? last)
    obtain ⟨file, rfl⟩ := Prod.mk.inj same
    rw [read, agree output inside other inside' file.symm]

/--
A run that succeeds writes one file for each validator and leaves in each file that a title leads to the
last text written there. So the text of every validator is kept just if those of one file agree, and the
paths differ just if the titles do. Without links a file is that of one title.
-/
theorem batch_kept {options : Options} {collections : List Collection} {report : Report}
    (standing : session.files.Standing)
    (ran : (runFetched options (.directory folder) (.ok collections) :
      StateM Session (Except Failure Report)) session = (.ok report, after)) :
    ∃ outputs, outputsOf options collections = .ok outputs ∧
      report.written = outputs.map (fun output => titlePath folder output.1) ∧
      report.compiled = outputs.length ∧
      (∀ output ∈ outputs, ∃ text,
        lastText? (byFile after.files folder outputs)
            (after.files.fileAt? (titlePath folder output.1)) = some text ∧
          after.files.readBytes (titlePath folder output.1) = .ok text.toUTF8) ∧
      (Kept after.files folder outputs ↔ ∀ output ∈ outputs, ∀ other ∈ outputs,
        after.files.fileAt? (titlePath folder output.1) =
          after.files.fileAt? (titlePath folder other.1) → output.2 = other.2) ∧
      (report.written.Nodup ↔ (outputs.map (·.1)).Nodup) ∧
      (session.files.Unlinked → UnlinkedIn after.files folder) ∧
      (UnlinkedIn after.files folder →
        (∀ title text, lastText? outputs title = some text →
          after.files.readBytes (titlePath folder title) = .ok text.toUTF8) ∧
        (Kept after.files folder outputs ↔
          ∀ output ∈ outputs, ∀ other ∈ outputs, output.1 = other.1 → output.2 = other.2)) := by
  obtain ⟨outputs, produced, written, compiled, leaves⟩ := runCollections_outputs standing ran
  have paths : report.written = (outputs.map (·.1)).map (titlePath folder) := by
    rw [written, List.map_map]
    rfl
  refine ⟨outputs, produced, written, ?_, fun output => leaves.readBytes, leaves.kept_iff, ?_,
    fun unlinked => .of_unlinked (leaves.unlinked unlinked), ?_⟩
  · simpa [Report.empty] using compiled
  · rw [paths]
    exact List.nodup_map_iff (titlePath_injective folder)
  · intro unlinked
    refine ⟨fun title text => leaves.readBytes_of_unlinked standing unlinked, ?_⟩
    rw [leaves.kept_iff]
    constructor
    · intro agree output inside other inside' same
      exact agree output inside other inside' (by rw [same])
    · intro agree output inside other inside' same
      exact agree output inside other inside' (leaves.title_eq standing unlinked inside inside' same)

end

def sharedTitle : List Collection := [
  ⟨"staff", some (.object [("title", .string "User"), ("properties", .object [
    ("name", .object [("bsonType", .string "string")])])])⟩,
  ⟨"guests", some (.object [("title", .string "User"), ("properties", .object [
    ("visits", .object [("bsonType", .string "number")])])])⟩]

def bannerlessOptions : Options := { Options.standard with banner := [] }

def emptySession : Session := ⟨⟨[], fun _ => .empty, []⟩, ""⟩

theorem form?_empty (place : Place) :
    emptySession.files.form? place = if place = [] then some .directory else none := by
  cases place <;> rfl

theorem unlinked_empty : emptySession.files.Unlinked where
  links place target there := by
    rw [form?_empty] at there
    split at there <;> cases there
  names place other id there := by
    rw [form?_empty] at there
    split at there <;> cases there

def sharedTitleRun : Except Failure Report × Session :=
  (runFetched bannerlessOptions (.directory "out") (.ok sharedTitle) :
    StateM Session (Except Failure Report)) emptySession

theorem sharedTitle_outputs : outputsOf bannerlessOptions sharedTitle = .ok [
    ("User", "export interface User \x7b\n  name?: string;\n  [k: string]: unknown;\n\x7d\n"),
    ("User", "export interface User \x7b\n  visits?: number;\n  [k: string]: unknown;\n\x7d\n")] := by
  decide

theorem sharedTitle_report :
    sharedTitleRun.1 = .ok ⟨["out/User.ts", "out/User.ts"], 2, []⟩ := by
  decide +kernel

/-- Of two texts under one title only the later is left, and the report counts both. -/
theorem sharedTitle_loses :
    sharedTitleRun.1 = .ok ⟨["out/User.ts", "out/User.ts"], 2, []⟩ ∧
      sharedTitleRun.2.files.readBytes "out/User.ts" = .ok
        "export interface User \x7b\n  visits?: number;\n  [k: string]: unknown;\n\x7d\n".toUTF8 := by
  have standing : emptySession.files.Standing := rfl
  have ran : sharedTitleRun = (.ok ⟨["out/User.ts", "out/User.ts"], 2, []⟩, sharedTitleRun.2) := by
    rw [← sharedTitle_report]
  have path : titlePath "out" "User" = "out/User.ts" := by decide +kernel
  obtain ⟨outputs, produced, _, _, _, _, _, unlinked, kept⟩ := batch_kept standing ran
  rw [sharedTitle_outputs, Except.ok.injEq] at produced
  subst produced
  have left := (kept (unlinked unlinked_empty)).1 "User" _ rfl
  rw [path] at left
  exact ⟨sharedTitle_report, left⟩

end SchemaTypes
