import SchemaTypes.Proofs.Batches
import SchemaTypes.Proofs.Sources

/-!
Runs that end early. The first collection that has a schema but no title, no types or no file ends the
run with its failure, and what has been written and printed by then is what a run over the collections
before it writes and prints. A run that nothing ends writes the text of every schema, in order.
-/

namespace SchemaTypes

/-- The same has been printed and the same files have been written. -/
structure SameOutput (session other : Session) : Prop where
  printed : other.printed = session.printed
  contents : session.files.SameContents other.files

variable {options : Options} {sink : Sink} {session after : Session}

/-- Writing that fails writes nothing, although it may have made directories. -/
theorem sameOutput_of_unwritten {title text : String} {failure : Failure}
    (failed : (sink.write title text : StateM Session (Except Failure (Option String))) session =
      (.error failure, after)) : SameOutput session after := by
  cases sink with
  | standardOutput => cases failed
  | directory folder =>
    rcases write_cases failed with ⟨_, _, rfl⟩ | ⟨_, _, _, _, rfl⟩ | ⟨_, _, same, _⟩
    · exact ⟨rfl, .refl _⟩
    · exact ⟨rfl, Files.sameContents_makeDirectories session.files folder⟩
    · cases same

structure Produces (options : Options) (schema : Json) (output : String × String) : Prop where
  titled : (schema.member? "title").bind Json.string? = some output.1
  typed : typeModule schema.annotate "" (String.intercalate "\n" (bannerLines schema options))
    options.flags = .ok output.2

/-- What ends a run at a collection: its schema has no title, no types or no file. -/
inductive Stops (options : Options) (sink : Sink) (session : Session) : Collection → Failure → Prop
  | untitled {name : String} {schema : Json}
      (absent : (schema.member? "title").bind Json.string? = none) :
      Stops options sink session ⟨name, some schema⟩ (.missingTitle name)
  | malformed {name title : String} {schema : Json} {malformed : Malformed}
      (titled : (schema.member? "title").bind Json.string? = some title)
      (untyped : compile schema options.toLayer = .error malformed) :
      Stops options sink session ⟨name, some schema⟩ (.malformed name malformed)
  | unwritten {name title text : String} {schema : Json} {failure : Failure} {ended : Session}
      (produces : Produces options schema (title, text))
      (failed : (sink.write title text : StateM Session (Except Failure (Option String))) session =
        (.error failure, ended)) :
      Stops options sink session ⟨name, some schema⟩ failure

theorem compileCollection_eq (name : String) (schema : Json) :
    compileCollection options name schema =
      match (schema.member? "title").bind Json.string? with
      | none => .error (.missingTitle name)
      | some title =>
        match compile schema options.toLayer with
        | .ok text => .ok (title, text)
        | .error malformed => .error (.malformed name malformed) := by
  rw [compileCollection, schemaTitle]
  cases (schema.member? "title").bind Json.string? with
  | none => rfl
  | some title => cases compile schema options.toLayer <;> rfl

theorem compileCollection_eq_ok {name : String} {schema : Json} {output : String × String} :
    compileCollection options name schema = .ok output ↔ Produces options schema output := by
  rw [compileCollection_eq]
  constructor
  · intro compiled
    split at compiled
    · cases compiled
    · rename_i title titled
      split at compiled
      · rename_i text typed
        cases compiled
        exact ⟨titled, typed⟩
      · cases compiled
  · rintro ⟨titled, typed⟩
    have typed : compile schema options.toLayer = .ok output.2 := typed
    simp only [titled, typed]

theorem stops_of_uncompiled {name : String} {schema : Json} {failure : Failure}
    (failed : compileCollection options name schema = .error failure) :
    Stops options sink session ⟨name, some schema⟩ failure := by
  rw [compileCollection_eq] at failed
  split at failed
  · rename_i absent
    cases failed
    exact .untitled absent
  · rename_i title titled
    split at failed
    · cases failed
    · rename_i malformed untyped
      cases failed
      exact .malformed titled untyped

theorem runCollections_append (report : Report) (before later : List Collection) :
    (runCollections options sink report (before ++ later) :
        StateM Session (Except Failure Report)) session =
      match (runCollections options sink report before :
          StateM Session (Except Failure Report)) session with
      | (.ok report, reached) =>
        (runCollections options sink report later : StateM Session (Except Failure Report)) reached
      | (.error failure, ended) => (.error failure, ended) := by
  induction before generalizing report session with
  | nil => rfl
  | cons collection before ih =>
    obtain ⟨name, schema⟩ := collection
    cases schema with
    | none => exact ih (report.skip name)
    | some schema =>
      rw [List.cons_append]
      cases made : compileCollection options name schema with
      | error failure => rw [runCollections_uncompiled made, runCollections_uncompiled made]
      | ok output =>
        obtain ⟨title, text⟩ := output
        cases wrote : (sink.write title text :
            StateM Session (Except Failure (Option String))) session with
        | mk result between =>
          cases result with
          | error failure =>
            rw [runCollections_unwritten made wrote, runCollections_unwritten made wrote]
          | ok path =>
            rw [runCollections_written made wrote, runCollections_written made wrote]
            exact ih (report.count path)

theorem runCollections_of_stops {collection : Collection} {failure : Failure}
    (stops : Stops options sink session collection failure) :
    ∃ ended, SameOutput session ended ∧ ∀ report later,
      (runCollections options sink report (collection :: later) :
        StateM Session (Except Failure Report)) session = (.error failure, ended) := by
  have unchanged : SameOutput session session := ⟨rfl, .refl session.files⟩
  cases stops with
  | @untitled name schema absent =>
    have failed : compileCollection options name schema = .error (.missingTitle name) := by
      rw [compileCollection_eq, absent]
    exact ⟨session, unchanged, runCollections_uncompiled failed⟩
  | @malformed name title schema malformed titled untyped =>
    have failed : compileCollection options name schema = .error (.malformed name malformed) := by
      simp only [compileCollection_eq, titled, untyped]
    exact ⟨session, unchanged, runCollections_uncompiled failed⟩
  | @unwritten name title text schema _ ended produces failed =>
    have made : compileCollection options name schema = .ok (title, text) :=
      compileCollection_eq_ok.mpr produces
    exact ⟨ended, sameOutput_of_unwritten failed, runCollections_unwritten made failed⟩

inductive Written (sink : Sink) : List (String × String) → Session → Session → Prop
  | nil {session : Session} : Written sink [] session session
  | cons {title text : String} {path : Option String} {outputs : List (String × String)}
      {session between after : Session}
      (wrote : (sink.write title text : StateM Session (Except Failure (Option String))) session =
        (.ok path, between))
      (later : Written sink outputs between after) :
      Written sink ((title, text) :: outputs) session after

def Sink.paths : Sink → List String → List String
  | directory folder, titles => titles.map (titlePath folder)
  | standardOutput, _ => []

def reportOf (sink : Sink) (report : Report) (titles : List String) (skipped : List String) :
    Report where
  written := report.written ++ sink.paths titles
  compiled := report.compiled + titles.length
  skipped := report.skipped ++ skipped

def skippedNames (collections : List Collection) : List String :=
  (collections.filter (·.schema.isNone)).map (·.name)

theorem paths_of_written {title text : String} {path : Option String}
    (wrote : (sink.write title text : StateM Session (Except Failure (Option String))) session =
      (.ok path, after)) : path.toList = sink.paths [title] := by
  cases sink with
  | standardOutput =>
    cases wrote
    rfl
  | directory folder =>
    rcases write_cases wrote with ⟨_, same, _⟩ | ⟨_, _, _, same, _⟩ | ⟨_, _, same, _⟩
    · cases same
    · cases same
    · rw [Except.ok.inj same]
      rfl

theorem printed_of_written {outputs : List (String × String)}
    (written : Written sink outputs session after) :
    (sink = .standardOutput → after.files = session.files ∧
        after.printed = session.printed ++ String.join (outputs.map (·.2))) ∧
      ∀ folder, sink = .directory folder → after.printed = session.printed := by
  induction written with
  | nil => simp
  | @cons title text path outputs session between after wrote _ ih =>
    obtain ⟨inOutput, inDirectory⟩ := ih
    constructor
    · rintro rfl
      cases wrote
      obtain ⟨files, printed⟩ := inOutput rfl
      refine ⟨files, ?_⟩
      rw [printed]
      simp [String.join_cons, String.append_assoc]
    · rintro folder rfl
      rw [inDirectory folder rfl]
      rcases write_cases wrote with ⟨_, same, _⟩ | ⟨_, _, _, same, _⟩ | ⟨_, _, _, _, rfl⟩
      · cases same
      · cases same
      · rfl

theorem reportOf_count (report : Report) (path : Option String) (title : String) (titles : List String)
    (skipped : List String) (paths : path.toList = sink.paths [title]) :
    reportOf sink (report.count path) titles skipped =
      reportOf sink report (title :: titles) skipped := by
  have more : sink.paths (title :: titles) = sink.paths [title] ++ sink.paths titles := by
    cases sink <;> rfl
  simp only [reportOf, Report.count, more, paths, List.append_assoc, List.length_cons]
  congr 1
  omega

/-- A run succeeds with every text written, or some collection stops it where the run before succeeds. -/
theorem runCollections_cases (collections : List Collection) (report : Report) (session : Session) :
    (∃ outputs after,
      (runCollections options sink report collections : StateM Session (Except Failure Report)) session =
        (.ok (reportOf sink report (outputs.map (·.1)) (skippedNames collections)), after) ∧
      List.Forall₂ (Produces options) (collections.filterMap (·.schema)) outputs ∧
      Written sink outputs session after) ∨
    ∃ before collection later final reached failure, collections = before ++ collection :: later ∧
      (runCollections options sink report before : StateM Session (Except Failure Report)) session =
        (.ok final, reached) ∧
      Stops options sink reached collection failure := by
  -- Both kinds of end are carried back over a step, from the report and the session that it leads to.
  induction collections generalizing report session with
  | nil =>
    refine Or.inl ⟨[], session, ?_, .nil, .nil⟩
    cases sink <;> simp [runCollections, reportOf, Sink.paths, skippedNames] <;> rfl
  | cons collection collections ih =>
    obtain ⟨name, schema⟩ := collection
    cases schema with
    | none =>
      rcases ih (report.skip name) session with ⟨outputs, after, ran, produced, written⟩ |
          ⟨before, collection, later, final, reached, failure, rfl, ran, stops⟩
      · refine Or.inl ⟨outputs, after, ?_, produced, written⟩
        rw [runCollections, ran]
        simp [reportOf, Report.skip, skippedNames]
      · exact Or.inr ⟨⟨name, none⟩ :: before, collection, later, final, reached, failure,
          rfl, ran, stops⟩
    | some schema =>
      cases made : compileCollection options name schema with
      | error failure =>
        exact Or.inr ⟨[], ⟨name, some schema⟩, collections, report, session, failure, rfl, rfl,
          stops_of_uncompiled made⟩
      | ok output =>
        obtain ⟨title, text⟩ := output
        have produces := compileCollection_eq_ok.mp made
        cases wrote : (sink.write title text :
            StateM Session (Except Failure (Option String))) session with
        | mk result between =>
          cases result with
          | error failure =>
            exact Or.inr ⟨[], ⟨name, some schema⟩, collections, report, session, failure, rfl, rfl,
              .unwritten produces wrote⟩
          | ok path =>
            rcases ih (report.count path) between with ⟨outputs, after, ran, produced, written⟩ |
                ⟨before, collection, later, final, reached, failure, rfl, ran, stops⟩
            · refine Or.inl ⟨(title, text) :: outputs, after, ?_, .cons produces produced,
                .cons wrote written⟩
              rw [runCollections_written made wrote, ran,
                reportOf_count report path title _ _ (paths_of_written wrote)]
              rfl
            · exact Or.inr ⟨⟨name, some schema⟩ :: before, collection, later, final, reached, failure,
                rfl, (runCollections_written made wrote report before).trans ran, stops⟩

theorem runFiles_eq (source : FileSource) :
    (runFiles (ReaderM Files) options sink source : StateM Session (Except Failure Report)) session =
      (runFetched options sink (fetched session.files source) :
        StateM Session (Except Failure Report)) session :=
  rfl

def runOver (options : Options) (sink : Sink) (collections : List Collection) (session : Session) :
    Except Failure Report × Session :=
  (runFetched options sink (.ok collections) : StateM Session (Except Failure Report)) session

/--
What a run does is what a run over its first collections does. If the source cannot be read, the run does
nothing and fails as the source does, and a source of files fails exactly if one of its patterns or files
is at fault. If a collection stops the run after those before it succeeded, the run fails as it does,
whatever comes later, and has written and printed what the run over those before has. If no collection
does, the run writes the text that each schema has on its own, in order, and reports the same in order.
-/
theorem batch_prefix (options : Options) (sink : Sink) (session : Session) :
    (∀ failure,
      (runFetched options sink (.error failure) : StateM Session (Except Failure Report)) session =
        (.error failure, session)) ∧
    (∀ source : FileSource,
      (runFiles (ReaderM Files) options sink source : StateM Session (Except Failure Report)) session =
        (runFetched options sink (fetched session.files source) :
          StateM Session (Except Failure Report)) session ∧
      ((∃ failure, fetched session.files source = .error failure) ↔ source.Faulty session.files)) ∧
    (∀ before collection report reached failure,
      runOver options sink before session = (.ok report, reached) →
        Stops options sink reached collection failure →
          ∃ ended, SameOutput reached ended ∧ ∀ later,
            runOver options sink (before ++ collection :: later) session = (.error failure, ended)) ∧
    ∀ collections,
      (∀ before collection later report reached failure, collections = before ++ collection :: later →
        runOver options sink before session = (.ok report, reached) →
          ¬Stops options sink reached collection failure) →
      ∃ outputs after,
        runOver options sink collections session =
          (.ok ⟨sink.paths (outputs.map (·.1)), (collections.filterMap (·.schema)).length,
            skippedNames collections⟩, after) ∧
        List.Forall₂ (Produces options) (collections.filterMap (·.schema)) outputs ∧
        Written sink outputs session after ∧
        (sink = .standardOutput → after.files = session.files ∧
          after.printed = session.printed ++ String.join (outputs.map (·.2))) ∧
        ∀ folder, sink = .directory folder → after.printed = session.printed := by
  refine ⟨fun failure => rfl, fun source => ⟨runFiles_eq source, fetched_fails_iff⟩, ?_, ?_⟩
  · intro before collection report reached failure ran stops
    obtain ⟨ended, same, ends⟩ := runCollections_of_stops stops
    refine ⟨ended, same, fun later => ?_⟩
    have first : (runCollections options sink .empty before :
        StateM Session (Except Failure Report)) session = (.ok report, reached) := ran
    rw [runOver, runFetched, runCollections_append, first]
    exact ends report later
  · intro collections unstopped
    rcases @runCollections_cases options sink collections .empty session with
        ⟨outputs, after, ran, produced, written⟩ |
        ⟨before, collection, later, final, reached, failure, same, ran, stops⟩
    · refine ⟨outputs, after, ?_, produced, written, printed_of_written written⟩
      rw [runOver, runFetched, ran, produced.length_eq]
      simp [reportOf, Report.empty]
    · exact absurd stops (unstopped before collection later final reached failure same ran)

def titledOrders : List Collection := [
  ⟨"users", some (.object [("title", .string "User")])⟩,
  ⟨"logs", none⟩]

def untitledOrder : Collection :=
  ⟨"orders", some (.object [("properties", .object [])])⟩

def laterOrders : List Collection := [⟨"items", some (.object [("title", .string "Item")])⟩]

def notesSession : Session :=
  ⟨⟨[("notes.json", .file 0)], fun _ => "\x7b\x7d".toUTF8, []⟩, ""⟩

def absentUsers : FileSource := ⟨["*", "users.json"], none⟩

theorem orders_prefix :
    (∃ ended, runOver bannerlessOptions (.directory "out") (titledOrders ++ untitledOrder :: laterOrders)
        notesSession = (.error (.missingTitle "orders"), ended) ∧
      ended.files.content? ["out", "User.ts"] = some "export type User = unknown;\n".toUTF8 ∧
      ended.files.content? ["out", "Item.ts"] = none) ∧
    (∃ outputs after, runOver bannerlessOptions .standardOutput titledOrders notesSession =
        (.ok ⟨[], 1, ["logs"]⟩, after) ∧
      after.printed = String.join (outputs.map (·.2)) ∧
      List.Forall₂ (Produces bannerlessOptions) [.object [("title", .string "User")]] outputs) ∧
    ∃ failure, (runFiles (ReaderM Files) bannerlessOptions .standardOutput absentUsers :
      StateM Session (Except Failure Report)) notesSession = (.error failure, notesSession) := by
  refine ⟨?_, ?_, ?_⟩
  · obtain ⟨_, _, stopped, _⟩ := batch_prefix bannerlessOptions (.directory "out") notesSession
    have written : (runOver bannerlessOptions (.directory "out") titledOrders notesSession).1 =
        .ok ⟨["out/User.ts"], 1, ["logs"]⟩ := by decide +kernel
    have ran : runOver bannerlessOptions (.directory "out") titledOrders notesSession =
        (.ok ⟨["out/User.ts"], 1, ["logs"]⟩,
          (runOver bannerlessOptions (.directory "out") titledOrders notesSession).2) := by
      rw [← written]
    have untitled : (Json.object [("properties", .object [])]).member? "title" = none := by
      decide +kernel
    obtain ⟨ended, same, ends⟩ := stopped titledOrders untitledOrder _ _ _ ran
      (.untitled (by rw [untitled, Option.bind_none]))
    refine ⟨ended, ends laterOrders, ?_, ?_⟩
    · rw [same.contents.content?]
      decide +kernel
    · rw [same.contents.content?]
      decide +kernel
  · obtain ⟨_, _, stopped, succeeds⟩ := batch_prefix bannerlessOptions .standardOutput notesSession
    have unstopped : ∀ before collection later report reached failure,
        titledOrders = before ++ collection :: later →
          runOver bannerlessOptions .standardOutput before notesSession = (.ok report, reached) →
            ¬Stops bannerlessOptions .standardOutput reached collection failure := by
      intro before collection later report reached failure same ran stops
      obtain ⟨ended, _, ends⟩ := stopped before collection report reached failure ran stops
      have reported : (runOver bannerlessOptions .standardOutput titledOrders notesSession).1 =
          .ok ⟨[], 1, ["logs"]⟩ := by decide +kernel
      rw [same, ends later] at reported
      cases reported
    obtain ⟨outputs, after, ran, produced, _, printed, _⟩ := succeeds titledOrders unstopped
    refine ⟨outputs, after, ran, ?_, produced⟩
    rw [(printed rfl).2]
    exact String.empty_append
  · obtain ⟨unread, reading, _⟩ := batch_prefix bannerlessOptions .standardOutput notesSession
    obtain ⟨run, fails⟩ := reading absentUsers
    have absent : notesSession.files.readBytes "users.json" = .error .notFound := by
      decide +kernel
    have alone : resolved notesSession.files "users.json" = .ok ["users.json"] := by decide +kernel
    obtain ⟨failure, failed⟩ := fails.mpr
      (Or.inr ⟨"users.json", by simp [absentUsers], ["users.json"], alone, "users.json", by simp,
        Or.inl ⟨.notFound, absent⟩⟩)
    refine ⟨failure, ?_⟩
    rw [run, failed]
    exact unread failure

end SchemaTypes
