import SchemaTypes.Proofs.FollowedPaths

namespace SchemaTypes

namespace Entry

theorem at?_put_self {place : Place} {name : String} {entry : Entry} {siblings : List (String × Entry)}
    (found : entry.at? place = some (directory siblings)) (placed : Entry) :
    (put placed (place ++ [name]) entry).at? (place ++ [name]) = some placed := by
  induction place generalizing entry with
  | nil =>
    cases found
    cases here : siblings.lookup name <;> simp [put, at?, entries, here, lookup_putMember_self]
  | cons first place ih =>
    obtain ⟨inner, here, below⟩ := Option.bind_eq_some_iff.mp found
    cases entry with
    | directory members =>
      have here : members.lookup first = some inner := here
      simp [put, at?, entries, here, lookup_putMember_self, ih below]
    | _ => cases here

theorem at?_of_bare {entry : Entry} (bare : entry.entries = []) (name : String) (place : Place) :
    entry.at? (name :: place) = none := by
  rw [at?, bare]
  rfl

theorem entries_put {name : String} {place : Place} (placed : Entry) (members : List (String × Entry)) :
    directory (put placed (name :: place) (directory members)).entries =
      put placed (name :: place) (directory members) := by
  unfold put
  split <;> rfl

/-- What is put where nothing was, and has nothing below it, leaves every other place in its form. -/
theorem form_put_of_ne {place other : Place} {placed entry : Entry} (differs : other ≠ place)
    (absent : entry.at? place = none) (bare : placed.entries = []) :
    ((put placed place entry).at? other).map form = (entry.at? other).map form := by
  induction place generalizing entry other with
  | nil => cases absent
  | cons name place ih =>
    cases entry with
    | file | link => rfl
    | directory members =>
      have absent : (members.lookup name).bind (at? place) = none := absent
      cases other with
      | nil => cases here : members.lookup name <;> cases place <;> simp [put, at?, here, form]
      | cons first other =>
        by_cases same : first = name
        · subst same
          have apart : other ≠ place := fun equal => differs (by rw [equal])
          cases here : members.lookup first with
          | none =>
            cases place with
            | nil =>
              cases other with
              | nil => exact absurd rfl apart
              | cons second other =>
                have inner : (put placed [first] (directory members)).at? (first :: second :: other) =
                    placed.at? (second :: other) := by
                  simp [put, at?, entries, here, lookup_putMember_self]
                rw [inner, at?_of_bare bare]
                simp [at?, entries, here]
            | cons => simp [put, at?, entries, here]
          | some inner =>
            have kept := ih apart (show inner.at? place = none by simpa [here] using absent)
            simpa [put, at?, entries, here, lookup_putMember_self] using kept
        · cases here : members.lookup name <;> cases place <;>
            simp [put, at?, entries, here, lookup_putMember_of_ne same]

theorem idBound_le_of_lookup {name : String} {entry : Entry} {members : List (String × Entry)}
    (found : members.lookup name = some entry) : entry.idBound ≤ idBoundAll members := by
  induction members with
  | nil => cases found
  | cons member members ih =>
    obtain ⟨first, inner⟩ := member
    rw [idBoundAll]
    by_cases same : name = first
    · subst same
      rw [List.lookup_cons_self, Option.some.injEq] at found
      subst found
      exact Nat.le_max_left ..
    · rw [lookup_cons_of_ne same] at found
      exact Nat.le_trans (ih found) (Nat.le_max_right ..)

theorem lt_idBound {place : Place} {entry : Entry} {id : FileId}
    (found : entry.at? place = some (.file id)) : id < entry.idBound := by
  induction place generalizing entry with
  | nil =>
    cases found
    exact Nat.lt_succ_self id
  | cons name place ih =>
    obtain ⟨inner, here, below⟩ := Option.bind_eq_some_iff.mp found
    cases entry with
    | directory members => exact Nat.lt_of_lt_of_le (ih below) (idBound_le_of_lookup here)
    | _ => cases here

end Entry

namespace Files

variable {files made : Files}

theorem lt_freshId {place : Place} {id : FileId} (there : files.form? place = some (.file id)) :
    id < files.freshId :=
  Entry.lt_idBound (form?_eq_file.mp there)

theorem entries_put (files : Files) (above : Place) (name : String) (placed : Entry) :
    .directory (files.put (above ++ [name]) placed).root =
      Entry.put placed (above ++ [name]) (.directory files.root) := by
  cases above <;> exact Entry.entries_put placed files.root

/-- A name that a directory does not have, where something with nothing below it may be put. -/
structure Vacant (files : Files) (place : Place) : Prop where
  parent : ∃ above name, place = above ++ [name] ∧ files.form? above = some .directory
  absent : files.at? place = none

theorem form?_put {place : Place} {placed : Entry} (vacant : files.Vacant place)
    (bare : placed.entries = []) (other : Place) :
    (files.put place placed).form? other =
      if other = place then some placed.form else files.form? other := by
  obtain ⟨⟨above, name, rfl, directory⟩, absent⟩ := vacant
  obtain ⟨siblings, there⟩ := form?_eq_directory.mp directory
  rw [form?, at?, entries_put]
  by_cases here : other = above ++ [name]
  · subst here
    rw [if_pos rfl, Entry.at?_put_self there, Option.map_some]
  · rw [if_neg here, Entry.form_put_of_ne here absent bare]
    rfl

theorem form?_fill (files : Files) (id : FileId) (content : ByteArray) :
    (files.fill id content).form? = files.form? :=
  rfl

/-- Every name that was there stands for the same, and new names are no links. -/
structure Grows (files made : Files) : Prop where
  working : made.working = files.working
  kept : ∀ place form, files.form? place = some form → made.form? place = some form
  links : ∀ place target, made.form? place = some (.link target) → files.form? place = some (.link target)

theorem Grows.refl (files : Files) : files.Grows files :=
  ⟨rfl, fun _ _ there => there, fun _ _ there => there⟩

theorem Grows.trans {other : Files} (first : files.Grows made) (second : made.Grows other) :
    files.Grows other where
  working := second.working.trans first.working
  kept place form there := second.kept place form (first.kept place form there)
  links place target there := first.links place target (second.links place target there)

theorem Grows.standing (grows : files.Grows made) (standing : files.Standing) : made.Standing := by
  rw [Standing, grows.working]
  exact grows.kept files.working .directory standing

theorem Grows.leads (grows : files.Grows made) {links : Nat} {place goal : Place} {parts : List String}
    (leads : Leads files.form? links place parts goal) : Leads made.form? links place parts goal :=
  leads.mono (fun other => grows.kept other .directory)
    fun other target => ⟨grows.links other target, grows.kept other (.link target)⟩

theorem Grows.origin (grows : files.Grows made) (path : String) :
    made.origin path = files.origin path := by
  rw [Files.origin, Files.origin, grows.working]

theorem Grows.reaches (grows : files.Grows made) {path : String} {place : Place}
    (reaches : files.Reaches path place) : made.Reaches path place :=
  ⟨reaches.accepted, grows.origin path ▸ grows.leads reaches.leads⟩

theorem Grows.fileAt? (grows : files.Grows made) (standing : files.Standing) {path : String}
    {id : FileId} (found : files.fileAt? path = some id) : made.fileAt? path = some id := by
  obtain ⟨place, reaches, file⟩ := (fileAt?_iff standing).mp found
  exact (fileAt?_iff (grows.standing standing)).mpr
    ⟨place, grows.reaches reaches, grows.kept place _ file⟩

theorem Grows.content? (grows : files.Grows made) {place : Place}
    (same : ∀ id, made.named? place = some id →
      made.contents id = files.contents id ∧ files.named? place = some id) :
    made.content? place = files.content? place := by
  rw [Files.content?, Files.content?]
  cases named : made.named? place with
  | some id =>
    obtain ⟨content, before⟩ := same id named
    rw [before, Option.map_some, Option.map_some, content]
  | none =>
    cases before : files.named? place with
    | none => rfl
    | some id =>
      have after := named?_eq_some.mpr (grows.kept place _ (named?_eq_some.mp before))
      rw [named] at after
      cases after

theorem grows_put {place : Place} {placed : Entry} (vacant : files.Vacant place)
    (bare : placed.entries = []) (unlinked : ∀ target, placed ≠ .link target) :
    files.Grows (files.put place placed) where
  working := rfl
  kept other form there := by
    rw [form?_put vacant bare, if_neg]
    · exact there
    · rintro rfl
      rw [form?, vacant.absent] at there
      cases there
  links other target there := by
    rw [form?_put vacant bare] at there
    split at there
    · exact absurd (Entry.form_eq_link.mp (Option.some.inj there)) (unlinked target)
    · exact there

/-- The same names stand for the same files, which have the same contents. -/
structure SameContents (files other : Files) : Prop where
  named : ∀ place, other.named? place = files.named? place
  contents : other.contents = files.contents

theorem SameContents.refl (files : Files) : files.SameContents files :=
  ⟨fun _ => rfl, rfl⟩

theorem SameContents.trans {other : Files} (first : files.SameContents made)
    (second : made.SameContents other) : files.SameContents other :=
  ⟨fun place => (second.named place).trans (first.named place), second.contents.trans first.contents⟩

theorem SameContents.content? {other : Files} (same : files.SameContents other) (place : Place) :
    other.content? place = files.content? place := by
  rw [Files.content?, Files.content?, same.named, same.contents]

/-- No name is a symbolic link, and no file has two names. -/
structure Unlinked (files : Files) : Prop where
  links : ∀ place target, files.form? place ≠ some (.link target)
  names : ∀ place other id, files.form? place = some (.file id) →
    files.form? other = some (.file id) → place = other

theorem makes_makeDirectory {path : String} {parts : List String}
    (ready : files.makeDirectory (files.start path) parts = .ok made) :
    ∃ place, files.Vacant place ∧ made = files.put place (.directory []) := by
  unfold makeDirectory at ready
  cases last : parts.getLast? with
  | none =>
    rw [last] at ready
    cases ready
  | some name =>
    simp only [last] at ready
    cases found : files.directoryOf (files.start path) parts with
    | error fault =>
      rw [found] at ready
      cases ready
    | ok parent =>
      obtain ⟨above, entries⟩ := parent
      have there : files.at? above = some (.directory entries) := by
        unfold directoryOf at found
        cases followed : follow files.root maxLinks (files.start path) parts.dropLast with
        | error fault =>
          rw [followed] at found
          cases found
        | ok spot =>
          rw [followed] at found
          have holds := (leads_of_follow (valid_start files path) followed).2
          cases holds with
          | file | vacant => cases found
          | directory there =>
            cases found
            exact there
      simp only [found, bind, Except.bind] at ready
      split at ready
      · cases ready
      split at ready
      · cases ready
      split at ready
      · cases ready
      rename_i absent
      cases ready
      refine ⟨above ++ [name], ⟨⟨above, name, rfl, form?_eq_directory.mpr ⟨entries, there⟩⟩, ?_⟩, rfl⟩
      rw [at?_append_singleton there]
      exact Option.not_isSome_iff_eq_none.mp absent

/-- Whatever making one directory keeps is kept by making one with those above it. -/
theorem makeDirectories_keeps {keeps : Files → Files → Prop} (refl : ∀ files, keeps files files)
    (trans : ∀ {files made other}, keeps files made → keeps made other → keeps files other)
    (step : ∀ {files : Files} {place : Place}, files.Vacant place →
      keeps files (files.put place (.directory [])))
    (files : Files) (path : String) : keeps files (files.makeDirectories path).1 := by
  have ensured : ∀ (files : Files) (path : String) (parts : List String),
      keeps files (files.ensureDirectory path parts).1 := by
    intro files path parts
    unfold ensureDirectory
    split
    · rename_i made ready
      obtain ⟨place, vacant, rfl⟩ := makes_makeDirectory ready
      exact step vacant
    · exact refl files
  have parents : ∀ (files : Files) (path : String) (above : List (List String)) (parts : List String),
      keeps files (files.ensureWithParents path parts above).1 := by
    intro files path above
    induction above with
    | nil => exact ensured files path
    | cons parent above ih =>
      intro parts
      have before := ih parent
      unfold ensureWithParents
      split
      · split
        · rename_i made fault same
          rw [same] at before
          exact before
        · rename_i made _ same
          rw [same] at before
          exact trans before (ensured made path parts)
      · exact ensured files path parts
  unfold makeDirectories
  split
  · exact refl files
  · split
    · exact refl files
    · exact parents files path _ _

theorem grows_makeDirectories (files : Files) (path : String) :
    files.Grows (files.makeDirectories path).1 :=
  makeDirectories_keeps Grows.refl Grows.trans
    (fun vacant => grows_put vacant rfl fun _ same => by cases same) files path

theorem named?_put_directory {place : Place} (vacant : files.Vacant place) (other : Place) :
    (files.put place (.directory [])).named? other = files.named? other := by
  have absent : files.form? place = none := by rw [form?, vacant.absent, Option.map_none]
  unfold named?
  rw [form?_put vacant rfl]
  by_cases here : other = place
  · subst here
    rw [if_pos rfl, absent]
    rfl
  · rw [if_neg here]

theorem sameContents_makeDirectories (files : Files) (path : String) :
    files.SameContents (files.makeDirectories path).1 :=
  makeDirectories_keeps SameContents.refl SameContents.trans
    (fun vacant => ⟨named?_put_directory vacant, rfl⟩) files path

theorem Unlinked.of_same (unlinked : files.Unlinked) (grows : files.Grows made)
    (same : ∀ place, made.named? place = files.named? place) : made.Unlinked where
  links place target there := unlinked.links place target (grows.links place target there)
  names place other id first second := by
    apply unlinked.names place other id
    · rw [← named?_eq_some, ← same, named?_eq_some, first]
    · rw [← named?_eq_some, ← same, named?_eq_some, second]

/-- What writing a file does: it has the content, every other file is as it was, and at most its name is new. -/
structure Writes (files : Files) (id : FileId) (content : ByteArray) (made : Files) : Prop where
  grows : files.Grows made
  written : made.contents id = content
  others : ∀ other, other ≠ id → made.contents other = files.contents other
  names : ∀ place other, other ≠ id → made.named? place = some other → files.named? place = some other
  unlinked : files.Unlinked → made.Unlinked

theorem writes_fill (files : Files) (id : FileId) (content : ByteArray) :
    files.Writes id content (files.fill id content) where
  grows := ⟨rfl, fun _ _ there => there, fun _ _ there => there⟩
  written := if_pos rfl
  others _ differs := if_neg differs
  names _ _ _ named := named
  unlinked unlinked := ⟨unlinked.links, unlinked.names⟩

theorem writes_new {place : Place} (vacant : files.Vacant place) (content : ByteArray) :
    files.Writes files.freshId content
      ((files.put place (.file files.freshId)).fill files.freshId content) := by
  have grows : files.Grows (files.put place (.file files.freshId)) :=
    grows_put vacant rfl fun _ same => by cases same
  have form : ∀ other, (files.put place (.file files.freshId)).form? other =
      if other = place then some (.file files.freshId) else files.form? other := form?_put vacant rfl
  refine ⟨⟨rfl, grows.kept, grows.links⟩, if_pos rfl, fun _ differs => if_neg differs, ?_, ?_⟩
  · intro other id differs named
    rw [named?_eq_some, form?_fill, form] at named
    split at named
    · exact absurd (Form.file.inj (Option.some.inj named)).symm differs
    · exact named?_eq_some.mpr named
  · intro unlinked
    refine ⟨fun other target there => unlinked.links other target (grows.links other target there), ?_⟩
    -- The new identity is that of no other name.
    intro first second id there there'
    rw [form?_fill, form] at there there'
    split at there <;> split at there'
    · simp_all
    · cases there
      exact absurd (lt_freshId there') (Nat.lt_irrefl _)
    · cases there'
      exact absurd (lt_freshId there) (Nat.lt_irrefl _)
    · exact unlinked.names first second id there there'

theorem writes_of_writeBytes (standing : files.Standing) {path : String} {content : ByteArray}
    (ready : files.writeBytes path content = .ok made) :
    ∃ id, made.fileAt? path = some id ∧ files.Writes id content made := by
  cases located : files.locate path with
  | error fault =>
    rw [writeBytes, located] at ready
    cases ready
  | ok spot =>
    rw [writeBytes, located] at ready
    obtain ⟨reaches, holds⟩ := reaches_of_locate standing located
    cases holds with
    | directory => cases ready
    | @file place id found =>
      cases ready
      have writes := writes_fill files id content
      exact ⟨id, writes.grows.fileAt? standing (fileAt?_eq_some.mpr ⟨place, located⟩), writes⟩
    | @vacant above name parent absent =>
      cases ready
      have vacant : files.Vacant (above ++ [name]) := ⟨⟨above, name, rfl, parent⟩, absent⟩
      have writes := writes_new vacant content
      refine ⟨files.freshId, (fileAt?_iff (writes.grows.standing standing)).mpr
        ⟨above ++ [name], writes.grows.reaches reaches, ?_⟩, writes⟩
      rw [form?_fill, form?_put vacant rfl, if_pos rfl]
      rfl

theorem Writes.of_sameContents {before : Files} (grows : before.Grows files)
    (same : before.SameContents files) {id : FileId} {content : ByteArray}
    (writes : files.Writes id content made) : before.Writes id content made where
  grows := grows.trans writes.grows
  written := writes.written
  others other differs := by rw [writes.others other differs, same.contents]
  names place other differs named := by
    rw [← same.named]
    exact writes.names place other differs named
  unlinked unlinked := writes.unlinked (unlinked.of_same grows same.named)

theorem Writes.content? {id : FileId} {content : ByteArray} (writes : files.Writes id content made)
    {place : Place} (apart : made.named? place ≠ some id) :
    made.content? place = files.content? place := by
  apply writes.grows.content?
  intro other named
  have differs : other ≠ id := fun same => apart (named.trans (congrArg some same))
  exact ⟨writes.others other differs, writes.names place other differs named⟩

end Files

end SchemaTypes
