import SchemaTypes.Files.Store

/-!
Where paths lead. What a path leads to depends on the forms of places only: directories on the way are
gone through and links on the way are followed. So a path that leads somewhere still leads there when
files and directories are added, or when a file gets another content.
-/

namespace SchemaTypes

namespace Entry

theorem at?_append (place other : Place) (entry : Entry) :
    entry.at? (place ++ other) = (entry.at? place).bind (at? other) := by
  induction place generalizing entry with
  | nil => rfl
  | cons name place ih =>
    cases here : entry.entries.lookup name with
    | none => simp [at?, here]
    | some entry => simp [at?, here, ih]

theorem form_eq_directory {entry : Entry} :
    entry.form = .directory ↔ ∃ entries, entry = .directory entries := by
  cases entry <;> simp [form]

theorem form_eq_file {entry : Entry} {id : FileId} : entry.form = .file id ↔ entry = .file id := by
  cases entry <;> simp [form]

theorem form_eq_link {entry : Entry} {target : String} :
    entry.form = .link target ↔ entry = .link target := by
  cases entry <;> simp [form]

end Entry

namespace Trail

inductive Valid (root : List (String × Entry)) : Trail → Prop
  | nil : Valid root []
  | cons {trail : Trail} {name : String} {entries : List (String × Entry)} (before : Valid root trail)
      (found : (trail.current root).lookup name = some (.directory entries)) :
      Valid root ((name, entries) :: trail)

theorem place_cons (name : String) (entries : List (String × Entry)) (trail : Trail) :
    place ((name, entries) :: trail) = trail.place ++ [name] := by
  simp [place]

theorem place_drop_one (trail : Trail) : place (trail.drop 1) = trail.place.dropLast := by
  cases trail with
  | nil => rfl
  | cons named trail => simp [place]

variable {root : List (String × Entry)}

theorem Valid.drop_one {trail : Trail} (valid : Valid root trail) : Valid root (trail.drop 1) := by
  cases valid with
  | nil => exact .nil
  | cons before _ => exact before

theorem Valid.at?_place {trail : Trail} (valid : Valid root trail) :
    (Entry.directory root).at? trail.place = some (.directory (trail.current root)) := by
  induction valid with
  | nil => rfl
  | cons _ found ih =>
    rw [place_cons, Entry.at?_append, ih, Option.bind_some, Entry.at?, Entry.entries, found]
    rfl

theorem valid_toPlace {trail : Trail} (valid : Valid root trail) (place : Place)
    {entries : List (String × Entry)} (here : trail.current root = entries) :
    Valid root (toPlace trail place entries) := by
  induction place generalizing trail entries with
  | nil => exact valid
  | cons name place ih =>
    unfold toPlace
    split
    · rename_i inner found
      exact ih (.cons valid (here ▸ found)) rfl
    · exact valid

theorem place_toPlace {place : Place} {entries found : List (String × Entry)}
    (there : (Entry.directory entries).at? place = some (.directory found)) (trail : Trail) :
    (toPlace trail place entries).place = trail.place ++ place := by
  induction place generalizing trail entries with
  | nil => simp [toPlace]
  | cons name place ih =>
    obtain ⟨entry, here, below⟩ := Option.bind_eq_some_iff.mp there
    have here : entries.lookup name = some entry := here
    cases entry with
    | directory inner =>
      simp only [toPlace, here]
      rw [ih below, place_cons, List.append_assoc, List.singleton_append]
    | _ => cases place <;> simp [Entry.at?, Entry.entries] at below

end Trail

def originOf (place : Place) (path : String) : Place :=
  if isAbsolute path then [] else place

/-- The parts lead from one place to another past at most so many links, where places have the given forms. -/
inductive Leads (forms : Place → Option Form) : Nat → Place → List String → Place → Prop
  | here {links : Nat} {place : Place} : Leads forms links place [] place
  | stay {links : Nat} {place goal : Place} {parts : List String}
      (directory : forms place = some .directory) (leads : Leads forms links place parts goal) :
      Leads forms links place ("." :: parts) goal
  | up {links : Nat} {place goal : Place} {parts : List String}
      (directory : forms place = some .directory)
      (leads : Leads forms links place.dropLast parts goal) : Leads forms links place (".." :: parts) goal
  | down {links : Nat} {place goal : Place} {part : String} {parts : List String}
      (directory : forms place = some .directory) (named : part ≠ "." ∧ part ≠ "..")
      (short : part.utf8ByteSize ≤ maxNameBytes)
      (unlinked : ∀ target, forms (place ++ [part]) ≠ some (.link target))
      (leads : Leads forms links (place ++ [part]) parts goal) :
      Leads forms links place (part :: parts) goal
  | link {links : Nat} {place goal : Place} {part target : String} {parts : List String}
      (directory : forms place = some .directory) (named : part ≠ "." ∧ part ≠ "..")
      (short : part.utf8ByteSize ≤ maxNameBytes) (linked : forms (place ++ [part]) = some (.link target))
      (leads : Leads forms links (originOf place target) (pathSteps target ++ parts) goal) :
      Leads forms (links + 1) place (part :: parts) goal

section

variable {forms made : Place → Option Form} {links : Nat} {place goal : Place}

theorem Leads.mono (directories : ∀ other, forms other = some .directory → made other = some .directory)
    (linked : ∀ other target, made other = some (.link target) ↔ forms other = some (.link target))
    {parts : List String} (leads : Leads forms links place parts goal) :
    Leads made links place parts goal := by
  induction leads with
  | here => exact .here
  | stay directory _ ih => exact .stay (directories _ directory) ih
  | up directory _ ih => exact .up (directories _ directory) ih
  | down directory named short unlinked _ ih =>
    exact .down (directories _ directory) named short
      (fun target found => unlinked target ((linked _ target).mp found)) ih
  | link directory named short found _ ih =>
    exact .link (directories _ directory) named short ((linked _ _).mpr found) ih

theorem Leads.isDirectory {part : String} {parts : List String}
    (leads : Leads forms links place (part :: parts) goal) : forms place = some .directory := by
  cases leads <;> assumption

/-- A walk goes on from the same place, the one above or the one below, or from where a link leads. -/
theorem Leads.cases_cons {part : String} {parts : List String}
    (leads : Leads forms links place (part :: parts) goal) :
    (part = "." ∧ Leads forms links place parts goal) ∨
      (part = ".." ∧ Leads forms links place.dropLast parts goal) ∨
      (part ≠ "." ∧ part ≠ "..") ∧
        ((∀ target, forms (place ++ [part]) ≠ some (.link target)) ∧
            Leads forms links (place ++ [part]) parts goal ∨
          ∃ target fewer, forms (place ++ [part]) = some (.link target) ∧
            Leads forms fewer (originOf place target) (pathSteps target ++ parts) goal) := by
  cases leads with
  | stay _ leads => exact Or.inl ⟨rfl, leads⟩
  | up _ leads => exact Or.inr (Or.inl ⟨rfl, leads⟩)
  | down _ named _ unlinked leads => exact Or.inr (Or.inr ⟨named, Or.inl ⟨unlinked, leads⟩⟩)
  | link _ named _ linked leads => exact Or.inr (Or.inr ⟨named, Or.inr ⟨_, _, linked, leads⟩⟩)

theorem Leads.unique {others : Nat} {other : Place} {parts : List String}
    (leads : Leads forms links place parts goal) (leads' : Leads forms others place parts other) :
    goal = other := by
  induction leads generalizing others other with
  | here =>
    cases leads'
    rfl
  | stay _ _ ih =>
    rcases leads'.cases_cons with ⟨_, leads'⟩ | ⟨upwards, _⟩ | ⟨named, _⟩
    · exact ih leads'
    · exact absurd upwards (by decide)
    · exact absurd rfl named.1
  | up _ _ ih =>
    rcases leads'.cases_cons with ⟨here, _⟩ | ⟨_, leads'⟩ | ⟨named, _⟩
    · exact absurd here (by decide)
    · exact ih leads'
    · exact absurd rfl named.2
  | down _ named _ unlinked _ ih =>
    rcases leads'.cases_cons with ⟨here, _⟩ | ⟨upwards, _⟩ | ⟨_, ⟨_, leads'⟩ | ⟨target, _, linked, _⟩⟩
    · exact absurd here named.1
    · exact absurd upwards named.2
    · exact ih leads'
    · exact absurd linked (unlinked target)
  | link _ named _ linked _ ih =>
    rcases leads'.cases_cons with ⟨here, _⟩ | ⟨upwards, _⟩ |
      ⟨_, ⟨unlinked, _⟩ | ⟨target, _, linked', leads'⟩⟩
    · exact absurd here named.1
    · exact absurd upwards named.2
    · exact absurd linked (unlinked _)
    · rw [linked', Option.some.injEq, Form.link.injEq] at linked
      subst linked
      exact ih leads'

theorem Leads.split {parts others : List String} (leads : Leads forms links place (parts ++ others) goal) :
    ∃ middle rest, Leads forms links place parts middle ∧ Leads forms rest middle others goal := by
  generalize whole : parts ++ others = steps at leads
  induction leads generalizing parts with
  | here =>
    obtain ⟨rfl, rfl⟩ := List.append_eq_nil_iff.mp whole
    exact ⟨_, 0, .here, .here⟩
  | @stay links place goal steps directory leads ih =>
    cases parts with
    | nil =>
      obtain rfl : others = _ := whole
      exact ⟨place, links, .here, .stay directory leads⟩
    | cons part parts =>
      obtain ⟨rfl, rest⟩ := List.cons.inj whole
      obtain ⟨middle, left, first, second⟩ := ih rest
      exact ⟨middle, left, .stay directory first, second⟩
  | @up links place goal steps directory leads ih =>
    cases parts with
    | nil =>
      obtain rfl : others = _ := whole
      exact ⟨place, links, .here, .up directory leads⟩
    | cons part parts =>
      obtain ⟨rfl, rest⟩ := List.cons.inj whole
      obtain ⟨middle, left, first, second⟩ := ih rest
      exact ⟨middle, left, .up directory first, second⟩
  | @down links place goal name steps directory named short unlinked leads ih =>
    cases parts with
    | nil =>
      obtain rfl : others = _ := whole
      exact ⟨place, links, .here, .down directory named short unlinked leads⟩
    | cons part parts =>
      obtain ⟨rfl, rest⟩ := List.cons.inj whole
      obtain ⟨middle, left, first, second⟩ := ih rest
      exact ⟨middle, left, .down directory named short unlinked first, second⟩
  | @link links place goal name target steps directory named short linked leads ih =>
    cases parts with
    | nil =>
      obtain rfl : others = _ := whole
      exact ⟨place, links + 1, .here, .link directory named short linked leads⟩
    | cons part parts =>
      obtain ⟨rfl, rest⟩ := List.cons.inj whole
      obtain ⟨middle, left, first, second⟩ := ih ((List.append_assoc _ parts others).trans (congrArg _ rest))
      exact ⟨middle, left, .link directory named short linked first, second⟩

/-- What parts lead to that end in a name is that name in a directory, unless it is the name of a link. -/
theorem Leads.last {parts : List String} {name : String} (named : name ≠ "." ∧ name ≠ "..")
    (leads : Leads forms links place (parts ++ [name]) goal) :
    ∃ directory, Leads forms links place parts directory ∧ forms directory = some .directory ∧
      (goal = directory ++ [name] ∨ ∃ target, forms (directory ++ [name]) = some (.link target)) := by
  obtain ⟨directory, rest, above, last⟩ := leads.split
  refine ⟨directory, above, last.isDirectory, ?_⟩
  rcases last.cases_cons with ⟨here, _⟩ | ⟨upwards, _⟩ | ⟨_, ⟨_, below⟩ | ⟨target, _, linked, _⟩⟩
  · exact absurd here named.1
  · exact absurd upwards named.2
  · cases below
    exact Or.inl rfl
  · exact Or.inr ⟨target, linked⟩

end

namespace Files

section

variable {files : Files} {place : Place}

theorem form?_eq_directory :
    files.form? place = some .directory ↔ ∃ entries, files.at? place = some (.directory entries) := by
  rw [form?, Option.map_eq_some_iff]
  constructor
  · rintro ⟨entry, there, form⟩
    obtain ⟨entries, rfl⟩ := Entry.form_eq_directory.mp form
    exact ⟨entries, there⟩
  · rintro ⟨entries, there⟩
    exact ⟨_, there, rfl⟩

theorem form?_eq_file {id : FileId} :
    files.form? place = some (.file id) ↔ files.at? place = some (.file id) := by
  simp [form?, Option.map_eq_some_iff, Entry.form_eq_file]

theorem form?_eq_link {target : String} :
    files.form? place = some (.link target) ↔ files.at? place = some (.link target) := by
  simp [form?, Option.map_eq_some_iff, Entry.form_eq_link]

theorem named?_eq_some {id : FileId} :
    files.named? place = some id ↔ files.form? place = some (.file id) := by
  unfold named?
  split
  · rename_i other there
    simp [there]
  · rename_i other
    simpa using fun there => other id there

theorem at?_append_singleton {entries : List (String × Entry)}
    (there : files.at? place = some (.directory entries)) (name : String) :
    files.at? (place ++ [name]) = entries.lookup name := by
  rw [at?, Entry.at?_append, ← at?, there]
  simp [Entry.at?, Entry.entries]

end

end Files

def Spot.place : Spot → Place
  | file place _ => place
  | directory place _ => place
  | vacant place => place

def Spot.found? : Spot → Option Entry
  | file _ id => some (.file id)
  | directory _ entries => some (.directory entries)
  | vacant _ => none

/-- What a walk finds is there; a name that is vacant is one of a directory. -/
inductive Files.Holds (files : Files) : Spot → Prop
  | file {place : Place} {id : FileId} (found : files.at? place = some (.file id)) :
      Holds files (.file place id)
  | directory {place : Place} {entries : List (String × Entry)}
      (found : files.at? place = some (.directory entries)) : Holds files (.directory place entries)
  | vacant {above : Place} {name : String} (parent : files.form? above = some .directory)
      (absent : files.at? (above ++ [name]) = none) : Holds files (.vacant (above ++ [name]))

namespace Files

variable {files : Files}

theorem Holds.found?_eq {spot : Spot} (holds : files.Holds spot) :
    files.at? spot.place = spot.found? := by
  cases holds with
  | file found | directory found => exact found
  | vacant _ absent => exact absent

theorem Holds.unique {spot other : Spot} (holds : files.Holds spot) (holds' : files.Holds other)
    (same : spot.place = other.place) : spot = other := by
  have entry : spot.found? = other.found? := by rw [← holds.found?_eq, same, holds'.found?_eq]
  cases spot <;> cases other <;> simp_all [Spot.place, Spot.found?]

def beyond (root : List (String × Entry)) : Nat → Trail → List String → Except FileFault Spot
  | 0, _, _ => .error .tooManyLinks
  | links + 1, trail, parts => follow root links trail parts

theorem follow_eq_walk (root : List (String × Entry)) (links : Nat) :
    follow root links = walk root (beyond root links) := by
  cases links <;> rfl

section

variable {links : Nat} {trail : Trail} {part : String} {parts : List String}

theorem follow_stay : follow files.root links trail ("." :: parts) = follow files.root links trail parts := by
  rw [follow_eq_walk, walk, if_pos rfl]

theorem follow_up :
    follow files.root links trail (".." :: parts) = follow files.root links (trail.drop 1) parts := by
  rw [follow_eq_walk, walk, if_neg (by decide), if_pos rfl]

theorem follow_long (named : part ≠ "." ∧ part ≠ "..") (long : maxNameBytes < part.utf8ByteSize) :
    follow files.root links trail (part :: parts) = .error .nameTooLong := by
  rw [follow_eq_walk, walk, if_neg named.1, if_neg named.2, if_pos long]

section

variable (named : part ≠ "." ∧ part ≠ "..") (short : part.utf8ByteSize ≤ maxNameBytes)

include named short

theorem follow_directory {entries : List (String × Entry)}
    (found : (trail.current files.root).lookup part = some (.directory entries)) :
    follow files.root links trail (part :: parts) =
      follow files.root links ((part, entries) :: trail) parts := by
  rw [follow_eq_walk, walk, if_neg named.1, if_neg named.2, if_neg (Nat.not_lt.mpr short), found]

theorem follow_link {target : String}
    (found : (trail.current files.root).lookup part = some (.link target)) :
    follow files.root links trail (part :: parts) =
      beyond files.root links (if isAbsolute target then [] else trail) (pathSteps target ++ parts) := by
  rw [follow_eq_walk, walk, if_neg named.1, if_neg named.2, if_neg (Nat.not_lt.mpr short), found]

theorem follow_file {id : FileId} (found : (trail.current files.root).lookup part = some (.file id)) :
    follow files.root links trail (part :: parts) =
      if parts.isEmpty then .ok (.file (trail.place ++ [part]) id) else .error .notDirectory := by
  rw [follow_eq_walk, walk, if_neg named.1, if_neg named.2, if_neg (Nat.not_lt.mpr short), found]

theorem follow_vacant (found : (trail.current files.root).lookup part = none) :
    follow files.root links trail (part :: parts) =
      if parts.isEmpty then .ok (.vacant (trail.place ++ [part])) else .error .notFound := by
  rw [follow_eq_walk, walk, if_neg named.1, if_neg named.2, if_neg (Nat.not_lt.mpr short), found]

end

end

theorem valid_origin {trail : Trail} (valid : trail.Valid files.root) (target : String) :
    Trail.Valid files.root (if isAbsolute target then [] else trail) := by
  split
  · exact .nil
  · exact valid

theorem place_origin (trail : Trail) (target : String) :
    Trail.place (if isAbsolute target then [] else trail) = originOf trail.place target := by
  unfold originOf
  split <;> rfl

section

variable {trail : Trail}

theorem form?_of_valid (valid : trail.Valid files.root) : files.form? trail.place = some .directory :=
  form?_eq_directory.mpr ⟨_, valid.at?_place⟩

theorem at?_of_valid (valid : trail.Valid files.root) (part : String) :
    files.at? (trail.place ++ [part]) = (trail.current files.root).lookup part :=
  at?_append_singleton valid.at?_place part

theorem unlinked_of_lookup (valid : trail.Valid files.root) {part : String}
    (plain : ∀ target, (trail.current files.root).lookup part ≠ some (.link target)) (target : String) :
    files.form? (trail.place ++ [part]) ≠ some (.link target) := by
  rw [Ne, form?_eq_link, at?_of_valid valid part]
  exact plain target

end

theorem leads_of_follow {links : Nat} {trail : Trail} (valid : trail.Valid files.root)
    {parts : List String} {spot : Spot} (followed : follow files.root links trail parts = .ok spot) :
    Leads files.form? links trail.place parts spot.place ∧ files.Holds spot := by
  -- The links are counted outside, since the target of a link may have more parts than the path had left.
  induction links using Nat.strongRecOn generalizing trail parts with
  | ind links outer =>
    induction parts generalizing trail with
    | nil =>
      rw [follow_eq_walk] at followed
      cases followed
      exact ⟨.here, .directory valid.at?_place⟩
    | cons part parts ih =>
      have directory := form?_of_valid valid
      by_cases here : part = "."
      · subst here
        obtain ⟨leads, holds⟩ := ih valid (follow_stay ▸ followed)
        exact ⟨.stay directory leads, holds⟩
      by_cases upwards : part = ".."
      · subst upwards
        obtain ⟨leads, holds⟩ := ih valid.drop_one (follow_up ▸ followed)
        rw [Trail.place_drop_one] at leads
        exact ⟨.up directory leads, holds⟩
      have named : part ≠ "." ∧ part ≠ ".." := ⟨here, upwards⟩
      by_cases long : maxNameBytes < part.utf8ByteSize
      · rw [follow_long named long] at followed
        cases followed
      have short := Nat.le_of_not_lt long
      have there := at?_of_valid valid part
      have plain := @unlinked_of_lookup files trail valid part
      cases found : (trail.current files.root).lookup part with
      | none =>
        rw [follow_vacant named short found] at followed
        cases parts with
        | cons => cases followed
        | nil =>
          cases followed
          exact ⟨.down directory named short (plain (by simp [found])) .here,
            .vacant directory (there.trans found)⟩
      | some entry =>
        cases entry with
        | file id =>
          rw [follow_file named short found] at followed
          cases parts with
          | cons => cases followed
          | nil =>
            cases followed
            exact ⟨.down directory named short (plain (by simp [found])) .here,
              .file (there.trans found)⟩
        | directory entries =>
          rw [follow_directory named short found] at followed
          obtain ⟨leads, holds⟩ := ih (.cons valid found) followed
          rw [Trail.place_cons] at leads
          exact ⟨.down directory named short (plain (by simp [found])) leads, holds⟩
        | link target =>
          rw [follow_link named short found] at followed
          cases links with
          | zero => cases followed
          | succ fewer =>
            obtain ⟨leads, holds⟩ := outer fewer (Nat.lt_succ_self fewer) (valid_origin valid target) followed
            rw [place_origin] at leads
            exact ⟨.link directory named short (form?_eq_link.mpr (there.trans found)) leads, holds⟩

theorem follow_of_leads {links : Nat} {trail : Trail} (valid : trail.Valid files.root)
    {parts : List String} {goal : Place} (leads : Leads files.form? links trail.place parts goal) :
    ∃ spot, follow files.root links trail parts = .ok spot ∧ spot.place = goal := by
  generalize start : trail.place = place at leads
  induction leads generalizing trail with
  | @here links place =>
    refine ⟨.directory trail.place (trail.current files.root), ?_, start⟩
    rw [follow_eq_walk, walk]
  | stay _ _ ih =>
    rw [follow_stay]
    exact ih valid start
  | up _ _ ih =>
    rw [follow_up]
    exact ih valid.drop_one (start ▸ Trail.place_drop_one trail)
  | @down links place goal part parts _ named short unlinked leads ih =>
    subst start
    have there := at?_of_valid valid part
    cases found : (trail.current files.root).lookup part with
    | some entry =>
      rw [found] at there
      cases entry with
      | directory entries =>
        rw [follow_directory named short found]
        exact ih (.cons valid found) (Trail.place_cons part entries trail)
      | link target => exact absurd (form?_eq_link.mpr there) (unlinked target)
      | file id =>
        rw [follow_file named short found]
        cases parts with
        | nil =>
          cases leads
          exact ⟨_, rfl, rfl⟩
        | cons next parts =>
          have directory := leads.isDirectory
          rw [form?_eq_file.mpr there] at directory
          cases directory
    | none =>
      rw [found] at there
      rw [follow_vacant named short found]
      cases parts with
      | nil =>
        cases leads
        exact ⟨_, rfl, rfl⟩
      | cons next parts =>
        obtain ⟨entries, directory⟩ := form?_eq_directory.mp leads.isDirectory
        rw [there] at directory
        cases directory
  | @link links place goal part target parts _ named short linked _ ih =>
    subst start
    have found : (trail.current files.root).lookup part = some (.link target) := by
      rw [← at?_of_valid valid part]
      exact form?_eq_link.mp linked
    rw [follow_link named short found]
    exact ih (valid_origin valid target) (place_origin trail target)

def Standing (files : Files) : Prop :=
  files.form? files.working = some .directory

def origin (files : Files) (path : String) : Place :=
  originOf files.working path

theorem valid_start (files : Files) (path : String) : (files.start path).Valid files.root := by
  unfold start
  split
  · exact .nil
  · exact Trail.valid_toPlace .nil files.working rfl

theorem place_start (standing : files.Standing) (path : String) :
    (files.start path).place = files.origin path := by
  obtain ⟨entries, there⟩ := form?_eq_directory.mp standing
  unfold start origin originOf
  split
  · rfl
  · exact Trail.place_toPlace there []

/-- The path is one that the system accepts, and it leads to the place. -/
structure Reaches (files : Files) (path : String) (place : Place) : Prop where
  accepted : checkPath path = .ok ()
  leads : Leads files.form? maxLinks (files.origin path) (pathSteps path) place

section

variable {path : String} {place : Place}

theorem reaches_of_locate (standing : files.Standing) {spot : Spot}
    (located : files.locate path = .ok spot) : files.Reaches path spot.place ∧ files.Holds spot := by
  cases accepted : checkPath path with
  | error fault =>
    rw [locate, accepted] at located
    cases located
  | ok nothing =>
    rw [locate, accepted] at located
    obtain ⟨leads, holds⟩ := leads_of_follow (valid_start files path) located
    rw [place_start standing path] at leads
    exact ⟨⟨accepted, leads⟩, holds⟩

theorem locate_of_reaches (standing : files.Standing) (reaches : files.Reaches path place) :
    ∃ spot, files.locate path = .ok spot ∧ spot.place = place := by
  have leads := reaches.leads
  rw [← place_start standing path] at leads
  rw [locate, reaches.accepted]
  exact follow_of_leads (valid_start files path) leads

theorem Reaches.unique {other : Place} (reaches : files.Reaches path place)
    (reaches' : files.Reaches path other) : place = other :=
  reaches.leads.unique reaches'.leads

theorem fileAt?_eq_some {id : FileId} :
    files.fileAt? path = some id ↔ ∃ place, files.locate path = .ok (.file place id) := by
  unfold fileAt?
  split
  · rename_i place other located
    simp [located]
  · rename_i other
    simpa using fun place located => other place id located

theorem fileAt?_iff (standing : files.Standing) {id : FileId} :
    files.fileAt? path = some id ↔
      ∃ place, files.Reaches path place ∧ files.form? place = some (.file id) := by
  rw [fileAt?_eq_some]
  constructor
  · rintro ⟨place, located⟩
    obtain ⟨reaches, holds⟩ := reaches_of_locate standing located
    exact ⟨place, reaches, form?_eq_file.mpr holds.found?_eq⟩
  · rintro ⟨place, reaches, file⟩
    obtain ⟨spot, located, rfl⟩ := locate_of_reaches standing reaches
    have holds := (reaches_of_locate standing located).2
    have same := holds.unique (.file (form?_eq_file.mp file)) rfl
    exact ⟨spot.place, located.trans (congrArg Except.ok same)⟩

theorem readBytes_iff {content : ByteArray} :
    files.readBytes path = .ok content ↔
      ∃ id, files.fileAt? path = some id ∧ files.contents id = content := by
  unfold readBytes fileAt?
  cases files.locate path with
  | error fault => simp [bind, Except.bind]
  | ok spot => cases spot <;> simp [bind, Except.bind]

end

end Files

end SchemaTypes
