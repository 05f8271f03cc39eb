import Mustache.Proofs.Storage.CalmDisk
import Mustache.Proofs.Storage.Parents

/-!
# Directories that are made

A directory that was not there and has been made is empty (`createDirectories_of_missing`). Before
it its parents are made where they are missing, and as each has fewer steps than the path, none of
them lies at its end. This takes that the path does not go back: a path that leads through its own
end and out again has parents in the directory that it names.
-/

namespace Mustache

namespace Entry

/-- Where there is a directory after `insert` has put in an empty one, the new one is, or there was
one before. -/
theorem find?_insert_directory {location target : List String} {name : String} {entry : Entry}
    {inside : List (String × Entry)}
    (reached : (entry.insert (location ++ [name]) (.directory [])).find? target =
      some (.directory inside)) :
    target = location ++ [name] ∨ ∃ others, entry.find? target = some (.directory others) := by
  rw [insert_concat] at reached
  induction location generalizing entry target with
  | nil =>
    cases entry with
    | file => exact .inr ⟨inside, reached⟩
    | directory entries =>
      cases target with
      | nil => exact .inr ⟨entries, rfl⟩
      | cons other rest =>
        rw [changeAt, find?_cons, child?] at reached
        by_cases same : other = name
        · subst same
          rw [lookup_upsert_self, Option.bind_some] at reached
          cases rest with
          | nil => exact .inl rfl
          | cons => cases reached
        · rw [lookup_upsert_of_ne same] at reached
          exact .inr ⟨inside, by rw [find?_cons]; exact reached⟩
  | cons first location inductionHypothesis =>
    cases entry with
    | file => exact .inr ⟨inside, reached⟩
    | directory entries =>
      cases target with
      | nil => exact .inr ⟨entries, rfl⟩
      | cons other rest =>
        rw [changeAt] at reached
        cases present : entries.lookup first with
        | none =>
          rw [present] at reached
          exact .inr ⟨inside, reached⟩
        | some child =>
          rw [present, find?_cons, child?] at reached
          by_cases same : other = first
          · subst same
            rw [lookup_upsert_self, Option.bind_some] at reached
            rcases inductionHypothesis reached with rfl | ⟨others, found⟩
            · exact .inl rfl
            · exact .inr ⟨others, by rw [find?_cons, child?, present]; exact found⟩
          · rw [lookup_upsert_of_ne same] at reached
            exact .inr ⟨inside, by rw [find?_cons]; exact reached⟩

end Entry

namespace Disk

section Walk

variable {root : Entry} {start directory names : List String}
  {name : String} {place : Place}

/-- The names that lead to a place. -/
def Place.location : Place → List String
  | .present location _ => location
  | .absent directory name => directory ++ [name]

/-- A `walk` that does not go back comes to the place that its names spell. -/
theorem location_of_walk (forward : ".." ∉ names) (walked : walk root start names = .ok place) :
    place.location = start ++ names.filter (· != ".") := by
  induction names generalizing start with
  | nil =>
    rw [walk] at walked
    split at walked
    · cases walked
      exact (List.append_nil _).symm
    · cases walked
  | cons name rest inductionHypothesis =>
    rw [List.mem_cons, not_or] at forward
    have noDots : ¬ (name == "..") = true := fun same => forward.1 (eq_of_beq same).symm
    obtain ⟨entries, _, ⟨next, followed, goesOn⟩ | ⟨free, rfl, rfl⟩⟩ := walk_cons_eq_ok walked
    · rw [inductionHypothesis forward.2 goesOn]
      rw [follow, if_neg noDots] at followed
      split at followed
      · next isDot =>
        cases followed
        rw [List.filter_cons_of_neg (by simp [eq_of_beq isDot])]
      · next noDot =>
        obtain ⟨_, _, rfl⟩ := Option.map_eq_some_iff.1 followed
        rw [List.filter_cons_of_pos (by simpa [bne] using noDot), List.append_assoc]
        rfl
    · rw [List.filter_cons_of_pos (by simpa using (follow_eq_none_iff.1 free).1)]
      rfl

/-- A directory at the place that names spell is where a `walk` along them ends, if they do not go
back. -/
theorem walk_of_find? {entries : List (String × Entry)} (forward : ".." ∉ names)
    (found : root.find? (start ++ names.filter (· != ".")) = some (.directory entries)) :
    walk root start names =
      .ok (.present (start ++ names.filter (· != ".")) (.directory entries)) := by
  induction names generalizing start with
  | nil =>
    rw [List.filter_nil, List.append_nil] at found ⊢
    rw [walk, found]
  | cons name rest inductionHypothesis =>
    rw [List.mem_cons, not_or] at forward
    -- Whatever is on the way to a directory is a directory.
    obtain ⟨others, here⟩ : ∃ others, root.find? start = some (.directory others) := by
      rw [Entry.find?_append] at found
      rcases reached : root.find? start with _ | (_ | others)
      · rw [reached] at found
        cases found
      · rw [reached, Option.bind_some] at found
        generalize (name :: rest).filter (· != ".") = further at found
        cases further <;> cases found
      · exact ⟨others, rfl⟩
    by_cases isDot : name = "."
    · subst isDot
      rw [List.filter_cons_of_neg (by decide)] at found ⊢
      rw [walk_cons_of_follow here (show follow start others "." = some start from rfl)]
      exact inductionHypothesis forward.2 found
    · have step : name :: rest.filter (· != ".") = [name] ++ rest.filter (· != ".") := rfl
      rw [List.filter_cons_of_pos (by simpa using isDot), step, ← List.append_assoc] at found ⊢
      have present : ∃ child, others.lookup name = some child := by
        rw [Entry.find?_append, Entry.find?_concat here] at found
        cases present : others.lookup name with
        | none =>
          rw [present] at found
          cases found
        | some child => exact ⟨child, rfl⟩
      obtain ⟨child, present⟩ := present
      have followed : follow start others name = some (start ++ [name]) := by
        rw [follow, if_neg (by simpa using isDot), if_neg (by simpa using Ne.symm forward.1),
          present, Option.map_some]
      rw [walk_cons_of_follow here followed]
      exact inductionHypothesis forward.2 found

/-- A `walk` comes to a free name in a directory in which it is not. -/
theorem find?_of_walk_absent (walked : walk root start names = .ok (.absent directory name)) :
    ∃ entries, root.find? directory = some (.directory entries) ∧ entries.lookup name = none ∧
      name ≠ "." ∧ name ≠ ".." := by
  induction names generalizing start with
  | nil =>
    rw [walk] at walked
    split at walked <;> cases walked
  | cons first rest inductionHypothesis =>
    obtain ⟨entries, found, ⟨next, _, goesOn⟩ | ⟨free, _, place⟩⟩ := walk_cons_eq_ok walked
    · exact inductionHypothesis goesOn
    · cases place
      obtain ⟨noDot, noDots, free⟩ := follow_eq_none_iff.1 free
      exact ⟨entries, found, free, noDot, noDots⟩

/-- If no directory is lost and something is put where a `walk` led, the walk leads to it. -/
theorem walk_of_find?_location {after added : Entry} (keeps : root.KeepsDirectories after)
    (walked : walk root start names = .ok place)
    (found : after.find? place.location = some added) :
    walk after start names = .ok (.present place.location added) := by
  induction names generalizing start with
  | nil =>
    rw [walk] at walked
    split at walked
    · cases walked
      rw [Place.location] at found ⊢
      rw [walk, found]
    · cases walked
  | cons first rest inductionHypothesis =>
    obtain ⟨entries, here, ⟨next, followed, goesOn⟩ | ⟨free, rfl, rfl⟩⟩ := walk_cons_eq_ok walked
    · obtain ⟨_, kept⟩ := keeps _ _ here
      -- The walk goes on from the next location, so that is a directory, or it ends there.
      have reached : ∃ inside, after.find? next = some inside := by
        cases rest with
        | nil =>
          rw [walk] at goesOn
          split at goesOn <;> cases goesOn
          exact ⟨added, found⟩
        | cons =>
          obtain ⟨others, there, _⟩ := walk_cons_eq_ok goesOn
          obtain ⟨_, keptNext⟩ := keeps _ _ there
          exact ⟨_, keptNext⟩
      rw [walk_cons_of_follow kept (follow_of_find? kept followed reached)]
      exact inductionHypothesis goesOn
    · obtain ⟨noDot, noDots, _⟩ := follow_eq_none_iff.1 free
      obtain ⟨others, kept⟩ := keeps _ _ here
      rw [Place.location] at found ⊢
      have present : others.lookup first = some added := by
        rw [← Entry.find?_concat kept, found]
      have followed : follow start others first = some (start ++ [first]) := by
        rw [follow, if_neg (by simpa using noDot), if_neg (by simpa using noDots), present,
          Option.map_some]
      rw [walk_cons_of_follow kept followed, walk, found]

/-- A `walk` to a free name comes to what `insert` puts under it. -/
theorem walk_insert_of_absent (walked : walk root start names = .ok (.absent directory name))
    (added : Entry) :
    walk (root.insert (directory ++ [name]) added) start names =
      .ok (.present (directory ++ [name]) added) := by
  obtain ⟨entries, found, free, _, _⟩ := find?_of_walk_absent walked
  have keeps : root.KeepsDirectories (root.insert (directory ++ [name]) added) := by
    rw [Entry.insert_concat]
    refine Entry.keepsDirectories_changeAt found ?_
    intro other inside present
    rw [Entry.lookup_upsert_of_ne, present]
    rintro rfl
    rw [free] at present
    cases present
  refine walk_of_find?_location keeps walked ?_
  rw [Place.location, Entry.insert_concat, Entry.find?_concat (Entry.find?_changeAt found),
    Entry.lookup_upsert_self]

end Walk

section Operations

variable {disk after : Disk} {path : String} {location : List String}

/-- Counting an operation with `attempt` brings no fault. -/
theorem fault_attempt_of_calm (calm : disk.fault = none) : (attempt disk).2.fault = none := by
  rw [attempt_of_calm calm]
  exact calm

/-- Making a directory with `createDirectory` is counted, and then it fails or puts an empty
directory under the name to which the path leads. -/
theorem createDirectory_cases (path : String) (disk : Disk) :
    (∃ error, createDirectory path disk = (.error error, (attempt disk).2)) ∨
      ∃ directory name, (attempt disk).2.locate path = .ok (.absent directory name) ∧
        createDirectory path disk = (.ok (), { (attempt disk).2 with
          root := (attempt disk).2.root.insert (directory ++ [name]) (.directory []) }) := by
  rw [createDirectory, attempt_bind_apply]
  rcases attempt disk with ⟨error | _, counted⟩
  · exact .inl ⟨error, rfl⟩
  · simp only
    rcases counted.locate path with error | ⟨_, _⟩ | ⟨directory, name⟩
    · exact .inl ⟨error, rfl⟩
    · exact .inl ⟨.alreadyExists, rfl⟩
    · simp only
      split
      · exact .inl ⟨.nameTooLong, rfl⟩
      · exact .inr ⟨directory, name, rfl, rfl⟩

/-- A directory that `createDirectory` made is empty. -/
theorem directoryAt_of_createDirectory (made : createDirectory path disk = (.ok (), after)) :
    ∃ location, after.DirectoryAt path location [] := by
  rcases createDirectory_cases path disk with
    ⟨error, failed⟩ | ⟨directory, name, located, succeeded⟩
  · rw [failed] at made
    cases made
  · rw [succeeded] at made
    cases made
    rw [locate_of_fits (fits_of_locate located)] at located
    exact ⟨_, walk_insert_of_absent located _⟩

/-- To `tolerate` a failure takes one look. -/
theorem tolerate_reaches (reaches : Disk → Disk → Prop) (refl : ∀ disk, reaches disk disk)
    (counts : ∀ disk, reaches disk (attempt disk).2) (path : String)
    (result : Except FileError Unit) (disk : Disk) :
    reaches disk (tolerate path result disk).2 := by
  cases result with
  | ok => exact refl disk
  | error error =>
    have counted := counts disk
    rw [tolerate_error, isDirectory_apply]
    revert counted
    rcases attempt disk with ⟨_ | _, counted⟩
    · exact fun counted => counted
    · intro counted
      simp only
      rcases Disk.entry _ path with _ | (_ | _) <;> exact counted

/-- A relation that counting an operation and making each of some directories bear to the disks
before and after them is borne by making all that are missing (`createChain`). -/
theorem createChain_reaches (reaches : Disk → Disk → Prop) (refl : ∀ disk, reaches disk disk)
    (trans : ∀ {first second third}, reaches first second → reaches second third →
      reaches first third)
    (counts : ∀ disk, reaches disk (attempt disk).2) {paths : List String}
    (each : ∀ path ∈ paths, path.isEmpty = false →
      ∀ disk, reaches disk (createDirectory path disk).2) (disk : Disk) :
    reaches disk (createChain paths disk).2 := by
  induction paths generalizing disk with
  | nil => exact refl disk
  | cons path parents inductionHypothesis =>
    rw [createChain_cons]
    split
    · exact refl disk
    · next nonempty =>
      have made := each path List.mem_cons_self (by simpa using nonempty)
      have tolerated := tolerate_reaches reaches refl counts path
      have above := inductionHypothesis fun other member =>
        each other (List.mem_cons_of_mem _ member)
      split
      · next counted failed =>
        have first := made disk
        rw [failed] at first
        refine trans first ?_
        have chain := above counted
        revert chain
        rcases createChain parents counted with ⟨_ | _, between⟩
        · exact fun chain => chain
        · exact fun chain => trans chain (trans (made between) (tolerated _ _))
      · next result counted _ failed =>
        have first := made disk
        rw [failed] at first
        exact trans first (tolerated _ _)

/-- Without a fault to come what `isDirectory` sees is a directory that `locate` finds. -/
theorem locate_of_isDirectory (calm : disk.fault = none)
    (seen : isDirectory path disk = (true, after)) :
    ∃ location entries, disk.locate path = .ok (.present location (.directory entries)) := by
  rw [isDirectory_apply, attempt_of_calm calm] at seen
  simp only at seen
  rw [Disk.entry] at seen
  rcases located : disk.locate path with error | ⟨location, content | entries⟩ | ⟨directory, name⟩
  · rw [located] at seen
    cases seen
  · rw [located] at seen
    cases ends : Path.endsInSlash path <;> rw [ends] at seen <;> cases seen
  · rw [located] at seen
    cases seen
    exact ⟨location, entries, rfl⟩
  · rw [located] at seen
    cases seen

/-- Making directories with `createChain` brings no fault. -/
theorem fault_createChain_of_calm (paths : List String) (calm : disk.fault = none) :
    (createChain paths disk).2.fault = none := by
  refine createChain_reaches (fun before after => before.fault = none → after.fault = none)
    (fun _ same => same) (fun left right start => right (left start))
    (fun _ => fault_attempt_of_calm) ?_ disk calm
  intro path _ _ disk calm
  have counted := fault_attempt_of_calm calm
  rcases createDirectory_cases path disk with ⟨error, failed⟩ | ⟨_, _, _, succeeded⟩
  · rw [failed]
    exact counted
  · rw [succeeded]
    exact counted

/-- Where the way along a path starts. -/
def start (disk : Disk) (path : String) : List String :=
  if Path.isAbsolute path.toList then [] else disk.workingDirectory

/-- No directory comes to a location, and relative paths start where they did. -/
structure Spares (location : List String) (before after : Disk) : Prop where
  /-- If there was no directory there is none. -/
  free : (∀ entries, before.root.find? location ≠ some (.directory entries)) →
    ∀ entries, after.root.find? location ≠ some (.directory entries)
  /-- Relative paths start where they did. -/
  workingDirectory : after.workingDirectory = before.workingDirectory

theorem Spares.refl (disk : Disk) : Spares location disk disk :=
  ⟨fun free => free, rfl⟩

theorem Spares.trans {first second third : Disk} (left : Spares location first second)
    (right : Spares location second third) : Spares location first third :=
  ⟨fun free => right.free (left.free free),
    right.workingDirectory.trans left.workingDirectory⟩

theorem spares_attempt (location : List String) (disk : Disk) :
    Spares location disk (attempt disk).2 := by
  have same := sameFiles_attempt disk
  exact ⟨fun free => by rw [same.root]; exact free, same.workingDirectory⟩

/-- A path that does not go back leads to the place that its steps spell. -/
theorem location_of_locate {place : Place} (forward : ".." ∉ Path.names path)
    (located : disk.locate path = .ok place) :
    place.location = disk.start path ++ Path.steps path := by
  rw [locate_of_fits (fits_of_locate located)] at located
  rw [location_of_walk forward located, Path.filter_names]
  rfl

/-- Making a directory `Spares` every location but its own. -/
theorem spares_createDirectory (forward : ".." ∉ Path.names path)
    (elsewhere : location ≠ disk.start path ++ Path.steps path) :
    Spares location disk (createDirectory path disk).2 := by
  have counted := spares_attempt location disk
  rcases createDirectory_cases path disk with
    ⟨error, failed⟩ | ⟨directory, name, located, succeeded⟩
  · rw [failed]
    exact counted
  · have made := location_of_locate forward located
    rw [start, (sameFiles_attempt disk).workingDirectory, ← start] at made
    rw [succeeded]
    refine ⟨fun free entries reached => ?_, counted.workingDirectory⟩
    rcases Entry.find?_insert_directory reached with same | ⟨others, found⟩
    · exact elsewhere (same.trans made)
    · exact counted.free free others found

/-- Making the `parents` of a path `Spares` the place to which the path leads. -/
theorem spares_createChain_parents (forward : ".." ∉ Path.names path) (count : Nat) (disk : Disk) :
    Spares (disk.start path ++ Path.steps path) disk
      (createChain (Path.parents count path) disk).2 := by
  refine createChain_reaches (fun before after =>
      before.workingDirectory = disk.workingDirectory →
        Spares (disk.start path ++ Path.steps path) before after)
    (fun before _ => .refl before) ?_ (fun before _ => spares_attempt _ before) ?_ disk rfl
  · intro first second third left right same
    exact (left same).trans (right ((left same).workingDirectory.trans same))
  · intro parent member nonempty before same
    rcases Path.steps_parents member with empty | ⟨absolute, last, rest, steps⟩
    · rw [empty] at nonempty
      cases nonempty
    · have forwardParent : ".." ∉ Path.names parent := by
        intro back
        have further : ".." ∈ Path.steps path := by
          rw [steps]
          exact List.mem_append_left _ (Path.dots_mem_steps back)
        rw [← Path.filter_names] at further
        exact forward (List.mem_filter.1 further).1
      refine spares_createDirectory forwardParent ?_
      rw [start, start, absolute, same, steps, ne_eq, List.append_cancel_left_eq]
      simp

/-- Making the `parents` of a missing directory does not make the directory. -/
theorem isDirectory_createChain_parents (forward : ".." ∉ Path.names path)
    (calm : disk.fault = none) (missing : (disk.entry path).isOk = false) (count : Nat)
    (last : Disk) :
    isDirectory path (createChain (Path.parents count path) disk).2 ≠ (true, last) := by
  intro seen
  obtain ⟨location, entries, located⟩ :=
    locate_of_isDirectory (fault_createChain_of_calm _ calm) seen
  have fits := fits_of_locate located
  have spared := spares_createChain_parents forward count disk
  have place := location_of_locate forward located
  rw [start, spared.workingDirectory, ← start] at place
  rw [locate_of_fits fits] at located
  have reached := find?_of_walk located
  refine spared.free ?_ entries (place ▸ reached)
  -- Before, there was no directory at this place, for the path would have led to it.
  intro others found
  rw [← Path.filter_names] at found
  have walked := walk_of_find? forward found
  rw [start] at walked
  rw [Disk.entry, locate_of_fits fits, walked] at missing
  cases missing

/-- A directory that is there once it was tried to make it (`tolerate`), and was not before, is
empty. -/
theorem directoryAt_of_tolerate (calm : disk.fault = none)
    (unseen : ∀ last, isDirectory path disk ≠ (true, last))
    (made : tolerate path (createDirectory path disk).1 (createDirectory path disk).2 =
      (.ok (), after)) :
    ∃ location, after.DirectoryAt path location [] := by
  rcases createDirectory_cases path disk with
    ⟨error, failed⟩ | ⟨directory, name, _, succeeded⟩
  · rw [attempt_of_calm calm] at failed
    rw [failed, tolerate_error] at made
    rcases seen : isDirectory path disk with ⟨_ | _, last⟩
    · rw [seen] at made
      cases made
    · exact absurd seen (unseen last)
  · rw [succeeded] at made
    cases made
    exact directoryAt_of_createDirectory succeeded

/-- A directory that was missing and that `createDirectories` has made is empty, if its path does
not go back. -/
theorem createDirectories_of_missing (forward : ".." ∉ Path.names path)
    (nonempty : path.isEmpty = false) (calm : disk.fault = none)
    (missing : (disk.entry path).isOk = false)
    (made : createDirectories path disk = (.ok (), after)) :
    after.fault = none ∧ ∃ location, after.DirectoryAt path location [] := by
  have calmAfter := fault_createChain_of_calm (Path.ancestors path) calm
  rw [← createDirectories, made] at calmAfter
  refine ⟨calmAfter, ?_⟩
  have unseen : ∀ last, isDirectory path disk ≠ (true, last) := by
    intro last seen
    obtain ⟨location, entries, located⟩ := locate_of_isDirectory calm seen
    rw [Disk.entry, located] at missing
    cases missing
  rw [createDirectories, Path.ancestors, createChain_cons, nonempty] at made
  simp only [Bool.false_eq_true, if_false] at made
  rcases attempted : createDirectory path disk with ⟨result, counted⟩
  rw [attempted] at made
  split at made
  · next same =>
    cases same
    have unchanged : counted = disk := by
      rcases createDirectory_cases path disk with ⟨error, failed⟩ | ⟨_, _, _, succeeded⟩
      · rw [attempt_of_calm calm, attempted] at failed
        cases failed
        rfl
      · rw [attempted] at succeeded
        cases succeeded
    subst unchanged
    have calmBetween := fault_createChain_of_calm (Path.parents path.length path) calm
    have unseenBetween := isDirectory_createChain_parents forward calm missing path.length
    rcases chain : createChain (Path.parents path.length path) counted with ⟨_ | _, between⟩
    · rw [chain] at made
      cases made
    · rw [chain] at made calmBetween unseenBetween
      exact directoryAt_of_tolerate calmBetween unseenBetween made
  · next same =>
    cases same
    exact directoryAt_of_tolerate calm unseen (by rw [attempted]; exact made)

end Operations

end Disk

end Mustache
