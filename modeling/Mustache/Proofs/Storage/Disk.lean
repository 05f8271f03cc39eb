import Mustache.Proofs.Scope.Alike
import Mustache.Proofs.Storage.Entry
import Mustache.Proofs.Storage.Path

/-!
# Operations on files

Where the path of a plain name leads is told by the directory to which the rest of the path leads,
and that directory stays where it is while files come and go. With this, what an operation does is
said about the names of one directory: it fails and changes none, or one file comes, goes or gets
another name there (`write_cases`, `rename_cases`, `remove_cases`).
-/

namespace Mustache

namespace Disk

section Walk

variable {root after : Entry} {location start next : List String} {entry : Entry}
  {entries : List (String × Entry)} {names rest : List String} {name : String} {place : Place}

/-- Where one name leads to from a directory, if to anything, as a `walk` has it. -/
def follow (location : List String) (entries : List (String × Entry)) (name : String) :
    Option (List String) :=
  if name == "." then some location
  else if name == ".." then some location.dropLast
  else (entries.lookup name).map fun _ => location ++ [name]

/-- To `follow` a name leads nowhere if it is neither a dot nor two and is free in the directory. -/
theorem follow_eq_none_iff :
    follow location entries name = none ↔
      name ≠ "." ∧ name ≠ ".." ∧ entries.lookup name = none := by
  rw [follow]
  by_cases isDot : name = "."
  · simp [isDot]
  · by_cases isDots : name = ".."
    · simp [isDots]
    · simp [isDot, isDots]

/-- From a directory a `walk` goes on where `follow` takes its first name. -/
theorem walk_cons_of_follow (found : root.find? start = some (.directory entries))
    (followed : follow start entries name = some next) :
    walk root start (name :: rest) = walk root next rest := by
  rw [follow] at followed
  rw [walk, found]
  simp only
  split
  · next isDot =>
    rw [if_pos isDot, Option.some.injEq] at followed
    rw [followed]
  · next noDot =>
    rw [if_neg noDot] at followed
    split
    · next isDots =>
      rw [if_pos isDots, Option.some.injEq] at followed
      rw [followed]
    · next noDots =>
      rw [if_neg noDots] at followed
      cases present : entries.lookup name with
      | none =>
        rw [present] at followed
        cases followed
      | some child =>
        rw [present, Option.map_some, Option.some.injEq] at followed
        rw [followed]

/-- A `walk` that comes to a place starts in a directory; it goes on from there, or it ends at a
free name. -/
theorem walk_cons_eq_ok (walked : walk root start (name :: rest) = .ok place) :
    ∃ entries, root.find? start = some (.directory entries) ∧
      ((∃ next, follow start entries name = some next ∧ walk root next rest = .ok place) ∨
        (follow start entries name = none ∧ rest = [] ∧ place = .absent start name)) := by
  rw [walk] at walked
  split at walked
  · cases walked
  · cases walked
  · next entries found =>
    refine ⟨entries, found, ?_⟩
    rw [follow]
    split at walked
    · next isDot =>
      rw [if_pos isDot]
      exact .inl ⟨start, rfl, walked⟩
    · next noDot =>
      rw [if_neg noDot]
      split at walked
      · next isDots =>
        rw [if_pos isDots]
        exact .inl ⟨start.dropLast, rfl, walked⟩
      · next noDots =>
        rw [if_neg noDots]
        split at walked
        · next present =>
          rw [present]
          exact .inl ⟨start ++ [name], rfl, walked⟩
        · next free =>
          cases walked
          rw [free]
          exact .inr ⟨rfl, rfl, rfl⟩
        · cases walked

/-- Where a `walk` ends `find?` finds the entry that it found. -/
theorem find?_of_walk (walked : walk root start names = .ok (.present location entry)) :
    root.find? location = some entry := by
  induction names generalizing start with
  | nil =>
    rw [walk] at walked
    split at walked
    · next found =>
      cases walked
      exact found
    · cases walked
  | cons name rest inductionHypothesis =>
    obtain ⟨_, _, ⟨next, _, goesOn⟩ | ⟨_, _, free⟩⟩ := walk_cons_eq_ok walked
    · exact inductionHypothesis goesOn
    · cases free

/-- A `walk` that ends in a directory starts in one. -/
theorem exists_find?_start
    (walked : walk root start names = .ok (.present location (.directory entries))) :
    ∃ others, root.find? start = some (.directory others) := by
  cases names with
  | nil =>
    rw [walk] at walked
    split at walked
    · next found =>
      cases walked
      exact ⟨entries, found⟩
    · cases walked
  | cons name rest =>
    obtain ⟨others, found, _⟩ := walk_cons_eq_ok walked
    exact ⟨others, found⟩

/-- Where a name leads by `follow` does not change with the other names of a directory. -/
theorem follow_of_find? {others : List (String × Entry)}
    (kept : after.find? start = some (.directory others))
    (followed : follow start entries name = some next)
    (reached : ∃ inside, after.find? next = some inside) :
    follow start others name = some next := by
  rw [follow] at followed ⊢
  split
  · next isDot => rwa [if_pos isDot] at followed
  · next noDot =>
    rw [if_neg noDot] at followed
    split
    · next isDots => rwa [if_pos isDots] at followed
    · next noDots =>
      rw [if_neg noDots, Option.map_eq_some_iff] at followed
      obtain ⟨_, _, rfl⟩ := followed
      obtain ⟨inside, reached⟩ := reached
      rw [Entry.find?_concat kept] at reached
      rw [reached]
      rfl

/-- A `walk` to a directory is the same as long as no directory is lost (`KeepsDirectories`). -/
theorem walk_of_keepsDirectories (keeps : root.KeepsDirectories after)
    (walked : walk root start names = .ok (.present location (.directory entries))) :
    ∃ others, walk after start names = .ok (.present location (.directory others)) := by
  induction names generalizing start with
  | nil =>
    rw [walk] at walked ⊢
    split at walked
    · next found =>
      cases walked
      obtain ⟨others, kept⟩ := keeps _ _ found
      rw [kept]
      exact ⟨others, rfl⟩
    · cases walked
  | cons name rest inductionHypothesis =>
    obtain ⟨_, found, ⟨next, followed, goesOn⟩ | ⟨_, _, free⟩⟩ := walk_cons_eq_ok walked
    · obtain ⟨_, kept⟩ := keeps _ _ found
      -- The next location is a directory, so it is still there to be entered.
      obtain ⟨_, foundNext⟩ := exists_find?_start goesOn
      obtain ⟨inside, keptNext⟩ := keeps _ _ foundNext
      rw [walk_cons_of_follow kept (follow_of_find? kept followed ⟨_, keptNext⟩)]
      exact inductionHypothesis goesOn
    · cases free

/-- What a plain name leads to in a directory. -/
def placeIn (location : List String) (entries : List (String × Entry)) (name : String) : Place :=
  match entries.lookup name with
  | some child => .present (location ++ [name]) child
  | none => .absent location name

/-- In a directory a `walk` along a plain name leads to what is there under it. -/
theorem walk_single (plain : Path.IsPlain name)
    (found : root.find? location = some (.directory entries)) :
    walk root location [name] = .ok (placeIn location entries name) := by
  rw [walk, found, placeIn]
  simp only
  rw [if_neg (by simpa using plain.noDot), if_neg (by simpa using plain.noDots)]
  have inside := Entry.find?_concat found name
  cases present : entries.lookup name with
  | none => rfl
  | some child =>
    rw [present] at inside
    simp only [walk, inside]

/-- A `walk` that ends with a plain name goes to the directory of that name first. -/
theorem walk_concat (plain : Path.IsPlain name)
    (walked : walk root start names = .ok (.present location (.directory entries))) :
    walk root start (names ++ [name]) = .ok (placeIn location entries name) := by
  induction names generalizing start with
  | nil =>
    have found := find?_of_walk walked
    rw [walk] at walked
    split at walked
    · cases walked
      exact walk_single plain found
    · cases walked
  | cons first rest inductionHypothesis =>
    obtain ⟨_, found, ⟨next, followed, goesOn⟩ | ⟨_, _, free⟩⟩ := walk_cons_eq_ok walked
    · rw [List.cons_append, walk_cons_of_follow found followed]
      exact inductionHypothesis goesOn
    · cases free

/-- A `walk` that comes to a place through some names and then one more has come to a directory
through the first of them. -/
theorem exists_walk_of_concat (walked : walk root start (names ++ [name]) = .ok place) :
    ∃ location entries, walk root start names = .ok (.present location (.directory entries)) := by
  induction names generalizing start with
  | nil =>
    obtain ⟨entries, found, _⟩ := walk_cons_eq_ok walked
    refine ⟨start, entries, ?_⟩
    rw [walk, found]
  | cons first rest inductionHypothesis =>
    rw [List.cons_append] at walked
    obtain ⟨_, found, ⟨next, followed, goesOn⟩ | ⟨_, last, _⟩⟩ := walk_cons_eq_ok walked
    · rw [walk_cons_of_follow found followed]
      exact inductionHypothesis goesOn
    · cases (List.append_eq_nil_iff.1 last).2

end Walk

/-- Two disks with the same files and the same working directory. -/
structure SameFiles (left right : Disk) : Prop where
  /-- The files are the same. -/
  root : right.root = left.root
  /-- Relative paths start at the same directory. -/
  workingDirectory : right.workingDirectory = left.workingDirectory

namespace SameFiles

theorem trans {first second third : Disk} (left : first.SameFiles second)
    (right : second.SameFiles third) : first.SameFiles third :=
  ⟨right.root.trans left.root, right.workingDirectory.trans left.workingDirectory⟩

/-- A path leads to the same place on both. -/
theorem locate_eq {left right : Disk} (same : left.SameFiles right) (path : String) :
    right.locate path = left.locate path := by
  rw [locate, locate, same.root, same.workingDirectory]

/-- A path leads to the same `entry` on two disks with the `SameFiles`. -/
theorem entry_eq {left right : Disk} (same : left.SameFiles right) (path : String) :
    right.entry path = left.entry path := by
  rw [Disk.entry, Disk.entry, same.locate_eq]

end SameFiles

section Operations

variable {disk after : Disk} {base path source target name : String} {location : List String}
  {entries : List (String × Entry)} {content : ByteArray} {place : Place}

/-- An operation is counted by `attempt`, and the one that is to fail fails. -/
theorem attempt_apply (disk : Disk) :
    attempt disk = match disk.fault with
      | none => (.ok (), disk)
      | some 0 => (.error .device, { disk with fault := none })
      | some (remaining + 1) => (.ok (), { disk with fault := some remaining }) := by
  rcases disk with ⟨root, workingDirectory, _ | _ | remaining⟩ <;> rfl

/-- To `attempt` an operation leaves the files as they are. -/
theorem sameFiles_attempt (disk : Disk) : disk.SameFiles (attempt disk).2 := by
  rw [attempt_apply]
  split <;> exact ⟨rfl, rfl⟩

/-- Without a fault to come `attempt` does not hinder an operation. -/
theorem attempt_of_calm (calm : disk.fault = none) : attempt disk = (.ok (), disk) := by
  rw [attempt_apply, calm]

/-- What an operation does comes after `attempt` has counted it. -/
theorem attempt_bind_apply {α : Type} (next : Disk → FileAction α) (disk : Disk) :
    (do attempt; let disk ← get; next disk) disk =
      match attempt disk with
      | (.error error, counted) => (.error error, counted)
      | (.ok (), counted) => next counted counted := by
  rw [bind_apply]
  rcases attempt disk with ⟨_ | _, counted⟩
  · rfl
  · simp only
    rw [bind_apply, get_apply]

/-- A path that an operation can follow; others are refused by `locate` wherever they would lead. -/
structure Fits (path : String) : Prop where
  /-- The path holds no character of code zero. -/
  noNul : path.toList.contains '\x00' = false
  /-- The path is not empty. -/
  nonempty : path.isEmpty = false
  /-- The path is not too long. -/
  short : path.utf8ByteSize < maxPathBytes

/-- Where a path leads is found by walking its names. -/
theorem locate_of_fits (fits : Fits path) (disk : Disk) :
    disk.locate path =
      walk disk.root (if Path.isAbsolute path.toList then [] else disk.workingDirectory)
        (Path.names path) := by
  rw [locate, if_neg (by rw [fits.noNul]; exact Bool.false_ne_true),
    if_neg (by rw [fits.nonempty]; exact Bool.false_ne_true), if_neg (Nat.not_le.2 fits.short)]

/-- A path for which `locate` finds a place can be followed (`Fits`). -/
theorem fits_of_locate (located : disk.locate path = .ok place) : Fits path := by
  rw [locate] at located
  split at located
  · cases located
  · next noNul =>
    split at located
    · cases located
    · next nonempty =>
      split at located
      · cases located
      · next short =>
        exact ⟨by simpa using noNul, by simpa using nonempty, Nat.not_le.1 short⟩

/-- The path of a directory leads to a location with some names in it. -/
def DirectoryAt (disk : Disk) (base : String) (location : List String)
    (entries : List (String × Entry)) : Prop :=
  walk disk.root (if Path.isAbsolute base.toList then [] else disk.workingDirectory)
    (Path.names base) = .ok (.present location (.directory entries))

/-- The path of a plain name leads by `locate` to what its directory has under it. -/
theorem DirectoryAt.locate_join (there : disk.DirectoryAt base location entries)
    (plain : Path.IsPlain name) (fits : Fits (Path.join base name)) :
    disk.locate (Path.join base name) = .ok (placeIn location entries name) := by
  rw [locate_of_fits fits, plain.isAbsolute_join, plain.names_join]
  exact walk_concat plain there

/-- If `locate` finds a place for the path of a plain name, its directory is there. -/
theorem exists_directoryAt (plain : Path.IsPlain name)
    (located : disk.locate (Path.join base name) = .ok place) :
    ∃ location entries, disk.DirectoryAt base location entries ∧
      place = placeIn location entries name := by
  have fits := fits_of_locate located
  have walked := located
  rw [locate_of_fits fits, plain.isAbsolute_join, plain.names_join] at walked
  obtain ⟨location, entries, there⟩ := exists_walk_of_concat walked
  refine ⟨location, entries, there, ?_⟩
  rw [DirectoryAt.locate_join there plain fits, Except.ok.injEq] at located
  exact located.symm

/-- A directory keeps its place when `changeAt` changes its own names and no directory is lost. -/
theorem DirectoryAt.changeAt {change : List (String × Entry) → List (String × Entry)}
    (there : disk.DirectoryAt base location entries)
    (changed : after.root = Entry.changeAt change location disk.root)
    (workingDirectory : after.workingDirectory = disk.workingDirectory)
    (keeps : ∀ name inside, entries.lookup name = some (.directory inside) →
      (change entries).lookup name = some (.directory inside)) :
    after.DirectoryAt base location (change entries) := by
  have found := find?_of_walk there
  obtain ⟨others, walked⟩ :=
    walk_of_keepsDirectories (Entry.keepsDirectories_changeAt found keeps) there
  have foundAfter := find?_of_walk walked
  rw [Entry.find?_changeAt found] at foundAfter
  cases foundAfter
  rw [DirectoryAt, changed, workingDirectory]
  exact walked

/-- A directory is where it was if two disks have the `SameFiles`. -/
theorem SameFiles.directoryAt (same : disk.SameFiles after)
    (there : disk.DirectoryAt base location entries) :
    after.DirectoryAt base location entries := by
  rw [DirectoryAt, same.root, same.workingDirectory]
  exact there

/-- A directory keeps its place when `insert` puts an entry under a name that no directory has. -/
theorem DirectoryAt.insert (there : disk.DirectoryAt base location entries)
    (free : ∀ others, entries.lookup name ≠ some (.directory others)) (added : Entry) :
    ({ disk with root := disk.root.insert (location ++ [name]) added } : Disk).DirectoryAt base
      location (Entry.upsert name added entries) := by
  refine there.changeAt (Entry.insert_concat location name added _) rfl ?_
  intro other inside found
  by_cases same : other = name
  · subst same
    exact absurd found (free inside)
  · rw [Entry.lookup_upsert_of_ne same]
    exact found

/-- A directory keeps its place when `erase` takes out what is under a name and is no directory. -/
theorem DirectoryAt.erase (there : disk.DirectoryAt base location entries)
    (free : ∀ others, entries.lookup name ≠ some (.directory others)) :
    ({ disk with root := disk.root.erase (location ++ [name]) } : Disk).DirectoryAt base location
      (entries.filter (·.1 != name)) := by
  refine there.changeAt (Entry.erase_concat location name _) rfl ?_
  intro other inside found
  by_cases same : other = name
  · subst same
    exact absurd found (free inside)
  · rw [lookup_filter_of_ne same]
    exact found

/-- What a plain name leads to (`placeIn`) is told by the directory. -/
theorem placeIn_eq_present {child : Entry} {reached : List String}
    (place : .present reached child = placeIn location entries name) :
    entries.lookup name = some child ∧ reached = location ++ [name] := by
  rw [placeIn] at place
  split at place
  · next found =>
    cases place
    exact ⟨found, rfl⟩
  · cases place

/-- A plain name that leads to nothing (`placeIn`) is free in its directory. -/
theorem placeIn_eq_absent {directory : List String} {free : String}
    (place : .absent directory free = placeIn location entries name) :
    entries.lookup name = none ∧ directory = location ∧ free = name := by
  rw [placeIn] at place
  split at place
  · cases place
  · next missing =>
    cases place
    exact ⟨missing, rfl, rfl⟩

/-- To `write` under a plain name is counted, and then it fails or puts the file into the directory
of the name, in place of a file at most. -/
theorem write_cases (plain : Path.IsPlain name) (content : ByteArray) (disk : Disk) :
    (∃ error, write (Path.join base name) content disk = (.error error, (attempt disk).2)) ∨
      ∃ location entries, (attempt disk).2.DirectoryAt base location entries ∧
        Fits (Path.join base name) ∧ (∀ inside, entries.lookup name ≠ some (.directory inside)) ∧
        write (Path.join base name) content disk = (.ok (), { (attempt disk).2 with
          root := (attempt disk).2.root.insert (location ++ [name]) (.file content) }) := by
  rw [write, attempt_bind_apply]
  rcases attempt disk with ⟨error | _, counted⟩
  · exact .inl ⟨error, rfl⟩
  · simp only
    rcases located : counted.locate (Path.join base name) with
      error | ⟨reached, old | others⟩ | ⟨directory, free⟩
    · exact .inl ⟨error, rfl⟩
    · obtain ⟨location, entries, there, place⟩ := exists_directoryAt plain located
      obtain ⟨found, rfl⟩ := placeIn_eq_present place
      refine .inr ⟨location, entries, there, fits_of_locate located, ?_, ?_⟩
      · rw [found]
        exact nofun
      · simp only [plain.endsInSlash_join]
        rfl
    · exact .inl ⟨.isDirectory, rfl⟩
    · obtain ⟨location, entries, there, place⟩ := exists_directoryAt plain located
      obtain ⟨missing, rfl, rfl⟩ := placeIn_eq_absent place
      simp only [plain.endsInSlash_join, Bool.false_eq_true, if_false]
      split
      · exact .inl ⟨.nameTooLong, rfl⟩
      · refine .inr ⟨directory, entries, there, fits_of_locate located, ?_, rfl⟩
        rw [missing]
        exact nofun

/-- What `write` has written under a plain name is in the directory of that name. -/
theorem write_in_directory (plain : Path.IsPlain name)
    (written : write (Path.join base name) content disk = (.ok (), after)) :
    ∃ location entries, after.DirectoryAt base location entries ∧
      entries.lookup name = some (.file content) := by
  rcases write_cases plain content disk with
    ⟨error, failed⟩ | ⟨location, entries, there, _, free, succeeded⟩
  · rw [failed] at written
    cases written
  · rw [succeeded] at written
    cases written
    exact ⟨location, _, there.insert free _, Entry.lookup_upsert_self name _ _⟩

/-- To `rename` a file to another plain name in its directory is counted, and then it fails or moves
the file, in place of a file at most. -/
theorem rename_cases (plainSource : Path.IsPlain source) (plainTarget : Path.IsPlain target)
    (differ : source ≠ target) (there : disk.DirectoryAt base location entries)
    (found : entries.lookup source = some (.file content)) :
    (∃ error, rename (Path.join base source) (Path.join base target) disk =
      (.error error, (attempt disk).2)) ∨
      Fits (Path.join base target) ∧
        (∀ inside, entries.lookup target ≠ some (.directory inside)) ∧
        rename (Path.join base source) (Path.join base target) disk =
          (.ok (), { (attempt disk).2 with
            root := ((attempt disk).2.root.erase (location ++ [source])).insert
              (location ++ [target]) (.file content) }) := by
  have thereCounted := (sameFiles_attempt disk).directoryAt there
  rw [rename, attempt_bind_apply]
  revert thereCounted
  rcases attempt disk with ⟨error | _, counted⟩
  · exact fun _ => .inl ⟨error, rfl⟩
  · intro thereCounted
    simp only
    cases locatedSource : counted.locate (Path.join base source) with
    | error error => exact .inl ⟨error, rfl⟩
    | ok sourcePlace =>
      cases locatedTarget : counted.locate (Path.join base target) with
      | error error => exact .inl ⟨error, rfl⟩
      | ok targetPlace =>
        have fits := fits_of_locate locatedTarget
        rw [thereCounted.locate_join plainSource (fits_of_locate locatedSource),
          Except.ok.injEq, placeIn, found] at locatedSource
        rw [thereCounted.locate_join plainTarget fits, Except.ok.injEq, placeIn] at locatedTarget
        subst locatedSource locatedTarget
        have apart : ((location ++ [source]) == (location ++ [target])) = false := by
          simpa using differ
        simp only [plainSource.endsInSlash_join, plainTarget.endsInSlash_join]
        rcases present : entries.lookup target with _ | (old | inside)
        · simp only
          split
          · exact .inl ⟨.nameTooLong, rfl⟩
          · exact .inr ⟨fits, nofun, rfl⟩
        · refine .inr ⟨fits, nofun, ?_⟩
          simp only [apart]
          rfl
        · exact .inl ⟨.isDirectory, rfl⟩

/-- A file that gets another name in its directory by `rename` is under that name, with its content.
-/
theorem rename_in_directory (plainSource : Path.IsPlain source) (plainTarget : Path.IsPlain target)
    (differ : source ≠ target) (there : disk.DirectoryAt base location entries)
    (found : entries.lookup source = some (.file content))
    (renamed : rename (Path.join base source) (Path.join base target) disk = (.ok (), after)) :
    Fits (Path.join base target) ∧
      ∃ others, after.DirectoryAt base location others ∧
        others.lookup target = some (.file content) := by
  rcases rename_cases plainSource plainTarget differ there found with
    ⟨error, failed⟩ | ⟨fits, free, succeeded⟩
  · rw [failed] at renamed
    cases renamed
  · rw [succeeded] at renamed
    cases renamed
    have erased := ((sameFiles_attempt disk).directoryAt there).erase
      (fun _ => by rw [found]; exact nofun)
    refine ⟨fits, _, erased.insert ?_ (.file content), Entry.lookup_upsert_self target _ _⟩
    rw [lookup_filter_of_ne (Ne.symm differ)]
    exact free

/-- To `remove` the file under a plain name is counted, and then it fails or takes it out of its
directory. -/
theorem remove_cases (plain : Path.IsPlain name) (there : disk.DirectoryAt base location entries)
    (found : entries.lookup name = some (.file content)) :
    (∃ error, remove (Path.join base name) disk = (.error error, (attempt disk).2)) ∨
      remove (Path.join base name) disk = (.ok (), { (attempt disk).2 with
        root := (attempt disk).2.root.erase (location ++ [name]) }) := by
  have thereCounted := (sameFiles_attempt disk).directoryAt there
  rw [remove, attempt_bind_apply]
  revert thereCounted
  rcases attempt disk with ⟨error | _, counted⟩
  · exact fun _ => .inl ⟨error, rfl⟩
  · intro thereCounted
    simp only
    cases located : counted.locate (Path.join base name) with
    | error error => exact .inl ⟨error, rfl⟩
    | ok =>
      rw [thereCounted.locate_join plain (fits_of_locate located), Except.ok.injEq] at located
      rw [← located, placeIn, found]
      simp only [plain.endsInSlash_join]
      exact .inr rfl

/-- What is in a directory under a plain name is the `entry` at the path of that name. -/
theorem DirectoryAt.entry_join {child : Entry} (there : disk.DirectoryAt base location entries)
    (plain : Path.IsPlain name) (fits : Fits (Path.join base name))
    (found : entries.lookup name = some child) :
    disk.entry (Path.join base name) = .ok child := by
  rw [Disk.entry, there.locate_join plain fits, placeIn, found]
  cases child with
  | file content =>
    simp only [plain.endsInSlash_join]
    rfl
  | directory children => rfl

/-- Looking with `pathExists` whether a path leads to an entry is counted as an operation. -/
theorem pathExists_apply (path : String) (disk : Disk) :
    pathExists path disk =
      match attempt disk with
      | (.error _, counted) => (false, counted)
      | (.ok (), counted) => ((counted.entry path).isOk, counted) := by
  unfold pathExists outcome
  simp only [bind, StateT.bind, ExceptT.run]
  rcases attempt disk with ⟨_ | _, counted⟩
  · rfl
  · simp only [get, getThe, MonadStateOf.get, bind, StateT.bind, StateT.get, pure]
    cases counted.entry path <;> rfl

/-- Looking with `pathExists` whether a path leads to an entry leaves the files as they are. -/
theorem sameFiles_pathExists (path : String) (disk : Disk) :
    disk.SameFiles (pathExists path disk).2 := by
  have same := sameFiles_attempt disk
  rw [pathExists_apply]
  revert same
  rcases attempt disk with ⟨_ | _, counted⟩ <;> exact fun same => same

/-- Reading a file with `read` is counted as an operation. -/
theorem read_apply (path : String) (disk : Disk) :
    Disk.read path disk =
      match attempt disk with
      | (.error error, counted) => (.error error, counted)
      | (.ok (), counted) =>
        match counted.entry path with
        | .error error => (.error error, counted)
        | .ok (.directory _) => (.error .isDirectory, counted)
        | .ok (.file content) => (.ok content, counted) := by
  rw [Disk.read, attempt_bind_apply]
  rcases attempt disk with ⟨_ | _, counted⟩
  · rfl
  · simp only
    rcases counted.entry path with _ | (_ | _) <;> rfl

/-- Reading the text of a file with `readText` leaves the files as they are. -/
theorem sameFiles_readText (path : String) (disk : Disk) :
    disk.SameFiles (readText path disk).2 := by
  have same := sameFiles_attempt disk
  rw [readText, bind_apply, read_apply]
  revert same
  rcases attempt disk with ⟨_ | _, counted⟩
  · exact fun same => same
  · intro same
    simp only
    rcases counted.entry path with _ | (content | _)
    · exact same
    · simp only
      cases String.fromUTF8? content <;> exact same
    · exact same

/-- The text that `readText` reads is that of the `entry` to which the path leads. -/
theorem readText_eq_ok {text : String} (readOk : readText path disk = (.ok text, after)) :
    ∃ content, disk.entry path = .ok (.file content) ∧ String.fromUTF8? content = some text := by
  have same := sameFiles_attempt disk
  rw [readText, bind_apply, read_apply] at readOk
  rcases attempted : attempt disk with ⟨_ | _, counted⟩
  · rw [attempted] at readOk
    cases readOk
  · rw [attempted] at readOk same
    simp only at readOk
    rw [same.entry_eq] at readOk
    rcases found : disk.entry path with _ | (content | _)
    · rw [found] at readOk
      cases readOk
    · rw [found] at readOk
      simp only at readOk
      cases isText : String.fromUTF8? content with
      | none =>
        rw [isText] at readOk
        cases readOk
      | some other =>
        rw [isText] at readOk
        cases readOk
        exact ⟨content, rfl, isText⟩
    · rw [found] at readOk
      cases readOk

/-- Without a fault to come the text of a file is read by `readText`, and nothing changes. -/
theorem readText_of_calm (calm : disk.fault = none) {text : String}
    (found : disk.entry path = .ok (.file content)) (isText : String.fromUTF8? content = some text) :
    readText path disk = (.ok text, disk) := by
  rw [readText, bind_apply, read_apply, attempt_of_calm calm]
  simp only [found, isText]
  rfl

end Operations

end Disk

end Mustache
