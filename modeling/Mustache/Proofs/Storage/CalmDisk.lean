import Mustache.Proofs.Storage.Disk

/-!
# Operations without a fault

On a disk with no fault to come an operation does what it is for. In a directory that is there a
file is written under a free name (`write_of_free`) and given another free name
(`rename_of_free`); the directory can be made once more, which changes nothing
(`createDirectories_of_directoryAt`), and its names are listed in its own order.
-/

namespace Mustache

namespace Entry

variable {name : String} {added : Entry} {entries : List (String × Entry)}

/-- What `upsert` puts under a free name comes after everything else. -/
theorem upsert_of_lookup_eq_none (free : entries.lookup name = none) (added : Entry) :
    upsert name added entries = entries ++ [(name, added)] := by
  induction entries with
  | nil => rfl
  | cons first rest inductionHypothesis =>
    obtain ⟨other, existing⟩ := first
    rw [List.lookup_cons] at free
    split at free
    · cases free
    · next differs =>
      have apart : (other == name) = false := by rwa [Bool.beq_comm] at differs
      rw [upsert, if_neg (by rw [apart]; exact Bool.false_ne_true), inductionHypothesis free]
      rfl

/-- What was put under a free name and is taken out again leaves the other names. -/
theorem filter_append_of_lookup_eq_none (free : entries.lookup name = none) (added : Entry) :
    (entries ++ [(name, added)]).filter (·.1 != name) = entries := by
  rw [List.filter_append, List.filter_eq_self.2, List.filter_cons_of_neg, List.filter_nil,
    List.append_nil]
  · simp
  · intro entry member
    have differs := List.lookup_eq_none_iff.1 free entry member
    exact bne_iff_ne.2 (Ne.symm (bne_iff_ne.1 differs))

end Entry

namespace Disk

variable {disk : Disk} {base path source target name : String} {location : List String}
  {entries : List (String × Entry)} {content : ByteArray}

/-- Without a fault to come an operation that is counted by `attempt` is done on the disk as it is.
-/
theorem attempt_bind_of_calm {α : Type} (calm : disk.fault = none)
    (next : Disk → FileAction α) :
    (do attempt; let disk ← get; next disk) disk = next disk disk := by
  rw [attempt_bind_apply, attempt_of_calm calm]

/-- Without a fault to come `pathExists` tells whether an entry is there. -/
theorem pathExists_of_calm (calm : disk.fault = none) (path : String) :
    pathExists path disk = ((disk.entry path).isOk, disk) := by
  rw [pathExists_apply, attempt_of_calm calm]

/-- Without a fault to come `readText` changes nothing. -/
theorem readText_disk_of_calm (calm : disk.fault = none) (path : String) :
    (readText path disk).2 = disk := by
  rw [readText, bind_apply, read_apply, attempt_of_calm calm]
  simp only
  rcases disk.entry path with _ | (content | _)
  · rfl
  · simp only
    cases String.fromUTF8? content <;> rfl
  · rfl

/-- Looking with `isDirectory` whether a path leads to a directory is counted as an operation. -/
theorem isDirectory_apply (path : String) (disk : Disk) :
    isDirectory path disk =
      match attempt disk with
      | (.error _, counted) => (false, counted)
      | (.ok (), counted) =>
        match counted.entry path with
        | .error _ => (false, counted)
        | .ok entry => (entry.isDirectory, counted) := by
  unfold isDirectory outcome
  simp only [bind, StateT.bind, ExceptT.run]
  rcases attempt disk with ⟨_ | _, counted⟩
  · rfl
  · simp only [get, getThe, MonadStateOf.get, bind, StateT.bind, StateT.get, pure]
    cases counted.entry path <;> rfl

/-- Listing a directory with `list` is counted as an operation. -/
theorem list_apply (path : String) (disk : Disk) :
    list path disk =
      match attempt disk with
      | (.error error, counted) => (.error error, counted)
      | (.ok (), counted) =>
        match counted.entry path with
        | .error error => (.error error, counted)
        | .ok (.file _) => (.error .notDirectory, counted)
        | .ok (.directory entries) => (.ok (entries.map (·.1)), counted) := by
  rw [list, attempt_bind_apply]
  rcases attempt disk with ⟨_ | _, counted⟩
  · rfl
  · simp only
    rcases counted.entry path with _ | (_ | _) <;> rfl

/-- Without a fault to come `list` changes nothing. -/
theorem list_disk_of_calm (calm : disk.fault = none) (path : String) :
    (list path disk).2 = disk := by
  rw [list_apply, attempt_of_calm calm]
  simp only
  rcases disk.entry path with _ | (_ | _) <;> rfl

/-- A directory that `entry` finds at a path is there (`DirectoryAt`). -/
theorem directoryAt_of_entry (found : disk.entry path = .ok (.directory entries)) :
    Fits path ∧ ∃ location, disk.DirectoryAt path location entries := by
  rw [Disk.entry] at found
  rcases located : disk.locate path with error | ⟨location, content | others⟩ | ⟨directory, name⟩
  · rw [located] at found
    cases found
  · rw [located] at found
    cases ends : Path.endsInSlash path <;> rw [ends] at found <;> cases found
  · rw [located] at found
    cases found
    have fits := fits_of_locate located
    rw [locate_of_fits fits] at located
    exact ⟨fits, location, located⟩
  · rw [located] at found
    cases found

/-- A directory that `list` lists without anything changing is there (`DirectoryAt`), and no fault
is to come. -/
theorem directoryAt_of_list {names : List String} (listed : list path disk = (.ok names, disk)) :
    disk.fault = none ∧ ∃ location entries, disk.DirectoryAt path location entries ∧
      entries.map (·.1) = names := by
  have calm : disk.fault = none := by
    rw [list_apply, attempt_apply] at listed
    rcases disk with ⟨root, workingDirectory, _ | _ | remaining⟩
    · rfl
    · cases listed
    · simp only at listed
      split at listed
      all_goals
        have same := congrArg (fun outcome => outcome.2.fault) listed
        simp at same
  refine ⟨calm, ?_⟩
  rw [list_apply, attempt_of_calm calm] at listed
  rcases found : disk.entry path with _ | (_ | entries) <;> simp only [found] at listed <;>
    cases listed
  obtain ⟨_, location, there⟩ := directoryAt_of_entry found
  exact ⟨location, entries, there, rfl⟩

/-- What `entry` finds at a path is at the place that `locate` finds. -/
theorem exists_locate_of_entry {entry : Entry} (found : disk.entry path = .ok entry) :
    ∃ place, disk.locate path = .ok place := by
  rw [Disk.entry] at found
  cases located : disk.locate path with
  | error =>
    rw [located] at found
    cases found
  | ok place => exact ⟨place, rfl⟩

/-- A path can be followed if a longer one with the same beginning can. -/
theorem Fits.of_append {suffix : String} (nonempty : path.isEmpty = false)
    (fits : Fits (path ++ suffix)) : Fits path := by
  obtain ⟨noNul, _, short⟩ := fits
  refine ⟨?_, nonempty, ?_⟩
  · rw [String.toList_append, List.contains_append, Bool.or_eq_false_iff] at noNul
    exact noNul.1
  · rw [String.utf8ByteSize_append] at short
    omega

section There

variable (there : disk.DirectoryAt base location entries)
include there

/-- A directory that is there is what `locate` finds at its path. -/
theorem DirectoryAt.locate (fits : Fits base) :
    disk.locate base = .ok (.present location (.directory entries)) := by
  rw [locate_of_fits fits]
  exact there

/-- A directory that is there is the `entry` at its path. -/
theorem DirectoryAt.entry (fits : Fits base) : disk.entry base = .ok (.directory entries) := by
  rw [Disk.entry, there.locate fits]

/-- A plain name that is free in a directory leads to no `entry`. -/
theorem DirectoryAt.entry_join_of_free (plain : Path.IsPlain name)
    (fits : Fits (Path.join base name)) (free : entries.lookup name = none) :
    disk.entry (Path.join base name) = .error (missing name) := by
  rw [Disk.entry, there.locate_join plain fits, placeIn, free]

/-- A file is written by `write` under a free name of a directory. -/
theorem write_of_free (content : ByteArray) (calm : disk.fault = none) (plain : Path.IsPlain name)
    (fits : Fits (Path.join base name)) (free : entries.lookup name = none)
    (short : name.utf8ByteSize ≤ maxNameBytes) :
    ∃ after, write (Path.join base name) content disk = (.ok (), after) ∧ after.fault = none ∧
      after.DirectoryAt base location (entries ++ [(name, .file content)]) := by
  have noDirectory : ∀ others, entries.lookup name ≠ some (.directory others) :=
    fun _ => by rw [free]; exact nofun
  have entered := there.insert noDirectory (.file content)
  rw [Entry.upsert_of_lookup_eq_none free] at entered
  refine ⟨{ disk with root := disk.root.insert (location ++ [name]) (.file content) }, ?_, calm,
    entered⟩
  rw [write, attempt_bind_of_calm calm, there.locate_join plain fits, placeIn, free]
  simp only [plain.endsInSlash_join, Bool.false_eq_true, if_false, Nat.not_lt.2 short]
  rfl

/-- The last file of a directory gets by `rename` another name that is free there. -/
theorem rename_of_free {content : ByteArray} {others : List (String × Entry)}
    (last : entries = others ++ [(source, .file content)]) (calm : disk.fault = none)
    (plainSource : Path.IsPlain source) (plainTarget : Path.IsPlain target)
    (fitSource : Fits (Path.join base source)) (fitTarget : Fits (Path.join base target))
    (sourceFree : others.lookup source = none) (targetFree : others.lookup target = none)
    (differ : source ≠ target) (short : target.utf8ByteSize ≤ maxNameBytes) :
    ∃ after, rename (Path.join base source) (Path.join base target) disk = (.ok (), after) ∧
      after.fault = none ∧
      after.DirectoryAt base location (others ++ [(target, .file content)]) := by
  subst last
  have found : (others ++ [(source, Entry.file content)]).lookup source =
      some (.file content) := by
    rw [List.lookup_append, sourceFree, Option.none_or, List.lookup_cons_self]
  have free : (others ++ [(source, Entry.file content)]).lookup target = none := by
    rw [List.lookup_append, targetFree, Option.none_or, List.lookup_cons,
      beq_eq_false_iff_ne.2 (Ne.symm differ)]
    rfl
  have noDirectory : ∀ inside, (others ++ [(source, Entry.file content)]).lookup source ≠
      some (.directory inside) := fun _ => by rw [found]; exact nofun
  have noTarget : ∀ inside, others.lookup target ≠ some (.directory inside) :=
    fun _ => by rw [targetFree]; exact nofun
  have erased := there.erase noDirectory
  rw [Entry.filter_append_of_lookup_eq_none sourceFree] at erased
  have entered := erased.insert noTarget (.file content)
  rw [Entry.upsert_of_lookup_eq_none targetFree] at entered
  refine ⟨{ disk with
    root := (disk.root.erase (location ++ [source])).insert (location ++ [target])
      (.file content) }, ?_, calm, entered⟩
  rw [rename, attempt_bind_of_calm calm, there.locate_join plainSource fitSource,
    there.locate_join plainTarget fitTarget, placeIn, placeIn, found, free]
  simp only [plainSource.endsInSlash_join, plainTarget.endsInSlash_join, Bool.false_eq_true,
    Bool.or_false, if_false, Nat.not_lt.2 short]
  rfl

/-- The names of a directory are listed by `list` in its own order. -/
theorem list_of_directoryAt (calm : disk.fault = none) (fits : Fits base) :
    list base disk = (.ok (entries.map (·.1)), disk) := by
  rw [list_apply, attempt_of_calm calm]
  simp only [there.entry fits]

end There

/-- A directory is made by `createChain` before what depends on it; what cannot be made may be
there. -/
theorem createChain_cons (path : String) (parents : List String) (disk : Disk) :
    createChain (path :: parents) disk =
      if path.isEmpty then (.ok (), disk)
      else
        match createDirectory path disk with
        | (.error .notFound, counted) =>
          match createChain parents counted with
          | (.error error, after) => (.error error, after)
          | (.ok (), between) =>
            let (result, after) := createDirectory path between
            tolerate path result after
        | (result, after) => tolerate path result after := by
  have lifted : ∀ disk, (ExceptT.lift (outcome (createDirectory path)) :
      FileAction (Except FileError Unit)) disk =
        (.ok (createDirectory path disk).1, (createDirectory path disk).2) := fun _ => rfl
  rw [createChain]
  split
  · rfl
  · rw [bind_apply, lifted]
    rcases createDirectory path disk with ⟨error | _, counted⟩
    · cases error
      case notFound =>
        simp only
        rw [bind_apply]
        rcases createChain parents counted with ⟨_ | _, between⟩
        · rfl
        · simp only
          rw [bind_apply, lifted]
          rfl
      all_goals rfl
    · rfl

/-- A failure is overlooked by `tolerate` if the directory is there. -/
theorem tolerate_error (path : String) (error : FileError) (disk : Disk) :
    tolerate path (.error error) disk =
      match isDirectory path disk with
      | (true, after) => (.ok (), after)
      | (false, after) => (.error error, after) := by
  have lifted : (liftM (isDirectory path) : FileAction Bool) disk =
      (.ok (isDirectory path disk).1, (isDirectory path disk).2) := rfl
  rw [tolerate, bind_apply, lifted]
  rcases isDirectory path disk with ⟨_ | _, after⟩ <;> rfl

/-- A directory that is there can be made once more with `createDirectories`, and nothing changes.
-/
theorem createDirectories_of_directoryAt (there : disk.DirectoryAt base location entries)
    (calm : disk.fault = none) (fits : Fits base) :
    createDirectories base disk = (.ok (), disk) := by
  have refused : createDirectory base disk = (.error .alreadyExists, disk) := by
    rw [createDirectory, attempt_bind_of_calm calm, there.locate fits]
    rfl
  have seen : isDirectory base disk = (true, disk) := by
    rw [isDirectory_apply, attempt_of_calm calm]
    simp only [there.entry fits]
    rfl
  rw [createDirectories, Path.ancestors, createChain_cons, fits.nonempty, refused]
  simp only [Bool.false_eq_true, if_false, tolerate_error, seen]

end Disk

end Mustache
