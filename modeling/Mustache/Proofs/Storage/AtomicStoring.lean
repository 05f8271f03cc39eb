import Mustache.Proofs.Storage.KeptFiles
import Mustache.Proofs.Storage.RoundTrip
import Mustache.Proofs.Storage.SamePrograms

/-!
# Storing is atomic

A program is stored wholly or not at all, whichever operation fails, and also where a write is cut
short and leaves a part of the text behind (`persist_atomic`): the text goes into a file beside the
program's own first, and only renaming touches that. The files of other programs are not touched,
and what may be left of the file beside is passed over when programs are loaded.
-/

namespace Mustache

namespace Disk

variable {disk after : Disk} {base path name : String} {location : List String}
  {entries : List (String × Entry)} {content : ByteArray}
  {writing : String → ByteArray → FileAction Unit}

/-- The files of the second disk are those of the first with one written at a path. -/
def Puts (path : String) (content : ByteArray) (before after : Disk) : Prop :=
  ∃ start finish, before.SameFiles start ∧ write path content start = (.ok (), finish) ∧
    finish.SameFiles after

/-- A way of writing files that may be cut short. Where it fails nothing was done, or the file has
been written with something else in it. -/
structure CutsShort (writing : String → ByteArray → FileAction Unit) : Prop where
  /-- Where it succeeds the file is written. -/
  done : ∀ {path content disk after}, writing path content disk = (.ok (), after) →
    Puts path content disk after
  /-- Where it fails the file may have any content. -/
  failed : ∀ {path content disk error after}, writing path content disk = (.error error, after) →
    disk.SameFiles after ∨ ∃ part, Puts path part disk after

theorem SameFiles.refl (disk : Disk) : disk.SameFiles disk :=
  ⟨rfl, rfl⟩

/-- A write that fails has done nothing. -/
theorem sameFiles_of_write_error {error : FileError}
    (failed : write path content disk = (.error error, after)) : disk.SameFiles after := by
  have same := sameFiles_attempt disk
  rw [write, attempt_bind_apply] at failed
  rcases attempted : attempt disk with ⟨_ | _, counted⟩
  · rw [attempted] at failed same
    cases failed
    exact same
  · rw [attempted] at failed same
    simp only at failed
    rcases located : counted.locate path with _ | ⟨_, _ | _⟩ | ⟨_, name⟩
    all_goals
      rw [located] at failed
      simp only at failed
      repeat' split at failed
    all_goals
      cases failed
      try exact same

/-- To `write` files at one stroke is cut short at no other point than the beginning (`CutsShort`).
-/
theorem cutsShort_write : CutsShort write where
  done written := ⟨_, _, .refl _, written, .refl _⟩
  failed failed := .inl (sameFiles_of_write_error failed)

/-- Writes the first byte of a file and fails. -/
def writeFirstByte (path : String) (content : ByteArray) : FileAction Unit := do
  write path (content.extract 0 1)
  throw .device

theorem writeFirstByte_of_write
    (written : write path (content.extract 0 1) disk = (.ok (), after)) :
    writeFirstByte path content disk = (.error .device, after) := by
  rw [writeFirstByte, bind_apply, written]
  rfl

theorem cutsShort_writeFirstByte : CutsShort writeFirstByte where
  done {path content disk after} done := by
    rcases written : write path (content.extract 0 1) disk with ⟨_ | _, filled⟩
    · rw [writeFirstByte, bind_apply, written] at done
      cases done
    · rw [writeFirstByte_of_write written] at done
      cases done
  failed {path content disk error after} failed := by
    rcases written : write path (content.extract 0 1) disk with ⟨_ | _, filled⟩
    · rw [writeFirstByte, bind_apply, written] at failed
      cases failed
      exact .inl (sameFiles_of_write_error written)
    · rw [writeFirstByte_of_write written] at failed
      cases failed
      exact .inr ⟨_, _, _, .refl _, written, .refl _⟩

/-- A file that was put under a plain name (`Puts`) is in the directory of the name, and the other
files are kept. -/
theorem Puts.exists_directoryAt (plain : Path.IsPlain name)
    (puts : Puts (Path.join base name) content disk after) :
    ∃ location entries, KeepsFiles [location ++ [name]] disk after ∧
      after.DirectoryAt base location entries ∧ Fits (Path.join base name) ∧
      entries.lookup name = some (.file content) := by
  obtain ⟨start, finish, sameStart, written, sameFinish⟩ := puts
  rcases write_cases plain content start with
    ⟨error, failed⟩ | ⟨location, entries, there, fits, free, succeeded⟩
  · rw [failed] at written
    cases written
  · rw [succeeded] at written
    cases written
    refine ⟨location, _, ?_, sameFinish.directoryAt (there.insert free _), fits,
      Entry.lookup_upsert_self name _ _⟩
    have before := sameStart.trans (sameFiles_attempt start)
    exact ((KeepsFiles.of_sameFiles before).trans (.insert there free content)).trans
      (.of_sameFiles sameFinish)

/-- The location to which a path leads, if it leads anywhere. -/
def locations (disk : Disk) (path : String) : List (List String) :=
  match disk.locate path with
  | .ok place => [place.location]
  | .error _ => []

theorem DirectoryAt.locations_join (there : disk.DirectoryAt base location entries)
    (plain : Path.IsPlain name) (fits : Fits (Path.join base name)) :
    disk.locations (Path.join base name) = [location ++ [name]] := by
  rw [locations, there.locate_join plain fits, placeIn]
  cases entries.lookup name <;> rfl

/-- A plain name leads to a location with this name, if anywhere (`locations`). -/
theorem exists_eq_of_mem_locations (plain : Path.IsPlain name)
    (member : location ∈ disk.locations (Path.join base name)) :
    ∃ folder, location = folder ++ [name] := by
  rw [locations] at member
  cases located : disk.locate (Path.join base name) with
  | error =>
    rw [located] at member
    cases member
  | ok place =>
    rw [located, List.mem_singleton] at member
    exact member ▸ exists_location_eq plain located

end Disk

/-- The name under which a file is written first gives `digitsOfName?` nothing. -/
theorem Artifact.digitsOfName?_temporaryName (hash : ContentHash) :
    digitsOfName? (fileName hash ++ ".tmp") = none := by
  have characters : (fileName hash ++ ".tmp").toList =
      nameStart.toList ++ (hash.text.toList ++ nameEnd.toList ++ ".tmp".toList) := by
    simp [fileName]
  have start : nameStart.toList.isPrefixOf? (fileName hash ++ ".tmp").toList =
      some (hash.text.toList ++ nameEnd.toList ++ ".tmp".toList) :=
    List.isPrefixOf?_eq_some_iff_append_eq.2 characters.symm
  rw [digitsOfName?, start]
  cases ending : nameEnd.toList.isSuffixOf? (hash.text.toList ++ nameEnd.toList ++ ".tmp".toList) with
  | none =>
    simp only [Option.bind_eq_bind, Option.bind_some, ending]
    rfl
  | some digits =>
    -- The last characters differ.
    have last := congrArg List.getLast? (List.isSuffixOf?_eq_some_iff_append_eq.1 ending)
    simp [nameEnd] at last

namespace Storage

variable {disk after : Disk} {root : String} {now : Timestamp} {program : Program}
  {writing : String → ByteArray → FileAction Unit} {hash : ContentHash}

/-- Gives the file that was written first the name of the program's file, or takes it away again. -/
def publish (root : String) (hash : ContentHash) : StorageAction Unit := do
  let path := Artifact.path root hash
  let temporary := Artifact.temporaryPath root hash
  match ← outcome (onFile path (Disk.rename temporary path)) with
  | .ok () => pure ()
  | .error error => do
    let _ ← outcome (onFile temporary (Disk.remove temporary))
    throw error

/-- Writes the file of a program as `writeArtifact` does, in some way of writing files. -/
def writeArtifactBy (writing : String → ByteArray → FileAction Unit) (root : String)
    (now : Timestamp) (program : Program) : StorageAction Unit := do
  let temporary := Artifact.temporaryPath root program.hash
  let artifact : Artifact := ⟨program.hash, now, program.instructions.toList⟩
  onFile (Artifact.directory root) (Disk.createDirectories (Artifact.directory root))
  onFile temporary (writing temporary artifact.text.toByteArray)
  publish root program.hash

/-- Stores a program as `persist` does, in some way of writing files. -/
def persistBy (writing : String → ByteArray → FileAction Unit) (root : String) (now : Timestamp)
    (program : Program) : StorageAction Stored := do
  let path := Artifact.path root program.hash
  if ← isStored path program then return .unchanged path
  else do
    writeArtifactBy writing root now program
    return .written path

/-- To `persist` is to store programs by writing files at one stroke (`persistBy`). -/
theorem persist_eq_persistBy : persist = persistBy Disk.write := rfl

/-- What is left when a program's file could not be written: all files are as before, except the
one beside it that is written first. -/
def LeavesTemporary (root : String) (hash : ContentHash) (before after : Disk) : Prop :=
  before.KeepsFiles (after.locations (Artifact.temporaryPath root hash)) after

/-- What there is when a program's file was written: the file, and none beside it. All other files
are as before. -/
structure Completes (root : String) (artifact : Artifact) (folder : List String)
    (before after : Disk) : Prop where
  /-- The other files are kept. -/
  kept : before.KeepsFiles [folder ++ [Artifact.fileName artifact.hash],
    folder ++ [Artifact.fileName artifact.hash ++ ".tmp"]] after
  /-- The file is there, with the whole text in it. -/
  file : after.locate (Artifact.path root artifact.hash) =
    .ok (.present (folder ++ [Artifact.fileName artifact.hash]) (.file artifact.text.toByteArray))
  /-- No file is beside it. -/
  temporary : after.locate (Artifact.temporaryPath root artifact.hash) =
    .ok (.absent folder (Artifact.fileName artifact.hash ++ ".tmp"))

/-- The file that was written first becomes the program's file, or it is all that may be left. -/
theorem publish_cases {folder : List String} {entries : List (String × Entry)} {artifact : Artifact}
    (there : disk.DirectoryAt (Artifact.directory root) folder entries)
    (fits : Disk.Fits (Path.join (Artifact.directory root)
      (Artifact.fileName artifact.hash ++ ".tmp")))
    (found : entries.lookup (Artifact.fileName artifact.hash ++ ".tmp") =
      some (.file artifact.text.toByteArray)) :
    (∃ error after, publish root artifact.hash disk = (.error error, after) ∧
      disk.KeepsFiles [folder ++ [Artifact.fileName artifact.hash ++ ".tmp"]] after ∧
      after.locations (Artifact.temporaryPath root artifact.hash) =
        [folder ++ [Artifact.fileName artifact.hash ++ ".tmp"]]) ∨
    ∃ after, publish root artifact.hash disk = (.ok (), after) ∧
      Completes root artifact folder disk after := by
  have plain := Artifact.isPlain_fileName artifact.hash
  have plainTemporary := Artifact.isPlain_temporaryName artifact.hash
  have differ := Artifact.temporaryName_ne_fileName artifact.hash artifact.hash
  have free : ∀ inside, entries.lookup (Artifact.fileName artifact.hash ++ ".tmp") ≠
      some (.directory inside) := fun _ => by rw [found]; exact nofun
  have same := Disk.sameFiles_attempt disk
  have thereCounted := same.directoryAt there
  rw [publish, bind_apply, outcome, onFile, Artifact.temporaryPath_eq_join, Artifact.path_eq_join]
  rcases Disk.rename_cases plainTemporary plain differ there found with
    ⟨error, failed⟩ | ⟨fitsFile, freeFile, moved⟩
  · -- The file could not be moved. It is taken away or left.
    have sameLast := Disk.sameFiles_attempt (Disk.attempt disk).2
    have thereLast := sameLast.directoryAt thereCounted
    have kept : disk.KeepsFiles [folder ++ [Artifact.fileName artifact.hash ++ ".tmp"]] _ :=
      .of_sameFiles (same.trans sameLast)
    rw [failed]
    simp only
    rw [bind_apply, outcome, onFile]
    rcases Disk.remove_cases plainTemporary thereCounted found with ⟨_, refused⟩ | removed
    · rw [refused]
      exact .inl ⟨_, _, rfl, kept, thereLast.locations_join plainTemporary fits⟩
    · rw [removed]
      exact .inl ⟨_, _, rfl, kept.trans (.erase thereLast free),
        (thereLast.erase free).locations_join plainTemporary fits⟩
  · have erased := thereCounted.erase free
    have freeErased : ∀ inside, (entries.filter
        (·.1 != Artifact.fileName artifact.hash ++ ".tmp")).lookup
          (Artifact.fileName artifact.hash) ≠ some (.directory inside) := by
      rw [lookup_filter_of_ne (Ne.symm differ)]
      exact freeFile
    have inserted := erased.insert freeErased (.file artifact.text.toByteArray)
    rw [moved]
    refine .inr ⟨_, rfl, ?_, ?_, ?_⟩
    · have kept := (Disk.KeepsFiles.of_sameFiles same).trans (.erase thereCounted free)
      exact (kept.mono (List.subset_cons_self ..)).trans
        ((Disk.KeepsFiles.insert erased freeErased _).mono (by simp))
    · rw [Artifact.path_eq_join, inserted.locate_join plain fitsFile, Disk.placeIn,
        Entry.lookup_upsert_self]
    · rw [Artifact.temporaryPath_eq_join, inserted.locate_join plainTemporary fits, Disk.placeIn,
        Entry.lookup_upsert_of_ne differ, Entry.lookup_filter_self]

/-- Writing a program's file with `writeArtifactBy` leaves at most the file beside it, or it
completes. -/
theorem writeArtifactBy_cases (cutsShort : Disk.CutsShort writing) (root : String)
    (now : Timestamp) (program : Program) (disk : Disk) :
    (∃ error after, writeArtifactBy writing root now program disk = (.error error, after) ∧
      LeavesTemporary root program.hash disk after) ∨
    ∃ after folder, writeArtifactBy writing root now program disk = (.ok (), after) ∧
      Completes root ⟨program.hash, now, program.instructions.toList⟩ folder disk after := by
  have plainTemporary := Artifact.isPlain_temporaryName program.hash
  have isTemporary := Artifact.temporaryPath_eq_join root program.hash
  have kept := Disk.keepsFiles_createDirectories (Artifact.directory root) disk
  rw [writeArtifactBy, bind_apply, onFile]
  revert kept
  rcases Disk.createDirectories (Artifact.directory root) disk with ⟨error | _, made⟩
  · exact fun kept => .inl ⟨_, made, rfl, kept.mono (List.nil_subset _)⟩
  intro kept
  simp only
  rw [bind_apply, onFile]
  rcases written : writing (Artifact.temporaryPath root program.hash)
    (Artifact.text ⟨program.hash, now, program.instructions.toList⟩).toByteArray made with
    ⟨error | _, filled⟩
  · refine .inl ⟨_, filled, rfl, ?_⟩
    rcases cutsShort.failed written with same | ⟨part, puts⟩
    · exact (kept.mono (List.nil_subset _)).trans (.of_sameFiles same)
    · rw [isTemporary] at puts
      obtain ⟨folder, entries, keptHere, there, fits, _⟩ := puts.exists_directoryAt plainTemporary
      rw [LeavesTemporary, isTemporary, there.locations_join plainTemporary fits]
      exact (kept.mono (List.nil_subset _)).trans keptHere
  · have puts := cutsShort.done written
    rw [isTemporary] at puts
    obtain ⟨folder, entries, keptHere, there, fits, found⟩ :=
      puts.exists_directoryAt plainTemporary
    have keptFilled := (kept.mono (List.nil_subset _)).trans keptHere
    simp only
    have publishes := @publish_cases _ _ _ _ ⟨program.hash, now, program.instructions.toList⟩
      there fits found
    rcases publishes with ⟨error, after, failed, keptLast, left⟩ | ⟨after, published, completes⟩
    · refine .inl ⟨error, after, failed, ?_⟩
      rw [LeavesTemporary, left]
      exact keptFilled.trans keptLast
    · refine .inr ⟨after, folder, published, ?_, completes.file, completes.temporary⟩
      exact (keptFilled.mono (List.subset_cons_self ..)).trans completes.kept

/-- Storing a program with `persistBy` leaves at most the file beside it, or finds the program, or
completes. -/
theorem persistBy_cases (cutsShort : Disk.CutsShort writing) (root : String) (now : Timestamp)
    (program : Program) (disk : Disk) :
    (∃ error after, persistBy writing root now program disk = (.error error, after) ∧
      LeavesTemporary root program.hash disk after) ∨
    (∃ after, persistBy writing root now program disk =
        (.ok (.unchanged (Artifact.path root program.hash)), after) ∧ disk.SameFiles after) ∨
    ∃ after folder, persistBy writing root now program disk =
        (.ok (.written (Artifact.path root program.hash)), after) ∧
      Completes root ⟨program.hash, now, program.instructions.toList⟩ folder disk after := by
  obtain ⟨stored, counted, looked, same, _⟩ :=
    isStored_spec (Artifact.path root program.hash) program disk
  rw [persistBy, bind_apply, looked]
  cases stored with
  | true => exact .inr (.inl ⟨counted, rfl, same⟩)
  | false =>
    simp only [Bool.false_eq_true, if_false]
    rw [bind_apply]
    rcases writeArtifactBy_cases cutsShort root now program counted with
      ⟨error, after, failed, left⟩ | ⟨after, folder, written, completes⟩
    · rw [failed]
      exact .inl ⟨error, after, rfl, (Disk.KeepsFiles.of_sameFiles same).trans left⟩
    · rw [written]
      exact .inr (.inr ⟨after, folder, rfl, (Disk.KeepsFiles.of_sameFiles same).trans completes.kept,
        completes.file, completes.temporary⟩)

/-- The `temporaryPath` at which a file is written first leads to no file with the name of a
program's. -/
theorem notMem_locations_temporaryPath (disk : Disk) (root : String) (hash other : ContentHash)
    (folder : List String) :
    folder ++ [Artifact.fileName other] ∉ disk.locations (Artifact.temporaryPath root hash) := by
  intro member
  rw [Artifact.temporaryPath_eq_join] at member
  obtain ⟨location, same⟩ :=
    Disk.exists_eq_of_mem_locations (Artifact.isPlain_temporaryName hash) member
  exact Artifact.temporaryName_ne_fileName hash other (List.append_singleton_inj.1 same).2.symm

/-- Storing a program with `persistBy` touches no file with the name of another program's file,
wherever it is. -/
theorem keepsFiles_persistBy (cutsShort : Disk.CutsShort writing) (root : String)
    (now : Timestamp) (program : Program) (disk : Disk) :
    ∃ touched, disk.KeepsFiles touched (persistBy writing root now program disk).2 ∧
      ∀ hash, hash ≠ program.hash → ∀ folder, folder ++ [Artifact.fileName hash] ∉ touched := by
  rcases persistBy_cases cutsShort root now program disk with
    ⟨error, after, failed, left⟩ | ⟨after, found, same⟩ | ⟨after, folder, written, completes⟩
  · rw [failed]
    exact ⟨_, left, fun hash _ => notMem_locations_temporaryPath after root program.hash hash⟩
  · rw [found]
    exact ⟨[], .of_sameFiles same, fun _ _ _ => List.not_mem_nil⟩
  · rw [written]
    refine ⟨_, completes.kept, fun hash differ folder member => ?_⟩
    rcases List.mem_cons.1 member with isFile | isTemporary
    · exact differ (Artifact.fileName_inj (List.append_singleton_inj.1 isFile).2)
    · have same := List.append_singleton_inj.1 (List.mem_singleton.1 isTemporary)
      exact Artifact.temporaryName_ne_fileName _ hash same.2.symm

/-- What a leftover file beside a program's file holds does not matter to `warm`, nor whether it is
there. -/
theorem warm_erase_temporary {location : List String} {entries : List (String × Entry)}
    (there : disk.DirectoryAt (Artifact.directory root) location entries)
    (free : ∀ inside, entries.lookup (Artifact.fileName hash ++ ".tmp") ≠ some (.directory inside))
    (cache : ProgramCache) :
    let erased : Disk := { disk with
      root := disk.root.erase (location ++ [Artifact.fileName hash ++ ".tmp"]) }
    (warm root (cache, erased)).1 = (warm root (cache, disk)).1 ∧
      (warm root (cache, erased)).2.1 = (warm root (cache, disk)).2.1 := by
  intro erased
  have thereErased : erased.DirectoryAt (Artifact.directory root) location _ := there.erase free
  have programs : SamePrograms root erased disk := .of_directoryAt rfl thereErased there
    fun other => lookup_filter_of_ne (Artifact.temporaryName_ne_fileName hash other).symm entries
  have names : (entries.filter (·.1 != Artifact.fileName hash ++ ".tmp")).map (·.1) =
      (entries.map (·.1)).filter (· != Artifact.fileName hash ++ ".tmp") :=
    by rw [List.filter_map]; rfl
  have counted : countLoaded root
      ((entries.filter (·.1 != Artifact.fileName hash ++ ".tmp")).map (·.1)) =
        countLoaded root (entries.map (·.1)) := by
    rw [names]
    refine countLoaded_filter root fun name _ isTemporary => ?_
    have same : name = Artifact.fileName hash ++ ".tmp" := by simpa using isTemporary
    rw [same]
    exact Artifact.digitsOfName?_temporaryName hash
  obtain ⟨sameResult, sameCache, _⟩ := warm_alike programs thereErased there counted cache
  exact ⟨sameResult, sameCache⟩

/-- To `persist` is atomic, also with a way of writing files that may be cut short (`CutsShort`),
whatever operation fails. If it fails, all files are as before except the one beside the program's
file, and at the path of the program's file is the old one or still none. If the program is found,
all files are as before. If it is written, its file holds it and no file is left beside; all other
files are as before. The files of other programs are never touched, and a file left beside a
program's file makes no difference for loading all programs. -/
theorem persist_atomic (cutsShort : Disk.CutsShort writing) (root : String) (now : Timestamp)
    (program : Program) (disk : Disk) :
    (persist = persistBy Disk.write ∧ Disk.CutsShort Disk.write) ∧
    (∀ error after, persistBy writing root now program disk = (.error error, after) →
      LeavesTemporary root program.hash disk after ∧
      disk.KeepsFileAt (Artifact.path root program.hash) after ∧
      (".." ∉ Path.names root → ∀ content,
        after.entry (Artifact.path root program.hash) = .ok (.file content) ↔
          disk.entry (Artifact.path root program.hash) = .ok (.file content))) ∧
    (∀ path after, persistBy writing root now program disk = (.ok (.unchanged path), after) →
      path = Artifact.path root program.hash ∧ disk.SameFiles after) ∧
    (∀ path after, persistBy writing root now program disk = (.ok (.written path), after) →
      path = Artifact.path root program.hash ∧
      Holds after path ⟨program.hash, now, program.instructions.toList⟩ ∧
      ∃ folder, Completes root ⟨program.hash, now, program.instructions.toList⟩ folder disk after) ∧
    (∀ hash, hash ≠ program.hash →
      (∀ folder, (persistBy writing root now program disk).2.root.fileAt?
          (folder ++ [Artifact.fileName hash]) =
        disk.root.fileAt? (folder ++ [Artifact.fileName hash])) ∧
      ∀ other, disk.KeepsFileAt (Artifact.path other hash)
        (persistBy writing root now program disk).2) ∧
    ∀ hash location entries, disk.DirectoryAt (Artifact.directory root) location entries →
      (∀ inside, entries.lookup (Artifact.fileName hash ++ ".tmp") ≠ some (.directory inside)) →
      ∀ cache,
        let erased : Disk := { disk with
          root := disk.root.erase (location ++ [Artifact.fileName hash ++ ".tmp"]) }
        (warm root (cache, erased)).1 = (warm root (cache, disk)).1 ∧
          (warm root (cache, erased)).2.1 = (warm root (cache, disk)).2.1 := by
  refine ⟨⟨persist_eq_persistBy, Disk.cutsShort_write⟩, ?_, ?_, ?_, ?_,
    fun hash location entries there free cache => warm_erase_temporary there free cache⟩
  · intro error after run
    rcases persistBy_cases cutsShort root now program disk with
      ⟨_, _, failed, left⟩ | ⟨_, found, _⟩ | ⟨_, _, written, _⟩
    · cases failed.symm.trans run
      have elsewhere := notMem_locations_temporaryPath after root program.hash program.hash
      have plain := Artifact.isPlain_fileName program.hash
      refine ⟨left, left.keepsFileAt plain elsewhere, fun forward content => ?_⟩
      refine left.entry_eq_file_iff plain elsewhere ?_
      exact Artifact.forward_directory forward
    · cases found.symm.trans run
    · cases written.symm.trans run
  · intro path after run
    rcases persistBy_cases cutsShort root now program disk with
      ⟨_, _, failed, _⟩ | ⟨_, found, same⟩ | ⟨_, _, written, _⟩
    · cases failed.symm.trans run
    · cases found.symm.trans run
      exact ⟨rfl, same⟩
    · cases written.symm.trans run
  · intro path after run
    rcases persistBy_cases cutsShort root now program disk with
      ⟨_, _, failed, _⟩ | ⟨_, found, _⟩ | ⟨_, folder, written, completes⟩
    · cases failed.symm.trans run
    · cases found.symm.trans run
    · cases written.symm.trans run
      refine ⟨rfl, holds_of_entry ?_, folder, completes⟩
      rw [Disk.entry, completes.file]
      simp only [Artifact.path_eq_join, (Artifact.isPlain_fileName _).endsInSlash_join]
      rfl
  · intro hash differ
    obtain ⟨touched, kept, elsewhere⟩ := keepsFiles_persistBy cutsShort root now program disk
    exact ⟨fun folder => kept.files _ (elsewhere hash differ folder), fun other =>
      kept.keepsFileAt (Artifact.isPlain_fileName hash) (elsewhere hash differ)⟩

/-- Where the directory is there and the program is not, a write that fails ends `persistBy`. -/
theorem persistBy_of_write_error {error : FileError}
    (unlike : isStored (Artifact.path root program.hash) program disk = (.ok false, disk))
    (made : Disk.createDirectories (Artifact.directory root) disk = (.ok (), disk))
    (failed : writing (Artifact.temporaryPath root program.hash)
      (Artifact.text ⟨program.hash, now, program.instructions.toList⟩).toByteArray disk =
        (.error error, after)) :
    persistBy writing root now program disk =
      (.error (.fileFailed (Artifact.temporaryPath root program.hash) error), after) := by
  rw [persistBy, bind_apply, unlike]
  simp only [Bool.false_eq_true, if_false]
  rw [bind_apply, writeArtifactBy, bind_apply, onFile, made]
  simp only
  rw [bind_apply, onFile, failed]

/-- The file of a program holds other instructions, and writing its new text stops after one byte.
The old file is still there, and the byte is in the file beside it. -/
theorem persist_atomic_interrupted :
    let stale : Artifact := ⟨letter.hash, .epoch, [.literal "y"]⟩
    let fresh : Artifact := ⟨letter.hash, .epoch, letter.instructions.toList⟩
    Disk.CutsShort Disk.writeFirstByte ∧
    ∃ after, persistBy Disk.writeFirstByte "/" .epoch letter (shelf letter.hash stale) =
        (.error (.fileFailed (Artifact.temporaryPath "/" letter.hash) .device), after) ∧
      after.entry (Artifact.temporaryPath "/" letter.hash) =
        .ok (.file (fresh.text.toByteArray.extract 0 1)) ∧
      after.entry (Artifact.path "/" letter.hash) = .ok (.file stale.text.toByteArray) := by
  intro stale fresh
  have there := directoryAt_shelf letter.hash stale
  have plain := Artifact.isPlain_fileName letter.hash
  have plainTemporary := Artifact.isPlain_temporaryName letter.hash
  have unlike : isStored (Artifact.path "/" letter.hash) letter (shelf letter.hash stale) =
      (.ok false, shelf letter.hash stale) :=
    isStored_of_holds rfl (holds_shelf letter.hash stale) letter
  have free : [(Artifact.fileName letter.hash, Entry.file stale.text.toByteArray)].lookup
      (Artifact.fileName letter.hash ++ ".tmp") = none := by
    rw [List.lookup_cons, beq_eq_false_iff_ne.2 (Artifact.temporaryName_ne_fileName _ _)]
    rfl
  obtain ⟨after, written, _, thereAfter⟩ := Disk.write_of_free there
    (fresh.text.toByteArray.extract 0 1) rfl plainTemporary (fits_slash.temporaryPath letter.hash)
    free (by rw [Artifact.utf8ByteSize_temporaryName]; decide)
  have run : persistBy Disk.writeFirstByte "/" .epoch letter (shelf letter.hash stale) =
      (.error (.fileFailed (Artifact.temporaryPath "/" letter.hash) .device), after) := by
    rw [← Artifact.temporaryPath_eq_join] at written
    exact persistBy_of_write_error unlike
      (Disk.createDirectories_of_directoryAt there rfl fits_slash.directory)
      (Disk.writeFirstByte_of_write written)
  obtain ⟨_, failures, _⟩ :=
    persist_atomic Disk.cutsShort_writeFirstByte "/" .epoch letter (shelf letter.hash stale)
  obtain ⟨_, kept, _⟩ := failures _ _ run
  refine ⟨Disk.cutsShort_writeFirstByte, after, run, ?_, kept.kept _ ?_⟩
  · rw [Artifact.temporaryPath_eq_join]
    refine thereAfter.entry_join plainTemporary (fits_slash.temporaryPath letter.hash) ?_
    rw [List.lookup_append, free, Option.none_or, List.lookup_cons_self]
  · exact there.entry_join plain (fits_path_slash letter.hash) List.lookup_cons_self

end Storage

end Mustache
