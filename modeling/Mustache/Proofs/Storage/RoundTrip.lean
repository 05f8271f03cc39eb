import Mustache.Proofs.Storage.Loading
import Mustache.Proofs.Storage.MadeDirectories

/-!
# All programs are stored and loaded

Where nothing has been stored, storing the programs of a cache writes one file for each, and
loading all of them into another cache gives it the same programs under the same hashes, in
whatever order the directory lists them. What was compiled for the first cache need not be
compiled for the second.
-/

namespace Mustache

namespace ProgramCache

variable {cache : ProgramCache} {programs : List Program} {hash : ContentHash}

/-- Among programs with different hashes one is found by its hash. -/
theorem find?_hash_eq_some_iff (distinct : (programs.map (·.hash)).Nodup) {program : Program} :
    programs.find? (·.hash == hash) = some program ↔
      program ∈ programs ∧ program.hash = hash := by
  constructor
  · intro found
    exact ⟨List.mem_of_find?_eq_some found, by simpa using List.find?_some found⟩
  · rintro ⟨member, rfl⟩
    induction programs with
    | nil => exact absurd member List.not_mem_nil
    | cons first rest inductionHypothesis =>
      rw [List.map_cons, List.nodup_cons] at distinct
      rw [List.find?_cons]
      rcases List.mem_cons.1 member with rfl | later
      · rw [beq_self_eq_true]
      · have apart : (first.hash == program.hash) = false :=
          beq_eq_false_iff_ne.2 fun same =>
            distinct.1 (same ▸ List.mem_map_of_mem later)
        rw [apart]
        exact inductionHypothesis distinct.2 later

/-- Programs with different hashes are found by their hashes in any order. -/
theorem find?_hash_of_perm {others : List Program} (order : programs.Perm others)
    (distinct : (programs.map (·.hash)).Nodup) :
    programs.find? (·.hash == hash) = others.find? (·.hash == hash) := by
  ext program
  rw [find?_hash_eq_some_iff distinct,
    find?_hash_eq_some_iff ((order.map (·.hash)).nodup_iff.1 distinct), order.mem_iff]

/-- Where every program is under its hash `get?` finds it by it. -/
theorem get?_eq_find? (keyed : ∀ entry ∈ cache.entries, entry.1 = entry.2.program.hash)
    (hash : ContentHash) :
    (cache.get? hash).map (·.program) =
      (cache.programs.map (·.program)).find? (·.hash == hash) := by
  obtain ⟨entries, builds⟩ := cache
  simp only at keyed
  simp only [get?, programs]
  induction entries with
  | nil => rfl
  | cons entry rest inductionHypothesis =>
    obtain ⟨key, shared⟩ := entry
    have same : key = shared.program.hash := keyed _ List.mem_cons_self
    have others := inductionHypothesis fun other member =>
      keyed other (List.mem_cons_of_mem _ member)
    rw [List.lookup_cons, List.map_cons, List.map_cons, List.find?_cons, ← same, Bool.beq_comm]
    cases key == hash
    · exact others
    · rfl

end ProgramCache

namespace Storage

variable {disk after : Disk} {root : String} {now : Timestamp} {location : List String}
  {entries : List (String × Entry)} {program : Program} {done programs : List Program}

/-- The file of a program as `persist` writes it. -/
def shelved (now : Timestamp) (program : Program) : String × Entry :=
  (Artifact.fileName program.hash,
    .file (Artifact.text ⟨program.hash, now, program.instructions.toList⟩).toByteArray)

/-- Where no program has a hash its `fileName` is free. -/
theorem lookup_shelved_eq_none {hash : ContentHash}
    (free : hash ∉ programs.map (·.hash)) :
    (programs.map (shelved now)).lookup (Artifact.fileName hash) = none := by
  rw [List.lookup_eq_none_iff]
  intro entry member
  obtain ⟨program, programMember, rfl⟩ := List.mem_map.1 member
  rw [bne_iff_ne]
  intro same
  exact free (Artifact.fileName_inj same ▸ List.mem_map_of_mem programMember)

/-- The name under which a file is written first is free among the files. -/
theorem lookup_shelved_temporary (programs : List Program) (hash : ContentHash) :
    (programs.map (shelved now)).lookup (Artifact.fileName hash ++ ".tmp") = none := by
  rw [List.lookup_eq_none_iff]
  intro entry member
  obtain ⟨program, _, rfl⟩ := List.mem_map.1 member
  exact bne_iff_ne.2 (Artifact.temporaryName_ne_fileName hash program.hash)

/-- Among programs with different hashes each is `shelved` in the file of its hash. -/
theorem lookup_shelved (distinct : (programs.map (·.hash)).Nodup) (member : program ∈ programs) :
    (programs.map (shelved now)).lookup (Artifact.fileName program.hash) =
      some (shelved now program).2 := by
  induction programs with
  | nil => exact absurd member List.not_mem_nil
  | cons first rest inductionHypothesis =>
    rw [List.map_cons, List.nodup_cons] at distinct
    rw [List.map_cons, shelved, List.lookup_cons]
    rcases List.mem_cons.1 member with rfl | later
    · rw [beq_self_eq_true]
      rfl
    · have apart : (Artifact.fileName program.hash == Artifact.fileName first.hash) = false := by
        rw [beq_eq_false_iff_ne]
        intro same
        exact distinct.1 (Artifact.fileName_inj same ▸ List.mem_map_of_mem later)
      rw [apart]
      exact inductionHypothesis distinct.2 later

/-- No path of a file below a root is too long. -/
def Fits (root : String) : Prop :=
  ∀ hash, Disk.Fits (Artifact.temporaryPath root hash)

/-- The `path` of a program's file can be followed (`Fits`). -/
theorem Fits.path (fits : Fits root) (hash : ContentHash) :
    Disk.Fits (Path.join (Artifact.directory root) (Artifact.fileName hash)) :=
  Disk.Fits.of_append ((Artifact.isPlain_fileName hash).isEmpty_join _) (fits hash)

/-- The `temporaryPath` under which a file is written first can be followed (`Fits`). -/
theorem Fits.temporaryPath (fits : Fits root) (hash : ContentHash) :
    Disk.Fits (Path.join (Artifact.directory root) (Artifact.fileName hash ++ ".tmp")) := by
  rw [← Artifact.temporaryPath_eq_join]
  exact fits hash

/-- The path of the `directory` can be followed (`Fits`). -/
theorem Fits.directory (fits : Fits root) : Disk.Fits (Artifact.directory root) := by
  obtain ⟨rest, whole⟩ := (Artifact.isPlain_fileName default).exists_join_eq_append
    (Artifact.directory root)
  have path := fits.path default
  rw [whole] at path
  exact Disk.Fits.of_append (Artifact.isPlain_programs.isEmpty_join _) path

/-- Storing may begin below a root: the directory of the programs can be made, and has then some
names in it; what it has not is not there yet. -/
structure Opens (disk : Disk) (root : String) (location : List String)
    (entries : List (String × Entry)) : Prop where
  /-- No fault is to come. -/
  calm : disk.fault = none
  /-- The directory can be made. -/
  made : ∃ made, Disk.createDirectories (Artifact.directory root) disk = (.ok (), made) ∧
    made.fault = none ∧ made.DirectoryAt (Artifact.directory root) location entries
  /-- There are no other files. -/
  hidden : ∀ hash, entries.lookup (Artifact.fileName hash) = none →
    (disk.entry (Artifact.path root hash)).isOk = false

/-- Storing may begin in a directory that is there. -/
theorem Opens.of_directoryAt (fits : Fits root) (calm : disk.fault = none)
    (there : disk.DirectoryAt (Artifact.directory root) location entries) :
    Opens disk root location entries := by
  refine ⟨calm, ⟨disk, ?_, calm, there⟩, fun hash free => ?_⟩
  · exact Disk.createDirectories_of_directoryAt there calm fits.directory
  · rw [Artifact.path_eq_join,
      there.entry_join_of_free (Artifact.isPlain_fileName hash) (fits.path hash) free]
    rfl

/-- A program whose file is not there is written by `persist`. -/
theorem persist_of_opens (now : Timestamp) (fits : Fits root)
    (opens : Opens disk root location entries)
    (free : entries.lookup (Artifact.fileName program.hash) = none)
    (temporaryFree : entries.lookup (Artifact.fileName program.hash ++ ".tmp") = none) :
    ∃ after, persist root now program disk =
        (.ok (.written (Artifact.path root program.hash)), after) ∧
      after.fault = none ∧
      after.DirectoryAt (Artifact.directory root) location (entries ++ [shelved now program]) := by
  have unseen : isStored (Artifact.path root program.hash) program disk = (.ok false, disk) := by
    rw [isStored_apply, Disk.pathExists_of_calm opens.calm, opens.hidden _ free]
  obtain ⟨made, making, calmMade, thereMade⟩ := opens.made
  obtain ⟨filled, writing, calmFilled, thereFilled⟩ := Disk.write_of_free thereMade
    (Artifact.text ⟨program.hash, now, program.instructions.toList⟩).toByteArray calmMade
    (Artifact.isPlain_temporaryName program.hash) (fits.temporaryPath program.hash)
    temporaryFree (by rw [Artifact.utf8ByteSize_temporaryName]; decide)
  obtain ⟨after, moving, calmAfter, thereAfter⟩ := Disk.rename_of_free thereFilled rfl calmFilled
    (Artifact.isPlain_temporaryName program.hash) (Artifact.isPlain_fileName program.hash)
    (fits.temporaryPath program.hash) (fits.path program.hash) temporaryFree free
    (Artifact.temporaryName_ne_fileName program.hash program.hash)
    (by rw [Artifact.utf8ByteSize_fileName]; decide)
  rw [← Artifact.temporaryPath_eq_join] at writing
  rw [← Artifact.temporaryPath_eq_join, ← Artifact.path_eq_join] at moving
  have written : writeArtifact root now program disk = (.ok (), after) := by
    rw [writeArtifact, bind_apply, onFile, making]
    simp only
    rw [bind_apply, onFile, writing]
    simp only
    rw [bind_apply, outcome, onFile, moving]
    rfl
  refine ⟨after, ?_, calmAfter, thereAfter⟩
  rw [persist, bind_apply, unseen]
  simp only [Bool.false_eq_true, if_false]
  rw [bind_apply, written]
  rfl

/-- Programs with different hashes whose files are not there are written by `persist` one after
another. -/
theorem mapM_persist_of_opens (now : Timestamp) (fits : Fits root)
    (opens : Opens disk root location (done.map (shelved now)))
    (distinct : ((done ++ programs).map (·.hash)).Nodup) :
    ∃ after, programs.mapM (persist root now) disk =
        (.ok (programs.map fun program => .written (Artifact.path root program.hash)), after) ∧
      (programs = [] ∧ after = disk ∨ after.fault = none ∧
        after.DirectoryAt (Artifact.directory root) location
          ((done ++ programs).map (shelved now))) := by
  induction programs generalizing disk done with
  | nil => exact ⟨disk, rfl, .inl ⟨rfl, rfl⟩⟩
  | cons program rest inductionHypothesis =>
    have isNew : program.hash ∉ done.map (·.hash) := by
      rw [List.map_append, List.nodup_append] at distinct
      exact fun member => distinct.2.2 _ member _ List.mem_cons_self rfl
    obtain ⟨between, first, calm, there⟩ := persist_of_opens now fits opens
      (lookup_shelved_eq_none isNew) (lookup_shelved_temporary done program.hash)
    rw [← List.map_singleton (f := shelved now), ← List.map_append] at there
    have split : done ++ program :: rest = done ++ [program] ++ rest := by
      rw [List.append_assoc, List.singleton_append]
    obtain ⟨after, others, files⟩ := inductionHypothesis
      (Opens.of_directoryAt fits calm there) (split ▸ distinct)
    refine ⟨after, ?_, .inr ?_⟩
    · rw [List.mapM_cons, bind_apply, first]
      simp only
      rw [bind_apply, others]
      rfl
    · rw [split]
      rcases files with ⟨rfl, rfl⟩ | files
      · rw [List.append_nil]
        exact ⟨calm, there⟩
      · exact files

/-- Nothing has been stored below a root, and storing succeeds. The directory of the programs can
be made, and it is empty then. -/
structure Fresh (root : String) (disk : Disk) : Prop where
  /-- No fault is to come. -/
  calm : disk.fault = none
  /-- The directory of the programs is not there. -/
  missing : (disk.entry (Artifact.directory root)).isOk = false
  /-- It can be made, and there is no name in it. -/
  made : ∃ made, Disk.createDirectories (Artifact.directory root) disk = (.ok (), made) ∧
    Disk.list (Artifact.directory root) made = (.ok [], made)
  /-- No path is too long. -/
  fits : Fits root

/-- A directory that was made is empty unless the root goes back. -/
theorem Fresh.of_forward (forward : ".." ∉ Path.names root) (fits : Fits root)
    (calm : disk.fault = none) (missing : (disk.entry (Artifact.directory root)).isOk = false)
    (made : (Disk.createDirectories (Artifact.directory root) disk).1 = .ok ()) :
    Fresh root disk := by
  rcases making : Disk.createDirectories (Artifact.directory root) disk with ⟨result, after⟩
  rw [making] at made
  cases made
  obtain ⟨calmAfter, location, there⟩ :=
    Disk.createDirectories_of_missing (Artifact.forward_directory forward)
      (Artifact.isPlain_programs.isEmpty_join _) calm missing making
  have empty := Disk.list_of_directoryAt there calmAfter fits.directory
  exact ⟨calm, missing, ⟨after, making, empty⟩, fits⟩

/-- Storing may begin where nothing has been stored (`Fresh`). -/
theorem Fresh.opens (fresh : Fresh root disk) : ∃ location, Opens disk root location [] := by
  obtain ⟨made, making, listing⟩ := fresh.made
  obtain ⟨calm, location, entries, there, none⟩ := Disk.directoryAt_of_list listing
  rw [List.map_eq_nil_iff] at none
  subst none
  refine ⟨location, fresh.calm, ⟨made, making, calm, there⟩, fun hash _ => ?_⟩
  -- A file that is there is in the directory, and that is not there.
  cases found : disk.entry (Artifact.path root hash) with
  | error => rfl
  | ok entry =>
    have missing := fresh.missing
    obtain ⟨place, located⟩ := Disk.exists_locate_of_entry found
    rw [Artifact.path_eq_join] at located
    obtain ⟨_, _, present, _⟩ := Disk.exists_directoryAt (Artifact.isPlain_fileName hash) located
    rw [present.entry fresh.fits.directory] at missing
    cases missing

/-- The directory of the programs below a root holds the files of some programs, in some order,
and nothing else. Without programs it need not be there. -/
structure Shelves (root : String) (now : Timestamp) (programs : List Program) (disk : Disk) :
    Prop where
  /-- No fault is to come. -/
  calm : disk.fault = none
  /-- The files of the programs are there. -/
  files : (∃ location, ∃ ordered : List Program, ordered.Perm programs ∧
      disk.DirectoryAt (Artifact.directory root) location (ordered.map (shelved now))) ∨
    programs = [] ∧ (disk.entry (Artifact.directory root)).isOk = false

/-- Storing programs with different hashes where nothing has been stored writes all of them. -/
theorem mapM_persist_of_fresh (now : Timestamp) (fresh : Fresh root disk)
    (distinct : (programs.map (·.hash)).Nodup) :
    ∃ after, programs.mapM (persist root now) disk =
        (.ok (programs.map fun program => .written (Artifact.path root program.hash)), after) ∧
      Shelves root now programs after := by
  obtain ⟨location, opens⟩ := fresh.opens
  obtain ⟨after, stored, files⟩ :=
    mapM_persist_of_opens now fresh.fits
      (show Opens disk root location (([] : List Program).map (shelved now)) from opens) distinct
  refine ⟨after, stored, ?_⟩
  rcases files with ⟨none, rfl⟩ | ⟨calm, there⟩
  · exact ⟨fresh.calm, .inr ⟨none, fresh.missing⟩⟩
  · exact ⟨calm, .inl ⟨location, programs, .refl _, there⟩⟩

/-- A program is loaded by `load` from its file. -/
theorem load_of_lookup (fits : Fits root) (calm : disk.fault = none)
    (there : disk.DirectoryAt (Artifact.directory root) location entries)
    (found : entries.lookup (Artifact.fileName program.hash) = some (shelved now program).2) :
    load root program.hash disk = (.ok (some program), disk) := by
  have entry := there.entry_join (Artifact.isPlain_fileName _) (fits.path _) found
  rw [← Artifact.path_eq_join] at entry
  rw [load_of_holds calm (holds_of_entry entry), checkArtifact_of_instructions rfl, if_pos rfl]
  rfl

/-- Programs that `load` loads from their files are entered by `warmFile` one after another. -/
theorem mapM_warmFile (loads : ∀ program ∈ programs,
      load root program.hash disk = (.ok (some program), disk)) (cache : ProgramCache) :
    (programs.map fun program => Artifact.fileName program.hash).mapM (warmFile root)
        (cache, disk) =
      (.ok (programs.map fun _ => true), cache.insertAll programs, disk) := by
  induction programs generalizing cache with
  | nil => rfl
  | cons program rest inductionHypothesis =>
    have first : warmFile root (Artifact.fileName program.hash) (cache, disk) =
        (.ok true, (cache.insert program).2, disk) := by
      rw [warmFile_apply]
      simp only [Artifact.digitsOfName?_fileName, ContentHash.ofHex_text,
        loads program List.mem_cons_self]
    have others := inductionHypothesis (fun other member =>
      loads other (List.mem_cons_of_mem _ member)) (cache.insert program).2
    rw [List.map_cons, List.mapM_cons, bind_apply, first]
    simp only
    rw [bind_apply, others]
    rfl

/-- To `warm` a cache enters the programs that are there (`Shelves`), in the order of the directory.
-/
theorem warm_of_shelves (fits : Fits root) (distinct : (programs.map (·.hash)).Nodup)
    (shelves : Shelves root now programs disk) (cache : ProgramCache) :
    ∃ ordered, ordered.Perm programs ∧
      warm root (cache, disk) = (.ok programs.length, cache.insertAll ordered, disk) := by
  rw [warm_apply, Disk.pathExists_of_calm shelves.calm]
  rcases shelves.files with ⟨location, ordered, order, there⟩ | ⟨rfl, missing⟩
  · refine ⟨ordered, order, ?_⟩
    have loads : ∀ program ∈ ordered,
        load root program.hash disk = (.ok (some program), disk) := fun program member =>
      load_of_lookup fits shelves.calm there
        (lookup_shelved ((order.map (·.hash)).nodup_iff.2 distinct) member)
    have names : (ordered.map (shelved now)).map (·.1) =
        ordered.map fun program => Artifact.fileName program.hash := List.map_map
    rw [there.entry fits.directory]
    simp only [Except.isOk, Except.toBool, Disk.list_of_directoryAt there shelves.calm
      fits.directory, names, mapM_warmFile loads, ← order.length_eq]
    rw [List.map_const', List.countP_replicate]
    rfl
  · rw [missing]
    exact ⟨[], .nil, rfl⟩

/-- A template whose program `get?` finds is answered by `compile`, and nothing changes. -/
theorem compile_of_get? {compiler : Compiler} {source : String} (workshop : Workshop)
    {shared : SharedProgram} (template : compiler.programOf source = .ok program)
    (known : workshop.cache.get? program.hash = some shared) :
    ∃ warnings, compiler.compile source workshop = (.ok ⟨shared, warnings⟩, workshop) := by
  rw [Compiler.programOf] at template
  cases parsed : Template.parse compiler.delimiters source with
  | error =>
    rw [parsed] at template
    cases template
  | ok read =>
    rw [parsed] at template
    have same : program.instructions.toList = Instruction.ofNodes read.nodes :=
      Program.toList_instructions_of_make template
    rw [program.hash_eq, same] at known
    exact ⟨read.warnings, Compiler.compile_of_known parsed known⟩

/-- Let a cache have come about by any `StoreCall`s; the order of its programs does not matter.
Where nothing has been stored and storing succeeds, storing its programs writes all of them, and the
directory then holds their files and nothing else. Wherever it does so, in whatever order, loading
all programs into an empty cache loads as many as there were, and under each hash there is the
program that was there. What a template comes to that was among them is then answered from the new
cache, and nothing is built or written. -/
theorem warm_after_persistAll (calls : List StoreCall) (start : Disk) (cache : ProgramCache)
    (order : cache.entries.Perm (StoreCall.performAll calls (.ofDisk start)).cache.entries)
    (root : String) (disk : Disk) (fresh : Fresh root disk) (now : Timestamp) :
    ∃ after,
      persistAll root now cache disk = (.ok (cache.programs.map fun shared =>
        .written (Artifact.path root shared.program.hash)), after) ∧
      Shelves root now (cache.programs.map (·.program)) after ∧
      ∀ other, Shelves root now (cache.programs.map (·.program)) other →
        ∃ warmed, warm root (.empty, other) = (.ok cache.size, warmed, other) ∧
          (∀ hash, (warmed.get? hash).map (·.program) = (cache.get? hash).map (·.program)) ∧
          ∀ (compiler : Compiler) source program, compiler.programOf source = .ok program →
            program ∈ cache.programs.map (·.program) →
            ∃ compiled, compiler.compile source ⟨warmed, other⟩ = (.ok compiled, ⟨warmed, other⟩) ∧
              compiled.shared.program = program := by
  have kept : (StoreCall.performAll calls (.ofDisk start)).cache.Kept :=
    StoreCall.performAll_kept calls ProgramCache.Kept.empty
  have keyed : ∀ entry ∈ cache.entries, entry.1 = entry.2.program.hash := by
    intro entry member
    rw [kept.keyed entry.1 entry.2 (order.mem_iff.1 member), entry.2.program.hash_eq,
      Program.lowered]
  have distinct : ((cache.programs.map (·.program)).map (·.hash)).Nodup := by
    have keys : (cache.programs.map (·.program)).map (·.hash) = cache.entries.map (·.1) := by
      rw [ProgramCache.programs, List.map_map, List.map_map]
      exact List.map_congr_left fun entry member => (keyed entry member).symm
    rw [keys]
    exact (order.map (·.1)).nodup_iff.2 kept.distinct
  obtain ⟨after, stored, shelves⟩ := mapM_persist_of_fresh now fresh distinct
  refine ⟨after, ?_, shelves, ?_⟩
  · rw [List.mapM_map, List.map_map] at stored
    exact stored
  · intro other shelvesOther
    obtain ⟨ordered, sameOrder, warming⟩ :=
      warm_of_shelves fresh.fits distinct shelvesOther ProgramCache.empty
    have same : ∀ hash, ((ProgramCache.empty.insertAll ordered).get? hash).map (·.program) =
        (cache.get? hash).map (·.program) := by
      intro hash
      rw [ProgramCache.get?_insertAll, ProgramCache.get?_eq_find? keyed,
        ProgramCache.find?_hash_of_perm sameOrder.symm distinct]
      rfl
    refine ⟨ProgramCache.empty.insertAll ordered, ?_, same, ?_⟩
    · rw [warming, List.length_map, ProgramCache.programs, List.length_map]
      rfl
    · intro compiler source program template member
      have found := same program.hash
      rw [ProgramCache.get?_eq_find? keyed,
        (ProgramCache.find?_hash_eq_some_iff distinct).2 ⟨member, rfl⟩] at found
      obtain ⟨shared, known, rfl⟩ := Option.map_eq_some_iff.1 found
      obtain ⟨warnings, compiled⟩ := compile_of_get? ⟨_, other⟩ template known
      exact ⟨_, compiled, rfl⟩

/-- Below the directory at the root no path is too long. -/
theorem fits_slash : Fits "/" := by
  intro hash
  rw [Artifact.temporaryPath, path_slash]
  have noNul : '\x00' ∉ Text.Hex.encode hash.bytes :=
    fun member => absurd (Text.Hex.mem_encode member) (by decide)
  refine ⟨?_, ?_, ?_⟩
  · simp [ContentHash.text, noNul]
  · simp
  · rw [String.utf8ByteSize_append, String.utf8ByteSize_append, String.utf8ByteSize_append,
      ContentHash.utf8ByteSize_text]
    decide +kernel

/-- The program that writes the value of one path. -/
def tag : Program := ⟨#[.interpolation "a" true], #[none], _, rfl, rfl⟩

/-- Two programs are stored on an empty disk and loaded again. -/
theorem warm_after_persistAll_two :
    let calls := [StoreCall.use (.insert letter), .use (.insert tag)]
    let cache : ProgramCache :=
      ⟨[(tag.hash, ⟨1, tag⟩), (letter.hash, ⟨0, letter⟩)], 0⟩
    let disk : Disk := ⟨.directory [], [], none⟩
    cache.entries.Perm (StoreCall.performAll calls (.ofDisk disk)).cache.entries ∧
      Fresh "/" disk ∧
      ∃ after warmed,
        persistAll "/" .epoch cache disk =
          (.ok [.written (Artifact.path "/" tag.hash),
            .written (Artifact.path "/" letter.hash)], after) ∧
        warm "/" (.empty, after) = (.ok 2, warmed, after) ∧
        ∃ compiled, ({} : Compiler).compile "x" ⟨warmed, after⟩ =
            (.ok compiled, ⟨warmed, after⟩) ∧
          compiled.shared.program = letter := by
  intro calls cache disk
  have apart : tag.hash ≠ letter.hash := by decide +kernel
  have reached : (StoreCall.performAll calls (.ofDisk disk)).cache.entries =
      [(letter.hash, ⟨0, letter⟩), (tag.hash, ⟨1, tag⟩)] := by
    have entered : (StoreCall.performAll calls (.ofDisk disk)).cache =
        ((ProgramCache.empty.insert letter).2.insert tag).2 := by
      simp only [calls, StoreCall.performAll, List.foldl_cons, List.foldl_nil, StoreCall.perform,
        CacheCall.perform, Workshop.ofDisk]
    have first : (ProgramCache.empty.insert letter).2.entries = [(letter.hash, ⟨0, letter⟩)] := rfl
    have free : (ProgramCache.empty.insert letter).2.get? tag.hash = none := by
      rw [ProgramCache.get?, first, List.lookup_cons, beq_eq_false_iff_ne.2 apart]
      rfl
    rw [entered, ProgramCache.insert, free]
    simp only [ProgramCache.register, ProgramCache.size, first]
    rfl
  have order : cache.entries.Perm (StoreCall.performAll calls (.ofDisk disk)).cache.entries := by
    rw [reached]
    exact List.Perm.swap _ _ _
  have fresh : Fresh "/" disk := Fresh.of_forward (by decide +kernel) fits_slash rfl
    (by decide +kernel) (by decide +kernel)
  refine ⟨order, fresh, ?_⟩
  obtain ⟨after, stored, shelves, loaded⟩ :=
    warm_after_persistAll calls disk cache order "/" disk fresh .epoch
  obtain ⟨warmed, warming, _, answers⟩ := loaded after shelves
  exact ⟨after, warmed, stored, warming,
    answers {} "x" letter (by decide +kernel) (List.mem_cons_of_mem _ List.mem_cons_self)⟩

end Storage

end Mustache
