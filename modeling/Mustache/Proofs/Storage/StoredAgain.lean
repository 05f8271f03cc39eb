import Mustache.Proofs.Storage.AtomicStoring

/-!
# What is stored is found again

After programs with different hashes were stored, the file of each holds its instructions, for
storing one touches no file of another (`mapM_persist_stores`). Where all files do, storing finds
them, in whatever order, and does nothing (`mapM_persist_of_stores`).
-/

namespace Mustache

namespace Storage

variable {disk after : Disk} {root : String} {now : Timestamp} {program : Program}
  {programs : List Program} {results : List Stored}

/-- The file of a program holds its instructions (`Storage.Holds`). -/
def Stores (disk : Disk) (root : String) (program : Program) : Prop :=
  ∃ artifact, Holds disk (Artifact.path root program.hash) artifact ∧
    artifact.instructions = program.instructions.toList

/-- After `persist` has stored a program its file holds its instructions (`Stores`), and the answer
names the file. -/
theorem stores_of_persist {stored : Stored}
    (persisted : persist root now program disk = (.ok stored, after)) :
    Stores after root program ∧ stored.path = Artifact.path root program.hash := by
  rcases persist_eq_ok persisted with ⟨rfl, _, artifact, holds, instructions⟩ | ⟨rfl, holds⟩
  · exact ⟨⟨artifact, holds, instructions⟩, rfl⟩
  · exact ⟨⟨_, holds, rfl⟩, rfl⟩

/-- To `persist` a program touches no file of another one. -/
theorem Stores.persist {other : Program} (stores : Stores disk root other)
    (differ : other.hash ≠ program.hash)
    (persisted : persist root now program disk = (.ok result, after)) : Stores after root other := by
  obtain ⟨artifact, ⟨content, source, found, isText, parsed⟩, instructions⟩ := stores
  obtain ⟨touched, kept, elsewhere⟩ :=
    keepsFiles_persistBy Disk.cutsShort_write root now program disk
  rw [← persist_eq_persistBy, persisted] at kept
  have same := (kept.keepsFileAt (Artifact.isPlain_fileName other.hash)
    (elsewhere other.hash differ)).kept content found
  exact ⟨artifact, ⟨content, source, same, isText, parsed⟩, instructions⟩

/-- After programs with different hashes were stored by `persist` their files hold their
instructions, and so do the files of programs with other hashes that did so before. -/
theorem mapM_persist_stores (distinct : (programs.map (·.hash)).Nodup)
    (persisted : programs.mapM (persist root now) disk = (.ok results, after)) :
    (∀ program ∈ programs, Stores after root program) ∧
      (∀ other, other.hash ∉ programs.map (·.hash) → Stores disk root other →
        Stores after root other) ∧
      results.map (·.path) = programs.map fun program => Artifact.path root program.hash := by
  induction programs generalizing disk results with
  | nil =>
    cases persisted
    exact ⟨nofun, fun _ _ stores => stores, rfl⟩
  | cons program rest inductionHypothesis =>
    rw [List.map_cons, List.nodup_cons] at distinct
    rw [List.mapM_cons] at persisted
    obtain ⟨stored, between, first, persisted⟩ := bind_eq_ok persisted
    obtain ⟨others, last, later, persisted⟩ := bind_eq_ok persisted
    cases persisted
    obtain ⟨stores, path⟩ := stores_of_persist first
    obtain ⟨storesLater, keeps, paths⟩ := inductionHypothesis distinct.2 later
    refine ⟨?_, ?_, ?_⟩
    · rintro other member
      rcases List.mem_cons.1 member with rfl | member
      · exact keeps other distinct.1 stores
      · exact storesLater other member
    · intro other elsewhere storesOther
      rw [List.map_cons, List.mem_cons, not_or] at elsewhere
      exact keeps other elsewhere.2 (storesOther.persist elsewhere.1 first)
    · rw [List.map_cons, List.map_cons, path, paths]

/-- Programs whose files hold their instructions (`Stores`) are found by `persist`, and nothing
changes. -/
theorem mapM_persist_of_stores (calm : disk.fault = none) (now : Timestamp)
    (stores : ∀ program ∈ programs, Stores disk root program) :
    programs.mapM (persist root now) disk =
      (.ok (programs.map fun program => .unchanged (Artifact.path root program.hash)), disk) := by
  induction programs with
  | nil => rfl
  | cons program rest inductionHypothesis =>
    obtain ⟨artifact, holds, instructions⟩ := stores program List.mem_cons_self
    have others := inductionHypothesis fun other member =>
      stores other (List.mem_cons_of_mem _ member)
    rw [List.mapM_cons, bind_apply, persist_of_holds calm now holds instructions]
    simp only
    rw [bind_apply, others]
    rfl

/-- The programs of a cache are stored by `persistAll` one after another. -/
theorem persistAll_eq_mapM (root : String) (now : Timestamp) (cache : ProgramCache) :
    persistAll root now cache = (cache.programs.map (·.program)).mapM (persist root now) := by
  rw [List.mapM_map]
  rfl

/-- The programs of a cache that is `Kept` have different hashes. -/
theorem nodup_hashes_of_kept {cache : ProgramCache} (kept : cache.Kept) :
    ((cache.programs.map (·.program)).map (·.hash)).Nodup := by
  have keys : (cache.programs.map (·.program)).map (·.hash) = cache.entries.map (·.1) := by
    rw [ProgramCache.programs, List.map_map, List.map_map]
    refine List.map_congr_left fun entry member => ?_
    rw [kept.keyed entry.1 entry.2 member]
    exact entry.2.program.hash_eq
  rw [keys]
  exact kept.distinct

/-- The paths of the files of a cache's programs. -/
def paths (root : String) (cache : ProgramCache) : List String :=
  (cache.programs.map (·.program)).map fun program => Artifact.path root program.hash

/-- After `persistAll` has stored the programs of a cache, in whatever order, they are found by
storing them once more, in whatever order, and nothing changes. -/
theorem persistAll_again {cache first second : ProgramCache} (kept : cache.Kept)
    (firstOrder : first.entries.Perm cache.entries)
    (secondOrder : second.entries.Perm cache.entries)
    (persisted : persistAll root now first disk = (.ok results, after))
    (calm : after.fault = none) (later : Timestamp) :
    results.map (·.path) = paths root first ∧
      persistAll root later second after = (.ok ((paths root second).map .unchanged), after) := by
  have programs : ∀ {arranged : ProgramCache}, arranged.entries.Perm cache.entries →
      (arranged.programs.map (·.program)).Perm (cache.programs.map (·.program)) :=
    fun order => (order.map _).map _
  have distinct : ((first.programs.map (·.program)).map (·.hash)).Nodup :=
    ((programs firstOrder).map _).nodup_iff.2 (nodup_hashes_of_kept kept)
  rw [persistAll_eq_mapM] at persisted
  obtain ⟨stores, _, named⟩ := mapM_persist_stores distinct persisted
  have storesSecond : ∀ program ∈ second.programs.map (·.program), Stores after root program :=
    fun program member => stores program
      ((programs firstOrder).mem_iff.2 ((programs secondOrder).mem_iff.1 member))
  have found := mapM_persist_of_stores calm later storesSecond
  refine ⟨named, ?_⟩
  rw [persistAll_eq_mapM, found]
  simp only [paths, List.map_map]
  rfl

end Storage

end Mustache
