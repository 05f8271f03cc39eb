import Mustache.Proofs.Storage.SamePrograms
import Mustache.Proofs.Storage.Warming

/-!
# The order of a directory

Loading all programs takes the names of their directory in the order in which it lists them. What
becomes of a name does not depend on the names before it (`Visited.warmFile`), and the programs that
are entered are told apart by their hashes; so the order makes no difference to whether the loading
succeeds, to how many it counts, and to what is in the cache then (`warm_reordered`).
-/

namespace Mustache

namespace Entry

variable {entries others : List (String × Entry)} {name : String} {entry : Entry}

/-- In a directory with different names each entry is under its name. -/
theorem lookup_eq_some_iff_mem (distinct : (entries.map (·.1)).Nodup) :
    entries.lookup name = some entry ↔ (name, entry) ∈ entries := by
  induction entries with
  | nil => simp
  | cons first rest inductionHypothesis =>
    obtain ⟨other, held⟩ := first
    rw [List.map_cons, List.nodup_cons] at distinct
    rw [List.lookup_cons, List.mem_cons]
    by_cases same : name = other
    · subst same
      have elsewhere : (name, entry) ∉ rest :=
        fun member => distinct.1 (List.mem_map.2 ⟨_, member, rfl⟩)
      simp [elsewhere, eq_comm]
    · rw [beq_eq_false_iff_ne.2 same, inductionHypothesis distinct.2]
      simp [same]

/-- In a directory with different names the order makes no difference to what `List.lookup` finds
under a name. -/
theorem lookup_of_perm (order : entries.Perm others) (distinct : (entries.map (·.1)).Nodup)
    (name : String) : entries.lookup name = others.lookup name := by
  ext entry
  rw [lookup_eq_some_iff_mem distinct,
    lookup_eq_some_iff_mem ((order.map _).nodup_iff.1 distinct), order.mem_iff]

end Entry

/-- Among programs that are told apart by their hashes, which one has a hash does not depend on
their order. -/
theorem ProgramCache.find?_hash_congr {programs others : List Program}
    (same : ∀ program, program ∈ programs ↔ program ∈ others)
    (apart : ∀ first ∈ programs, ∀ second ∈ programs, first.hash = second.hash → first = second)
    (hash : ContentHash) :
    programs.find? (·.hash == hash) = others.find? (·.hash == hash) := by
  have found : ∀ {programs : List Program} {program}, programs.find? (·.hash == hash) =
      some program → program ∈ programs ∧ program.hash = hash := fun found =>
    ⟨List.mem_of_find?_eq_some found, by simpa using List.find?_some found⟩
  have absent : ∀ {programs : List Program}, programs.find? (·.hash == hash) = none →
      ∀ program ∈ programs, program.hash ≠ hash := fun none program member => by
    simpa using List.find?_eq_none.1 none program member
  cases left : programs.find? (·.hash == hash) with
  | none =>
    cases right : others.find? (·.hash == hash) with
    | none => rfl
    | some program =>
      obtain ⟨member, hashes⟩ := found right
      exact absurd hashes (absent left program ((same program).2 member))
  | some program =>
    obtain ⟨member, hashes⟩ := found left
    cases right : others.find? (·.hash == hash) with
    | none => exact absurd hashes (absent right program ((same program).1 member))
    | some other =>
      obtain ⟨otherMember, otherHashes⟩ := found right
      rw [apart program member other ((same other).2 otherMember) (hashes.trans otherHashes.symm)]

namespace Storage

variable {disk other : Disk} {root name : String} {names : List String}
  {visits : List (Option Program)} {found : Option Program}

/-- A name that can be `Visited` is: what is found for it is entered, and the answer is whether
anything was. -/
theorem Visited.warmFile (visited : Visited disk root name found) (calm : disk.fault = none)
    (cache : ProgramCache) :
    warmFile root name (cache, disk) = (.ok found.isSome, cache.insertAll found.toList, disk) := by
  cases visited with
  | passed form =>
    rw [warmFile_apply, form]
    rfl
  | missed named missing => exact warmFile_of_missing calm named missing
  | @loaded program content named file certified =>
    obtain ⟨source, artifact, isText, parsed, instructions, noted⟩ := certified
    rw [warmFile_of_hashOfName? named, load_of_holds calm ⟨content, source, file, isText, parsed⟩,
      checkArtifact_of_instructions instructions, if_pos noted]
    rfl

/-- Names that can be `Visited` are, one after another. -/
theorem mapM_warmFile_of_visited (visited : List.Forall₂ (Visited disk root) names visits)
    (calm : disk.fault = none) (cache : ProgramCache) :
    names.mapM (warmFile root) (cache, disk) =
      (.ok (visits.map Option.isSome), cache.insertAll visits.reduceOption, disk) := by
  induction visited generalizing cache with
  | nil => rfl
  | @cons name found names visits first _ inductionHypothesis =>
    have entered : (cache.insertAll found.toList).insertAll visits.reduceOption =
        cache.insertAll (found :: visits).reduceOption := by
      rw [← ProgramCache.insertAll_append]
      cases found <;> rfl
    rw [List.mapM_cons, bind_apply, first.warmFile calm]
    simp only
    rw [bind_apply, inductionHypothesis, entered]
    rfl

/-- All programs are loaded by `warm` if all names of their directory can be `Visited`. -/
theorem warm_of_visited {location : List String} {entries : List (String × Entry)}
    (there : disk.DirectoryAt (Artifact.directory root) location entries)
    (fits : Disk.Fits (Artifact.directory root)) (calm : disk.fault = none)
    (visited : List.Forall₂ (Visited disk root) (entries.map (·.1)) visits)
    (cache : ProgramCache) :
    warm root (cache, disk) =
      (.ok ((visits.map Option.isSome).countP id), cache.insertAll visits.reduceOption, disk) := by
  rw [warm_apply, Disk.pathExists_of_calm calm, there.entry fits]
  simp only [Except.isOk, Except.toBool, Disk.list_of_directoryAt there calm fits,
    mapM_warmFile_of_visited visited calm]

/-- What becomes of a name that is `Visited` depends on the files of the programs alone. -/
theorem Visited.of_samePrograms (visited : Visited disk root name found)
    (same : SamePrograms root disk other) : Visited other root name found := by
  cases visited with
  | passed form => exact .passed form
  | missed named missing => exact .missed named (by rw [← same.entries]; exact missing)
  | loaded named file certified =>
    exact .loaded named (by rw [← same.entries]; exact file) certified

/-- The directory of the programs has on both disks the same under the same names, in some order,
and no fault is to come. -/
structure Reorders (root : String) (location elsewhere : List String)
    (entries others : List (String × Entry)) (disk other : Disk) : Prop where
  /-- No fault is to come on the one disk. -/
  calm : disk.fault = none
  /-- No fault is to come on the other disk. -/
  calmOther : other.fault = none
  /-- The directory is there on the one disk. -/
  there : disk.DirectoryAt (Artifact.directory root) location entries
  /-- The directory is there on the other disk. -/
  thereOther : other.DirectoryAt (Artifact.directory root) elsewhere others
  /-- The entries are the same. -/
  order : entries.Perm others
  /-- No name is there twice. -/
  distinct : (entries.map (·.1)).Nodup

variable {location elsewhere : List String} {entries others : List (String × Entry)}
  {cache warmed : ProgramCache} {after : Disk} {count : Nat}

theorem Reorders.symm (reorders : Reorders root location elsewhere entries others disk other) :
    Reorders root elsewhere location others entries other disk where
  calm := reorders.calmOther
  calmOther := reorders.calm
  there := reorders.thereOther
  thereOther := reorders.there
  order := reorders.order.symm
  distinct := (reorders.order.map _).nodup_iff.1 reorders.distinct

/-- The programs have the same files. -/
theorem Reorders.samePrograms
    (reorders : Reorders root location elsewhere entries others disk other) :
    SamePrograms root disk other :=
  .of_directoryAt (reorders.calm.trans reorders.calmOther.symm) reorders.there reorders.thereOther
    fun _ => Entry.lookup_of_perm reorders.order reorders.distinct _

/-- Where the path of the directory cannot be followed `warm` loads nothing. -/
theorem warm_of_not_fits (unfit : ¬ Disk.Fits (Artifact.directory root)) (calm : disk.fault = none)
    (cache : ProgramCache) : warm root (cache, disk) = (.ok 0, cache, disk) := by
  obtain ⟨error, failed⟩ := Disk.exists_error_of_not_fits unfit
  rw [warm_apply, Disk.pathExists_of_calm calm, failed]
  rfl

/-- Where `warm` succeeds it also does with the names in another order (`Reorders`), counts as many,
and comes to the same programs. -/
theorem Reorders.warm_eq_ok
    (reorders : Reorders root location elsewhere entries others disk other)
    (done : warm root (cache, disk) = (.ok count, warmed, after)) :
    after = disk ∧ ∃ warmedOther, warm root (cache, other) = (.ok count, warmedOther, other) ∧
      ∀ hash, (warmed.get? hash).map (·.program) = (warmedOther.get? hash).map (·.program) := by
  by_cases fits : Disk.Fits (Artifact.directory root)
  · obtain ⟨visits, visited, _⟩ := warm_visits reorders.calm done
    rw [directoryEntries_of_directoryAt reorders.there fits] at visited
    rw [warm_of_visited reorders.there fits reorders.calm visited] at done
    cases done
    -- The names are visited in the other order, and so are the programs that are found.
    obtain ⟨visitsOther, visitedOther, order⟩ :=
      List.perm_comp_forall₂ (reorders.order.map (·.1)).symm visited
    have transferred := visitedOther.imp fun _ _ visit => visit.of_samePrograms reorders.samePrograms
    refine ⟨rfl, cache.insertAll visitsOther.reduceOption, ?_, fun hash => ?_⟩
    · rw [warm_of_visited reorders.thereOther fits reorders.calmOther transferred]
      rw [(order.map Option.isSome).countP_eq]
    · rw [ProgramCache.get?_insertAll, ProgramCache.get?_insertAll,
        ProgramCache.find?_hash_congr _ fun _ first _ second same =>
          eq_of_visited visited first second same]
      intro program
      rw [List.reduceOption_mem_iff, List.reduceOption_mem_iff, order.mem_iff]
  · rw [warm_of_not_fits fits reorders.calm] at done
    cases done
    exact ⟨rfl, cache, warm_of_not_fits fits reorders.calmOther cache, fun _ => rfl⟩

/-- What `warm` loads does not depend on the order in which the directory of the programs lists its
names. It fails in both orders, or it succeeds in both, counts as many, and leaves the cache with
the same programs under the same hashes; and then what was in the cache before is still there. -/
theorem warm_reordered (reorders : Reorders root location elsewhere entries others disk other)
    (cache : ProgramCache) :
    (∃ count warmed warmedOther,
      warm root (cache, disk) = (.ok count, warmed, disk) ∧
      warm root (cache, other) = (.ok count, warmedOther, other) ∧
      (∀ hash, (warmed.get? hash).map (·.program) = (warmedOther.get? hash).map (·.program)) ∧
      ∀ hash shared, cache.get? hash = some shared →
        warmed.get? hash = some shared ∧ warmedOther.get? hash = some shared) ∨
    ∃ error errorOther, (warm root (cache, disk)).1 = .error error ∧
      (warm root (cache, other)).1 = .error errorOther := by
  have stays : ∀ {disk after : Disk} {count warmed},
      warm root (cache, disk) = (.ok count, warmed, after) →
      ∀ {hash shared}, cache.get? hash = some shared → warmed.get? hash = some shared := by
    intro disk after count warmed done hash shared found
    obtain ⟨programs, entered⟩ := warm_enters root (cache, disk)
    rw [done] at entered
    simp only at entered
    rw [entered]
    exact ProgramCache.get?_insertAll_of_get? programs found
  rcases done : warm root (cache, disk) with ⟨error | count, warmed, after⟩
  · rcases doneOther : warm root (cache, other) with ⟨errorOther | count, warmed, after⟩
    · exact .inr ⟨error, errorOther, rfl, rfl⟩
    · -- If it succeeded in the other order it would in this one.
      obtain ⟨_, _, succeeds, _⟩ := reorders.symm.warm_eq_ok doneOther
      rw [done] at succeeds
      cases succeeds
  · obtain ⟨rfl, warmedOther, doneOther, same⟩ := reorders.warm_eq_ok done
    exact .inl ⟨count, warmed, warmedOther, rfl, doneOther, same,
      fun _ _ found => ⟨stays done found, stays doneOther found⟩⟩

/-- A disk with two programs and a file of another kind in the directory of the programs, which
lists them in a given order. -/
def twoPrograms (entries : List (String × Entry)) : Disk where
  root := .directory [("stache", .directory [("programs", .directory entries)])]
  workingDirectory := []

/-- Two programs are loaded in either order; one of them was in the cache before. -/
theorem warm_reordered_two :
    let entries := [("notes", .file .empty), shelved .epoch letter, shelved .epoch tag]
    let cache : ProgramCache := ⟨[(letter.hash, ⟨0, letter⟩)], 1⟩
    Reorders "/" ["stache", "programs"] ["stache", "programs"] entries entries.reverse
      (twoPrograms entries) (twoPrograms entries.reverse) ∧
    ∃ warmed warmedOther,
      warm "/" (cache, twoPrograms entries) = (.ok 2, warmed, twoPrograms entries) ∧
      warm "/" (cache, twoPrograms entries.reverse) =
        (.ok 2, warmedOther, twoPrograms entries.reverse) ∧
      (∀ hash, (warmed.get? hash).map (·.program) = (warmedOther.get? hash).map (·.program)) ∧
      warmed.get? letter.hash = some ⟨0, letter⟩ ∧ warmedOther.get? letter.hash = some ⟨0, letter⟩ := by
  intro entries cache
  have there : (twoPrograms entries).DirectoryAt (Artifact.directory "/") ["stache", "programs"]
      entries := directoryAt_slash entries
  have distinct : (entries.map (·.1)).Nodup := by
    change ["notes", Artifact.fileName letter.hash, Artifact.fileName tag.hash].Nodup
    decide +kernel
  have reorders : Reorders "/" ["stache", "programs"] ["stache", "programs"] entries entries.reverse
      (twoPrograms entries) (twoPrograms entries.reverse) :=
    ⟨rfl, rfl, there, directoryAt_slash _, (List.reverse_perm _).symm, distinct⟩
  have loaded : ∀ program, shelved .epoch program ∈ entries →
      Visited (twoPrograms entries) "/" (Artifact.fileName program.hash) (some program) := by
    intro program member
    have found := (Entry.lookup_eq_some_iff_mem distinct).2 member
    have entry := there.entry_join (Artifact.isPlain_fileName _) (fits_slash.path _) found
    exact .loaded (Artifact.hashOfName?_fileName _) entry
      ⟨_, _, fromUTF8?_toByteArray _, Artifact.parse?_text _, rfl, rfl⟩
  have visited : List.Forall₂ (Visited (twoPrograms entries) "/") (entries.map (·.1))
      [none, some letter, some tag] :=
    .cons (.passed (by decide +kernel)) <| .cons (loaded letter (by simp [entries])) <|
      .cons (loaded tag (by simp [entries])) .nil
  have done := warm_of_visited there fits_slash.directory rfl visited cache
  rcases warm_reordered reorders cache with
    ⟨count, warmed, warmedOther, first, second, same, stays⟩ | ⟨error, _, failed, _⟩
  · have counted : Except.ok count = Except.ok 2 := congrArg Prod.fst (first.symm.trans done)
    cases counted
    exact ⟨reorders, warmed, warmedOther, first, second, same,
      stays letter.hash ⟨0, letter⟩ List.lookup_cons_self⟩
  · rw [done] at failed
    cases failed

end Storage

end Mustache
