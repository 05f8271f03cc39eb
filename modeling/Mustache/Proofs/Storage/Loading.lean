import Mustache.Proofs.Compile.CacheHistory
import Mustache.Proofs.Storage.CalmDisk
import Mustache.Proofs.Storage.Persistence

/-!
# What is loaded is genuine

A file is never taken at its word. A program that is loaded under a hash has that hash, and so has
the file that it comes from, in its name, in what it notes down and in what it holds. Loading all
files into a cache enters such programs one after another, up to the file that is refused, if
there is one (`warm_enters`); so a cache stays in order whatever the files hold
(`load_and_history`).
-/

namespace Mustache

namespace ProgramCache

/-- The cache after `insert` has entered some programs one after another. -/
def insertAll (cache : ProgramCache) (programs : List Program) : ProgramCache :=
  programs.foldl (fun reached program => (reached.insert program).2) cache

theorem insertAll_append (cache : ProgramCache) (first second : List Program) :
    cache.insertAll (first ++ second) = (cache.insertAll first).insertAll second :=
  List.foldl_append

/-- Entering programs with `insertAll` is a history of calls. -/
theorem insertAll_eq_performAll (programs : List Program) (workshop : Workshop) :
    workshop.cache.insertAll programs =
      (CacheCall.performAll (programs.map .insert) workshop).cache := by
  induction programs generalizing workshop with
  | nil => rfl
  | cons program rest inductionHypothesis =>
    exact inductionHypothesis ((CacheCall.insert program).perform workshop).2

variable {cache : ProgramCache}

/-- Entering programs with `insertAll` leaves a cache `Kept`. -/
theorem Kept.insertAll (kept : cache.Kept) (programs : List Program) :
    (cache.insertAll programs).Kept := by
  rw [insertAll_eq_performAll programs ⟨cache, default⟩]
  exact CacheCall.performAll_kept _ kept

/-- Entering programs with `insertAll` replaces none. -/
theorem get?_insertAll_of_get? (programs : List Program) {hash : ContentHash}
    {shared : SharedProgram} (found : cache.get? hash = some shared) :
    (cache.insertAll programs).get? hash = some shared := by
  rw [insertAll_eq_performAll programs ⟨cache, default⟩]
  exact CacheCall.performAll_get?_of_get? _ found

/-- After `insert` has entered a program `get?` finds a program under its hash, and under every
other hash what was there before. -/
theorem get?_insert (cache : ProgramCache) (program : Program) (hash : ContentHash) :
    ((cache.insert program).2.get? hash).map (·.program) =
      ((cache.get? hash).map (·.program)).or
        (if program.hash == hash then some program else none) := by
  rw [insert]
  cases known : cache.get? program.hash with
  | some shared =>
    simp only
    by_cases same : program.hash = hash
    · rw [← same, known]
      rfl
    · rw [if_neg (by simpa using same), Option.or_none]
  | none =>
    simp only [register, get?, List.lookup_append]
    rw [get?] at known
    by_cases same : program.hash = hash
    · rw [← same, known, List.lookup_cons_self, if_pos (beq_self_eq_true _)]
      rfl
    · rw [List.lookup_cons, beq_eq_false_iff_ne.2 (Ne.symm same), if_neg (by simpa using same)]
      simp

/-- After `insertAll` has entered programs `get?` finds under a hash what was there before, or the
first of the programs that has it. -/
theorem get?_insertAll (cache : ProgramCache) (programs : List Program) (hash : ContentHash) :
    ((cache.insertAll programs).get? hash).map (·.program) =
      ((cache.get? hash).map (·.program)).or (programs.find? (·.hash == hash)) := by
  induction programs generalizing cache with
  | nil => exact Option.or_none.symm
  | cons program rest inductionHypothesis =>
    change (((cache.insert program).2.insertAll rest).get? hash).map (·.program) = _
    rw [inductionHypothesis, get?_insert, Option.or_assoc, List.find?_cons]
    cases program.hash == hash <;> rfl

end ProgramCache

/-- A relation that steps bear to the states before and after them is borne by a step that is
repeated for each of some items, also where one of the repetitions fails. -/
theorem mapM_reaches {ε σ α β : Type} (reaches : σ → σ → Prop)
    (refl : ∀ state, reaches state state)
    (trans : ∀ {first second third}, reaches first second → reaches second third →
      reaches first third)
    {step : α → ExceptT ε (StateM σ) β} (each : ∀ item state, reaches state (step item state).2)
    (items : List α) (state : σ) : reaches state (items.mapM step state).2 := by
  induction items generalizing state with
  | nil => exact refl state
  | cons item rest inductionHypothesis =>
    have first := each item state
    rw [List.mapM_cons, bind_apply]
    revert first
    rcases step item state with ⟨_ | value, after⟩
    · exact fun first => first
    · intro first
      have others := inductionHypothesis after
      refine trans first ?_
      simp only
      rw [bind_apply]
      revert others
      rcases rest.mapM step after with ⟨_ | values, last⟩ <;> exact fun others => others

namespace Storage

variable {disk after : Disk} {root path : String} {hash : ContentHash} {program : Program}

/-- A program is taken by `checkArtifact` from an artifact that notes down the hash that is looked
for, if this is the hash of the instructions. -/
theorem checkArtifact_eq_ok {expected : ContentHash} {artifact : Artifact}
    (checked : checkArtifact path expected artifact = .ok program) :
    artifact.instructions = program.instructions.toList ∧ artifact.hash = expected ∧
      program.hash = expected := by
  rw [checkArtifact] at checked
  split at checked
  · cases checked
  · next other made =>
    split at checked
    · cases checked
    · next hashes =>
      split at checked
      · cases checked
      · next noted =>
        cases checked
        exact ⟨(Program.toList_instructions_of_make made).symm, not_not.1 noted, not_not.1 hashes⟩

/-- A program that `load` loads is taken from a file that holds its instructions and its hash
(`Holds`). -/
theorem load_eq_ok (loaded : load root hash disk = (.ok (some program), after)) :
    program.hash = hash ∧ ∃ artifact, Holds disk (Artifact.path root hash) artifact ∧
      artifact.instructions = program.instructions.toList ∧ artifact.hash = hash := by
  have same := Disk.sameFiles_pathExists (Artifact.path root hash) disk
  rw [load, bind_apply, look] at loaded
  rcases seen : Disk.pathExists (Artifact.path root hash) disk with ⟨_ | _, counted⟩
  · rw [seen] at loaded
    cases loaded
  · rw [seen] at loaded same
    obtain ⟨artifact, between, read, rest⟩ := bind_eq_ok loaded
    have holds := holds_of_readArtifact read
    cases checked : checkArtifact (Artifact.path root hash) hash artifact with
    | error =>
      rw [checked] at rest
      cases rest
    | ok other =>
      rw [checked] at rest
      cases rest
      obtain ⟨instructions, noted, hashes⟩ := checkArtifact_eq_ok checked
      obtain ⟨content, source, found, isText, parsed⟩ := holds
      exact ⟨hashes, artifact,
        ⟨content, source, (same.entry_eq _).symm.trans found, isText, parsed⟩, instructions, noted⟩

/-- A file is passed over by `warmFile` if it has not the name of a program's file; otherwise its
program is loaded by the hash in the name and entered. -/
theorem warmFile_apply (root name : String) (cache : ProgramCache) (disk : Disk) :
    warmFile root name (cache, disk) =
      match Artifact.digitsOfName? name with
      | none => (.ok false, cache, disk)
      | some digits =>
        match ContentHash.ofHex digits with
        | .error _ => (.error (.invalidName name), cache, disk)
        | .ok hash =>
          match load root hash disk with
          | (.error error, after) => (.error error, cache, after)
          | (.ok none, after) => (.ok false, cache, after)
          | (.ok (some program), after) => (.ok true, (cache.insert program).2, after) := by
  unfold warmFile
  cases Artifact.digitsOfName? name with
  | none => rfl
  | some digits =>
    simp only
    cases ContentHash.ofHex digits with
    | error => rfl
    | ok hash =>
      simp only
      rw [bind_apply, besideCache]
      rcases load root hash disk with ⟨_ | _ | _, after⟩ <;> rfl

/-- The second state has the cache of the first with some programs entered. -/
def Enters (before after : ProgramCache × Disk) : Prop :=
  ∃ programs, after.1 = before.1.insertAll programs

theorem Enters.refl (state : ProgramCache × Disk) : Enters state state :=
  ⟨[], rfl⟩

theorem Enters.trans {first second third : ProgramCache × Disk} (left : Enters first second)
    (right : Enters second third) : Enters first third := by
  obtain ⟨entered, middle⟩ := left
  obtain ⟨others, last⟩ := right
  exact ⟨entered ++ others, by rw [last, middle, ProgramCache.insertAll_append]⟩

/-- One file enters by `warmFile` one program at most. -/
theorem warmFile_enters (root name : String) (state : ProgramCache × Disk) :
    Enters state (warmFile root name state).2 := by
  rw [warmFile_apply]
  split
  · exact .refl _
  · split
    · exact .refl _
    · split
      · exact ⟨[], rfl⟩
      · exact ⟨[], rfl⟩
      · next program _ _ => exact ⟨[program], rfl⟩

/-- The files of a directory that is there are loaded by `warm` one after another. -/
theorem warm_apply (root : String) (cache : ProgramCache) (disk : Disk) :
    warm root (cache, disk) =
      match Disk.pathExists (Artifact.directory root) disk with
      | (false, counted) => (.ok 0, cache, counted)
      | (true, counted) =>
        match Disk.list (Artifact.directory root) counted with
        | (.error error, after) =>
          (.error (.fileFailed (Artifact.directory root) error), cache, after)
        | (.ok names, after) =>
          match names.mapM (warmFile root) (cache, after) with
          | (.error error, last) => (.error error, last)
          | (.ok loaded, last) => (.ok (loaded.countP id), last) := by
  rw [warm, bind_apply, besideCache, look]
  rcases Disk.pathExists (Artifact.directory root) disk with ⟨_ | _, counted⟩
  · rfl
  · simp only [if_true]
    rw [bind_apply, besideCache, onFile]
    rcases Disk.list (Artifact.directory root) counted with ⟨_ | names, after⟩
    · rfl
    · simp only
      rw [bind_apply]
      rcases names.mapM (warmFile root) (cache, after) with ⟨_ | _, _⟩ <;> rfl

/-- To `warm` a cache, also where it fails, enters some programs one after another (`Enters`). -/
theorem warm_enters (root : String) (state : ProgramCache × Disk) :
    Enters state (warm root state).2 := by
  obtain ⟨cache, disk⟩ := state
  rw [warm_apply]
  rcases Disk.pathExists (Artifact.directory root) disk with ⟨_ | _, counted⟩
  · exact ⟨[], rfl⟩
  · simp only
    rcases Disk.list (Artifact.directory root) counted with ⟨_ | names, after⟩
    · exact ⟨[], rfl⟩
    · have entered : Enters (cache, after) (names.mapM (warmFile root) (cache, after)).2 :=
        mapM_reaches Enters Enters.refl Enters.trans (warmFile_enters root) names _
      simp only
      revert entered
      rcases names.mapM (warmFile root) (cache, after) with ⟨_ | _, _⟩ <;>
        exact fun entered => entered

/-- Without a fault to come `readArtifact` changes no files. -/
theorem readArtifact_disk_of_calm (calm : disk.fault = none) (path : String) :
    (readArtifact path disk).2 = disk := by
  have read := Disk.readText_disk_of_calm calm path
  rw [readArtifact, bind_apply, onFile]
  revert read
  rcases Disk.readText path disk with ⟨_ | source, after⟩
  · exact fun read => read
  · intro read
    simp only
    cases Artifact.parse? source <;> exact read

/-- Without a fault to come `load` changes no files. -/
theorem load_disk_of_calm (calm : disk.fault = none) (root : String) (hash : ContentHash) :
    (load root hash disk).2 = disk := by
  rw [load, bind_apply, look, Disk.pathExists_of_calm calm]
  cases (disk.entry (Artifact.path root hash)).isOk with
  | false => rfl
  | true =>
    have read := readArtifact_disk_of_calm calm (Artifact.path root hash)
    simp only [if_true]
    rw [bind_apply]
    revert read
    rcases readArtifact (Artifact.path root hash) disk with ⟨_ | artifact, after⟩
    · exact fun read => read
    · intro read
      simp only
      cases checkArtifact (Artifact.path root hash) hash artifact <;> exact read

/-- Without a fault to come `warm` changes no files. -/
theorem warm_disk_of_calm (calm : disk.fault = none) (root : String) (cache : ProgramCache) :
    (warm root (cache, disk)).2.2 = disk := by
  have each : ∀ name (state : ProgramCache × Disk), state.2.fault = none →
      (warmFile root name state).2.2 = state.2 := by
    rintro name ⟨cache, disk⟩ calm
    rw [warmFile_apply]
    split
    · rfl
    · split
      · rfl
      · next hash _ =>
        have loaded := load_disk_of_calm calm root hash
        revert loaded
        rcases load root hash disk with ⟨_ | _ | _, after⟩ <;> exact fun loaded => loaded
  have listed := Disk.list_disk_of_calm calm (Artifact.directory root)
  rw [warm_apply, Disk.pathExists_of_calm calm]
  cases (disk.entry (Artifact.directory root)).isOk with
  | false => rfl
  | true =>
    simp only
    revert listed
    rcases Disk.list (Artifact.directory root) disk with ⟨_ | names, after⟩
    · exact fun listed => listed
    · rintro rfl
      have all := mapM_reaches
        (fun before after : ProgramCache × Disk => before.2.fault = none → after.2 = before.2)
        (fun _ _ => rfl)
        (fun left right calm => (right ((left calm).symm ▸ calm)).trans (left calm))
        each names (cache, after) calm
      revert all
      simp only
      rcases names.mapM (warmFile root) (cache, after) with ⟨_ | _, _⟩ <;> exact fun all => all

end Storage

/-- A call that uses a `ProgramCache` or the files behind it. -/
inductive StoreCall where
  /-- The cache is used. -/
  | use (call : CacheCall)
  /-- All stored programs are loaded into the cache. -/
  | warm (root : String)
  /-- Somebody else changes the files. -/
  | tamper (change : Disk → Disk)

namespace StoreCall

/-- The workshop after a call, failed or not. -/
def perform (call : StoreCall) (workshop : Workshop) : Workshop :=
  match call with
  | .use call => (call.perform workshop).2
  | .warm root =>
    let (_, cache, disk) := Storage.warm root (workshop.cache, workshop.disk)
    ⟨cache, disk⟩
  | .tamper change => { workshop with disk := change workshop.disk }

/-- The workshop after some calls, failed or not. -/
def performAll (calls : List StoreCall) (workshop : Workshop) : Workshop :=
  calls.foldl (fun reached call => call.perform reached) workshop

/-- A `StoreCall` leaves a cache `Kept`. -/
theorem perform_kept (call : StoreCall) {workshop : Workshop} (kept : workshop.cache.Kept) :
    (call.perform workshop).cache.Kept := by
  cases call with
  | use call => exact (call.perform_step workshop).kept kept
  | warm root =>
    obtain ⟨programs, entered⟩ := Storage.warm_enters root (workshop.cache, workshop.disk)
    change (Storage.warm root (workshop.cache, workshop.disk)).2.1.Kept
    rw [entered]
    exact kept.insertAll programs
  | tamper => exact kept

/-- A `StoreCall` loses and replaces no entry. -/
theorem get?_perform_of_get? (call : StoreCall) {workshop : Workshop} {hash : ContentHash}
    {shared : SharedProgram} (found : workshop.cache.get? hash = some shared) :
    (call.perform workshop).cache.get? hash = some shared := by
  cases call with
  | use call => exact (call.perform_step workshop).get?_of_get? found
  | warm root =>
    obtain ⟨programs, entered⟩ := Storage.warm_enters root (workshop.cache, workshop.disk)
    change (Storage.warm root (workshop.cache, workshop.disk)).2.1.get? hash = some shared
    rw [entered]
    exact ProgramCache.get?_insertAll_of_get? programs found
  | tamper => exact found

/-- Any calls that `performAll` makes leave a cache `Kept`. -/
theorem performAll_kept (calls : List StoreCall) {workshop : Workshop}
    (kept : workshop.cache.Kept) : (performAll calls workshop).cache.Kept := by
  induction calls generalizing workshop with
  | nil => exact kept
  | cons call rest inductionHypothesis => exact inductionHypothesis (call.perform_kept kept)

/-- No calls that `performAll` makes lose or replace an entry. -/
theorem get?_performAll_of_get? (calls : List StoreCall) {workshop : Workshop}
    {hash : ContentHash} {shared : SharedProgram}
    (found : workshop.cache.get? hash = some shared) :
    (performAll calls workshop).cache.get? hash = some shared := by
  induction calls generalizing workshop with
  | nil => exact found
  | cons call rest inductionHypothesis =>
    exact inductionHypothesis (call.get?_perform_of_get? found)

/-- Whatever the files hold, a program that `Storage.load` loads under a hash is balanced and has
this hash, which is that of its lowered form; its file holds its instructions and notes down the
hash. And after any calls that use a cache or load all programs into it, failed ones included, with
the files changed by others in between, every entry has the hash of its own lowered form as its key,
and what was there before is still there. -/
theorem load_and_history (disk : Disk) (calls : List StoreCall) :
    (∀ root hash program after, Storage.load root hash disk = (.ok (some program), after) →
      (∃ routine : Routine, program.instructions.toList = routine.flatten) ∧
      program.hash = hash ∧ hash = ContentHash.ofText program.lowered ∧
      ∃ artifact, Storage.Holds disk (Artifact.path root hash) artifact ∧
        artifact.instructions = program.instructions.toList ∧ artifact.hash = hash) ∧
    (performAll calls (.ofDisk disk)).cache.Kept ∧
    ∀ later hash shared, (performAll calls (.ofDisk disk)).cache.get? hash = some shared →
      (performAll later (performAll calls (.ofDisk disk))).cache.get? hash = some shared := by
  refine ⟨?_, performAll_kept calls ProgramCache.Kept.empty, fun later _ _ =>
    get?_performAll_of_get? later⟩
  intro root hash program after loaded
  obtain ⟨rfl, file⟩ := Storage.load_eq_ok loaded
  exact ⟨program.exists_routine, rfl, program.hash_eq, file⟩

end StoreCall

end Mustache
