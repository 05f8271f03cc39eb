import Mustache.Proofs.Compile.Alone
import Mustache.Proofs.Program.Lowered
import Mustache.Proofs.Render.MemoryTemplates

/-!
# Histories of a cache

One cache may be used by many compilers, with hooks that turn programs down, and be filled with
programs from elsewhere. `CacheCall.Step` says all that a single call can do: leave the cache as
it is, or enter one program under its own hash. `CacheCall.perform_step` shows that no call does
anything else, and what holds of a cache after any calls is derived from that alone.
-/

namespace Mustache

/-- The hash under which instructions are looked up, that of their `lowered` form. -/
def Instruction.hash (instructions : List Instruction) : ContentHash :=
  ContentHash.ofText (lowered instructions)

/-- The `Program.hash` of a program is the `Instruction.hash` of its instructions. -/
theorem Program.hash_eq_hash (program : Program) :
    program.hash = Instruction.hash program.instructions.toList :=
  program.hash_eq

/-- A call that uses a `ProgramCache`. -/
inductive CacheCall where
  /-- A compiler compiles a template. -/
  | compile (compiler : Compiler) (source : String)
  /-- Instructions are looked up; their program, if it has to be built, is shown to a hook. -/
  | lookup (onBuild : Program → ExceptT CompileError (StateM Disk) Unit)
      (instructions : List Instruction)
  /-- A program from elsewhere is entered. -/
  | insert (program : Program)

namespace CacheCall

/-- The answer to a call, and the workshop after it. -/
def perform (call : CacheCall) (workshop : Workshop) :
    Except CompileError SharedProgram × Workshop :=
  match call with
  | .compile compiler source =>
    let (result, after) := compiler.compile source workshop
    (result.map (·.shared), after)
  | .lookup onBuild instructions =>
    let (result, cache, disk) :=
      ProgramCache.lookupOrBuildWith onBuild instructions (workshop.cache, workshop.disk)
    (result.map (·.1), ⟨cache, disk⟩)
  | .insert program =>
    let (shared, cache) := workshop.cache.insert program
    (.ok shared, { workshop with cache := cache })

/-- The workshop after some calls. -/
def performAll (calls : List CacheCall) (workshop : Workshop) : Workshop :=
  calls.foldl (fun reached call => (call.perform reached).2) workshop

/-- The instructions that a call is about, if it comes to them. -/
def instructions? : CacheCall → Option (List Instruction)
  | .compile compiler source =>
    (Template.parse compiler.delimiters source).toOption.map fun template =>
      Instruction.ofNodes template.nodes
  | .lookup _ instructions => some instructions
  | .insert program => some program.instructions.toList

/-- Whether a program that the call enters is built for the cache. -/
def isBuild : CacheCall → Bool
  | .compile _ _ | .lookup _ _ => true
  | .insert _ => false

/-- What a `CacheCall` does to a cache, and its answer. -/
inductive Step (call : CacheCall) (before after : ProgramCache) :
    Except CompileError SharedProgram → Prop where
  /-- The program is there. -/
  | found {instructions : List Instruction} {shared : SharedProgram}
      (about : call.instructions? = some instructions)
      (known : before.get? (Instruction.hash instructions) = some shared)
      (same : after = before) : Step call before after (.ok shared)
  /-- The program is not there and cannot be entered. -/
  | failed {error : CompileError}
      (unknown : ∀ instructions, call.instructions? = some instructions →
        before.get? (Instruction.hash instructions) = none)
      (same : after = before) : Step call before after (.error error)
  /-- The program is entered under its hash, as a new instance after all others. -/
  | entered {shared : SharedProgram}
      (about : call.instructions? = some shared.program.instructions.toList)
      (free : before.get? shared.program.hash = none)
      (serial : shared.serial = before.size)
      (entries : after.entries = before.entries ++ [(shared.program.hash, shared)])
      (builds : after.builds = before.builds + if call.isBuild then 1 else 0) :
      Step call before after (.ok shared)

/-- Looking up instructions is a step. -/
theorem lookupOrBuildWith_step {call : CacheCall} {instructions : List Instruction}
    (about : call.instructions? = some instructions) (isBuild : call.isBuild = true)
    (onBuild : Program → ExceptT CompileError (StateM Disk) Unit) (cache : ProgramCache)
    (disk : Disk) :
    Step call cache
      (ProgramCache.lookupOrBuildWith onBuild instructions (cache, disk)).2.1
      ((ProgramCache.lookupOrBuildWith onBuild instructions (cache, disk)).1.map (·.1)) := by
  unfold ProgramCache.lookupOrBuildWith
  rw [← Instruction.hash]
  simp only
  cases known : cache.get? (Instruction.hash instructions) with
  | some shared => exact .found about known rfl
  | none =>
    have unknown : ∀ others, call.instructions? = some others →
        cache.get? (Instruction.hash others) = none := by
      intro others same
      cases about.symm.trans same
      exact known
    cases built : Program.ofInstructions instructions with
    | error error => exact .failed unknown rfl
    | ok program =>
      have same : program.instructions.toList = instructions :=
        Program.toList_instructions_of_make (by rw [Program.make, built]; rfl)
      simp only
      rcases onBuild program disk with ⟨_ | _, outside⟩
      · exact .failed unknown rfl
      · refine .entered ?_ ?_ rfl rfl ?_
        · rw [about, ← same]
          rfl
        · change cache.get? program.hash = none
          rw [Program.hash_eq_hash, same]
          exact known
        · rw [isBuild]
          rfl

/-- No `CacheCall` does anything but a `Step`. -/
theorem perform_step (call : CacheCall) (workshop : Workshop) :
    Step call workshop.cache (call.perform workshop).2.cache (call.perform workshop).1 := by
  cases call with
  | compile compiler source =>
    cases parsed : Template.parse compiler.delimiters source with
    | error error =>
      simp only [perform, Compiler.compile, parsed]
      refine .failed ?_ rfl
      intro instructions about
      rw [instructions?, parsed] at about
      cases about
    | ok template =>
      have about : (CacheCall.compile compiler source).instructions? =
          some (Instruction.ofNodes template.nodes) := by
        rw [instructions?, parsed]
        rfl
      have step := lookupOrBuildWith_step about rfl compiler.dump workshop.cache workshop.disk
      simp only [perform, Compiler.compile, parsed]
      revert step
      rcases ProgramCache.lookupOrBuildWith compiler.dump (Instruction.ofNodes template.nodes)
        (workshop.cache, workshop.disk) with ⟨_ | _, cache, disk⟩
      · exact fun step => step
      · exact fun step => step
  | lookup onBuild instructions =>
    exact lookupOrBuildWith_step rfl rfl onBuild workshop.cache workshop.disk
  | insert program =>
    cases known : workshop.cache.get? program.hash with
    | some shared =>
      simp only [perform, ProgramCache.insert, known]
      refine .found rfl ?_ rfl
      rw [← Program.hash_eq_hash]
      exact known
    | none =>
      simp only [perform, ProgramCache.insert, known]
      exact .entered rfl known rfl rfl rfl

/-- The lowered forms of the instructions that some calls are about do not collide. -/
def Apart (calls : List CacheCall) : Prop :=
  ∀ left ∈ calls, ∀ right ∈ calls, ∀ leftInstructions rightInstructions,
    left.instructions? = some leftInstructions → right.instructions? = some rightInstructions →
    ¬ Sha256.Collide (Instruction.lowered leftInstructions).toByteArray
      (Instruction.lowered rightInstructions).toByteArray

/-- The hash of the program in an answer, if the counter rose. -/
def builtHash? (before after : ProgramCache) (result : Except CompileError SharedProgram) :
    Option ContentHash :=
  if after.builds = before.builds then none else result.toOption.map (·.program.hash)

/-- The hashes of the programs that were built in some calls, in order. -/
def builtHashes : List CacheCall → Workshop → List ContentHash
  | [], _ => []
  | call :: rest, workshop =>
    let (result, after) := call.perform workshop
    (builtHash? workshop.cache after.cache result).toList ++ builtHashes rest after

end CacheCall

/-- What holds of every cache that has come about by `CacheCall`s. -/
structure ProgramCache.Kept (cache : ProgramCache) : Prop where
  /-- Every entry has the hash of its own lowered form as its key. -/
  keyed : ∀ hash shared, (hash, shared) ∈ cache.entries →
    hash = ContentHash.ofText shared.program.lowered
  /-- No two entries have the same key. -/
  distinct : (cache.entries.map (·.1)).Nodup
  /-- The instances are numbered in the order in which they came. -/
  numbered : cache.programs.map (·.serial) = List.range cache.size

namespace ProgramCache

/-- A cache without entries is kept. -/
theorem Kept.empty : ProgramCache.empty.Kept :=
  ⟨fun _ _ member => (List.not_mem_nil member).elim, List.nodup_nil, rfl⟩

/-- What `get?` finds in a cache that is `Kept` has the hash under which it is found. -/
theorem Kept.hash_of_get? {cache : ProgramCache} (kept : cache.Kept) {hash : ContentHash}
    {shared : SharedProgram} (found : cache.get? hash = some shared) :
    shared.program.hash = hash := by
  rw [kept.keyed hash shared (mem_entries_of_get? found), shared.program.hash_eq, Program.lowered]

/-- Where `get?` finds nothing there is no such key. -/
theorem notMem_keys_of_get?_eq_none {cache : ProgramCache} {hash : ContentHash}
    (free : cache.get? hash = none) : hash ∉ cache.entries.map (·.1) := by
  intro member
  obtain ⟨entry, entryMember, rfl⟩ := List.mem_map.1 member
  have differs := List.lookup_eq_none_iff.1 free entry entryMember
  simp at differs

end ProgramCache

namespace CacheCall

section Step

variable {call : CacheCall} {before after : ProgramCache}
  {result : Except CompileError SharedProgram}

/-- A `Step` loses no entry and replaces none. -/
theorem Step.get?_of_get? (step : Step call before after result) {hash : ContentHash}
    {shared : SharedProgram} (found : before.get? hash = some shared) :
    after.get? hash = some shared := by
  cases step with
  | found _ _ same | failed _ same => exact same ▸ found
  | entered _ _ _ entries _ =>
    rw [ProgramCache.get?] at found ⊢
    rw [entries, List.lookup_append, found, Option.some_or]

/-- A `Step` leaves a cache `Kept`. -/
theorem Step.kept (step : Step call before after result) (kept : before.Kept) : after.Kept := by
  cases step with
  | found _ _ same | failed _ same => exact same ▸ kept
  | @entered newcomer _ free serial entries _ =>
    refine ⟨?_, ?_, ?_⟩
    · intro hash shared member
      rw [entries] at member
      rcases List.mem_append.1 member with old | new
      · exact kept.keyed hash shared old
      · cases List.mem_singleton.1 new
        rw [newcomer.program.hash_eq, Program.lowered]
    · rw [entries, List.map_append, List.nodup_append]
      refine ⟨kept.distinct, List.pairwise_singleton _ _, ?_⟩
      rintro old oldMember new newMember rfl
      cases List.mem_singleton.1 newMember
      exact ProgramCache.notMem_keys_of_get?_eq_none free oldMember
    · have numbered := kept.numbered
      rw [ProgramCache.programs, ProgramCache.size] at numbered ⊢
      rw [entries, List.map_append, List.map_append, numbered, List.length_append,
        List.length_singleton, List.range_succ]
      simp [serial, ProgramCache.size]

/-- The keys after a `Step` are those before it and perhaps one more, whose program is built
(`builtHash?`) exactly if the counter rises. -/
theorem Step.exists_keys (step : Step call before after result) :
    ∃ added, after.entries.map (·.1) = before.entries.map (·.1) ++ added ∧
      (builtHash? before after result).toList.Sublist added ∧
      after.builds = before.builds + (builtHash? before after result).toList.length := by
  cases step with
  | found _ _ same | failed _ same =>
    subst same
    exact ⟨[], by simp, by simp [builtHash?], by simp [builtHash?]⟩
  | @entered newcomer _ _ _ entries builds =>
    refine ⟨[newcomer.program.hash], ?_, ?_, ?_⟩
    · rw [entries, List.map_append]
      rfl
    · rw [builtHash?]
      split
      · exact List.nil_sublist _
      · exact List.Sublist.refl _
    · rw [builtHash?, builds]
      cases call.isBuild <;> simp [Except.toOption]

/-- The counter `builds` rises in the calls that build a program and enter it, and in no others. -/
theorem Step.builds_eq (step : Step call before after result) :
    after.builds =
      before.builds + if call.isBuild = true ∧ before.size < after.size then 1 else 0 := by
  cases step with
  | found _ _ same | failed _ same =>
    subst same
    simp
  | entered _ _ _ entries builds =>
    rw [builds]
    simp [ProgramCache.size, entries]

/-- An entry that is there after a `Step` was there or is what the call is about. -/
theorem Step.mem_or_about (step : Step call before after result)
    {entry : ContentHash × SharedProgram} (member : entry ∈ after.entries) :
    entry ∈ before.entries ∨
      call.instructions? = some entry.2.program.instructions.toList := by
  cases step with
  | found _ _ same | failed _ same => exact .inl (same ▸ member)
  | entered about _ _ entries _ =>
    rw [entries] at member
    rcases List.mem_append.1 member with old | new
    · exact .inl old
    · cases List.mem_singleton.1 new
      exact .inr about

/-- What `get?` knows is the answer of a `Step` about it. -/
theorem Step.result_of_get? (step : Step call before after result)
    {instructions : List Instruction} (about : call.instructions? = some instructions)
    {shared : SharedProgram} (known : before.get? (Instruction.hash instructions) = some shared) :
    result = .ok shared := by
  cases step with
  | found otherAbout otherKnown _ =>
    cases about.symm.trans otherAbout
    cases known.symm.trans otherKnown
    rfl
  | failed unknown _ => cases (unknown _ about).symm.trans known
  | entered otherAbout free _ _ _ =>
    cases about.symm.trans otherAbout
    rw [Program.hash_eq_hash] at free
    cases free.symm.trans known

/-- What a `Step` answers is an entry of the cache after it. -/
theorem Step.get?_of_result (step : Step call before after result) (kept : before.Kept)
    {shared : SharedProgram} (answered : result = .ok shared) :
    after.get? shared.program.hash = some shared := by
  cases step with
  | found _ known same =>
    cases answered
    rw [kept.hash_of_get? known, same, known]
  | failed => cases answered
  | entered _ free _ entries _ =>
    cases answered
    rw [ProgramCache.get?] at free ⊢
    rw [entries, List.lookup_append, free, Option.none_or, List.lookup_cons_self]

/-- What a `Step` answers is the entry under the hash of what the call is about. -/
theorem Step.get?_of_about (step : Step call before after result)
    {instructions : List Instruction} (about : call.instructions? = some instructions)
    {shared : SharedProgram} (answered : result = .ok shared) :
    after.get? (Instruction.hash instructions) = some shared := by
  cases step with
  | found otherAbout known same =>
    cases answered
    cases about.symm.trans otherAbout
    rw [same, known]
  | failed => cases answered
  | entered otherAbout free _ entries _ =>
    cases answered
    cases about.symm.trans otherAbout
    rw [ProgramCache.get?] at free
    rw [← Program.hash_eq_hash, ProgramCache.get?, entries, List.lookup_append, free,
      Option.none_or, List.lookup_cons_self]

/-- What `get?` finds after a `Step` was found before it or is what the call is about. -/
theorem Step.get?_or_about (step : Step call before after result) {hash : ContentHash}
    {shared : SharedProgram} (found : after.get? hash = some shared) :
    before.get? hash = some shared ∨
      call.instructions? = some shared.program.instructions.toList := by
  cases step with
  | found _ _ same | failed _ same => exact .inl (same ▸ found)
  | entered about _ _ entries _ =>
    rw [ProgramCache.get?, entries, List.lookup_append, Option.or_eq_some_iff] at found
    rcases found with old | ⟨_, new⟩
    · exact .inl old
    · rw [List.lookup_cons] at new
      split at new
      · cases new
        exact .inr about
      · cases new

/-- A `Step` that fails leaves the cache as it is. -/
theorem Step.eq_of_error (step : Step call before after result) {error : CompileError}
    (failed : result = .error error) : after = before := by
  cases step with
  | failed _ same => exact same
  | found | entered => cases failed

/-- The answer of a `Step` has the instructions that the call is about, unless these collide with
those of an entry. -/
theorem Step.instructions_of_result (step : Step call before after result) (kept : before.Kept)
    {instructions : List Instruction} (about : call.instructions? = some instructions)
    (apart : ∀ hash shared, (hash, shared) ∈ before.entries →
      ¬ Sha256.Collide shared.program.lowered.toByteArray
        (Instruction.lowered instructions).toByteArray)
    {shared : SharedProgram} (answered : result = .ok shared) :
    shared.program.instructions.toList = instructions := by
  cases step with
  | found otherAbout known _ =>
    cases answered
    cases about.symm.trans otherAbout
    have sameHash := kept.hash_of_get? known
    rw [shared.program.hash_eq, Instruction.hash, ContentHash.ofText_eq_ofText_iff] at sameHash
    exact Instruction.lowered_inj
      (sameHash.resolve_right (apart _ shared (ProgramCache.mem_entries_of_get? known)))
  | failed => cases answered
  | entered otherAbout _ _ _ _ =>
    cases answered
    cases about.symm.trans otherAbout
    rfl

end Step

section Run

/-- No calls lose or replace an entry: what `get?` finds it finds after `performAll`. -/
theorem performAll_get?_of_get? (calls : List CacheCall) {workshop : Workshop}
    {hash : ContentHash} {shared : SharedProgram}
    (found : workshop.cache.get? hash = some shared) :
    (performAll calls workshop).cache.get? hash = some shared := by
  induction calls generalizing workshop with
  | nil => exact found
  | cons call rest inductionHypothesis =>
    exact inductionHypothesis ((call.perform_step workshop).get?_of_get? found)

/-- Any calls leave a cache `Kept`. -/
theorem performAll_kept (calls : List CacheCall) {workshop : Workshop}
    (kept : workshop.cache.Kept) : (performAll calls workshop).cache.Kept := by
  induction calls generalizing workshop with
  | nil => exact kept
  | cons call rest inductionHypothesis =>
    exact inductionHypothesis ((call.perform_step workshop).kept kept)

/-- The programs that are built in some calls (`builtHashes`) are entered one after another, and the
counter counts them. -/
theorem exists_keys_performAll (calls : List CacheCall) (workshop : Workshop) :
    ∃ added, (performAll calls workshop).cache.entries.map (·.1) =
        workshop.cache.entries.map (·.1) ++ added ∧
      (builtHashes calls workshop).Sublist added ∧
      (performAll calls workshop).cache.builds =
        workshop.cache.builds + (builtHashes calls workshop).length := by
  induction calls generalizing workshop with
  | nil => exact ⟨[], by simp [performAll], by simp [builtHashes], by simp [performAll, builtHashes]⟩
  | cons call rest inductionHypothesis =>
    obtain ⟨first, firstKeys, firstBuilt, firstCount⟩ := (call.perform_step workshop).exists_keys
    obtain ⟨added, keys, built, count⟩ := inductionHypothesis (call.perform workshop).2
    refine ⟨first ++ added, ?_, ?_, ?_⟩
    · rw [← List.append_assoc, ← firstKeys]
      exact keys
    · exact firstBuilt.append built
    · rw [builtHashes, List.length_append, ← Nat.add_assoc, ← firstCount]
      exact count

/-- An entry that is there after `performAll` was there or is what one of the calls was about. -/
theorem mem_or_exists_about (calls : List CacheCall) {workshop : Workshop}
    {entry : ContentHash × SharedProgram}
    (member : entry ∈ (performAll calls workshop).cache.entries) :
    entry ∈ workshop.cache.entries ∨
      ∃ call ∈ calls, call.instructions? = some entry.2.program.instructions.toList := by
  induction calls generalizing workshop with
  | nil => exact .inl member
  | cons call rest inductionHypothesis =>
    rcases inductionHypothesis member with old | ⟨other, otherMember, about⟩
    · rcases (call.perform_step workshop).mem_or_about old with older | about
      · exact .inl older
      · exact .inr ⟨call, List.mem_cons_self, about⟩
    · exact .inr ⟨other, List.mem_cons_of_mem _ otherMember, about⟩

end Run

/-- After any calls on an empty cache an answer is what `Program.make` makes of the instructions
that the call is about, if the lowered forms that the calls are about do not collide. -/
theorem make_of_perform {calls : List CacheCall} {call : CacheCall}
    (apart : Apart (calls ++ [call])) {disk : Disk} {instructions : List Instruction}
    (about : call.instructions? = some instructions) {shared : SharedProgram}
    (answered : (call.perform (performAll calls (.ofDisk disk))).1 = .ok shared) :
    Program.make instructions = .ok shared.program := by
  have same : shared.program.instructions.toList = instructions := by
    refine (call.perform_step _).instructions_of_result
      (performAll_kept calls ProgramCache.Kept.empty) about ?_ answered
    intro hash entry member
    rcases mem_or_exists_about calls member with old | ⟨other, otherMember, otherAbout⟩
    · exact (List.not_mem_nil old).elim
    · exact apart other (List.mem_append_left _ otherMember) call
        (List.mem_append_right _ List.mem_cons_self) _ _ otherAbout about
  rw [← same]
  exact Program.make_toList_instructions shared.program

/-- A template that a call `compile` has compiled has been read by `Template.parse`. -/
theorem exists_about_of_compile {compiler : Compiler} {source : String} {workshop : Workshop}
    {shared : SharedProgram}
    (answered : ((compile compiler source).perform workshop).1 = .ok shared) :
    ∃ template, Template.parse compiler.delimiters source = .ok template ∧
      (compile compiler source).instructions? = some (Instruction.ofNodes template.nodes) := by
  cases parsed : Template.parse compiler.delimiters source with
  | error =>
    simp only [perform, Compiler.compile, parsed] at answered
    cases answered
  | ok template =>
    refine ⟨template, rfl, ?_⟩
    rw [instructions?, parsed]
    rfl

/-- What any `CacheCall`s make of an empty cache. Every entry has the hash of its own lowered form
as its key and stays, as the same instance, the answer to all that is asked under this hash. The
counter rises by one in the calls that build a program and enter it, for no hash twice, and a call
that fails changes nothing. A template that compiles gets its own program, if no lowered forms
collide. -/
theorem cache_history (disk : Disk) (calls : List CacheCall) :
    let workshop := performAll calls (.ofDisk disk)
    workshop.cache.Kept ∧
    (∀ (call : CacheCall) shared, (call.perform workshop).1 = .ok shared →
      (call.perform workshop).2.cache.get? shared.program.hash = some shared) ∧
    (∀ hash shared, workshop.cache.get? hash = some shared → ∀ later,
      (performAll later workshop).cache.get? hash = some shared ∧
      ∀ (call : CacheCall) instructions, call.instructions? = some instructions →
        ContentHash.ofText (Instruction.lowered instructions) = hash →
        (call.perform (performAll later workshop)).1 = .ok shared) ∧
    (∀ call : CacheCall, (call.perform workshop).2.cache.builds = workshop.cache.builds +
      if call.isBuild = true ∧ workshop.cache.size < (call.perform workshop).2.cache.size
      then 1 else 0) ∧
    (builtHashes calls (.ofDisk disk)).Nodup ∧
    workshop.cache.builds = (builtHashes calls (.ofDisk disk)).length ∧
    (∀ (call : CacheCall) error, (call.perform workshop).1 = .error error →
      (call.perform workshop).2.cache = workshop.cache) ∧
    (∀ compiler source shared, Apart (calls ++ [compile compiler source]) →
      ((compile compiler source).perform workshop).1 = .ok shared →
      compiler.programOf source = .ok shared.program) := by
  intro workshop
  have kept : workshop.cache.Kept := performAll_kept calls ProgramCache.Kept.empty
  obtain ⟨added, keys, built, count⟩ := exists_keys_performAll calls (.ofDisk disk)
  have addedAll : workshop.cache.entries.map (·.1) = added := keys
  refine ⟨kept, ?_, ?_, ?_, ?_, ?_, ?_, ?_⟩
  · intro call shared answered
    exact (call.perform_step workshop).get?_of_result kept answered
  · intro hash shared found later
    have stays := performAll_get?_of_get? later found
    refine ⟨stays, ?_⟩
    rintro call instructions about rfl
    exact (call.perform_step _).result_of_get? about stays
  · exact fun call => (call.perform_step workshop).builds_eq
  · exact built.nodup (addedAll ▸ kept.distinct)
  · exact count.trans (Nat.zero_add _)
  · exact fun call error failed => (call.perform_step workshop).eq_of_error failed
  · intro compiler source shared apart answered
    obtain ⟨template, parsed, about⟩ := exists_about_of_compile answered
    rw [Compiler.programOf, parsed]
    exact make_of_perform apart about answered

/-- A hook turns a program down, a compiler builds it, and a compiler with other markers is given
the same instance for its own template. -/
theorem cache_history_other_delimiters :
    let refused := lookup (fun _ => throw (.rejected "no")) [.interpolation "a" true]
    let first := compile {} "\x7b\x7ba\x7d\x7d"
    let others : Compiler :=
      { delimiters := ⟨"<%", "%>", by decide +kernel, by decide +kernel⟩ }
    let second := compile others "<%a%>"
    ∃ shared : SharedProgram,
      (first.perform (performAll [refused] (.ofDisk default))).1 = .ok shared ∧
      Apart ([refused, first] ++ [second]) ∧
      (second.perform (performAll [refused, first] (.ofDisk default))).1 = .ok shared ∧
      others.programOf "<%a%>" = .ok shared.program := by
  intro refused first others second
  have unchanged : performAll [refused] (.ofDisk default) = .ofDisk default := rfl
  have firstAbout : first.instructions? = some [.interpolation "a" true] := by decide +kernel
  have secondAbout : second.instructions? = some [.interpolation "a" true] := by decide +kernel
  have apart : Apart ([refused, first] ++ [second]) := by
    intro left leftMember right rightMember leftInstructions rightInstructions leftAbout rightAbout
    have only : ∀ call ∈ [refused, first] ++ [second],
        call.instructions? = some [.interpolation "a" true] := by
      have refusedAbout : refused.instructions? = some [.interpolation "a" true] := rfl
      simp [refusedAbout, firstAbout, secondAbout]
    cases (only left leftMember).symm.trans leftAbout
    cases (only right rightMember).symm.trans rightAbout
    exact fun collide => collide.1 rfl
  obtain ⟨compiled, compiles, same, _⟩ :=
    Compiler.exists_compileAlone (show ({} : Compiler).dumpDirectory = none from rfl) default
      (show (Template.parse .standard "\x7b\x7ba\x7d\x7d").toOption.map (fun template =>
        (Instruction.ofNodes template.nodes, template.warnings)) =
          some ([.interpolation "a" true], []) by decide +kernel)
  have firstAnswer : (first.perform (performAll [refused] (.ofDisk default))).1 =
      .ok compiled.shared := by
    rw [unchanged]
    exact congrArg (Except.map (·.shared)) compiles
  have registered := (cache_history default [refused]).2.1 first compiled.shared firstAnswer
  have history := cache_history default [refused, first]
  have sameHash : ContentHash.ofText (Instruction.lowered [.interpolation "a" true]) =
      compiled.shared.program.hash := by
    rw [← same, ← Program.lowered, compiled.shared.program.hash_eq, Program.lowered]
  have secondAnswer := (history.2.2.1 _ _ registered []).2 second _ secondAbout sameHash
  exact ⟨compiled.shared, firstAnswer, apart, secondAnswer,
    history.2.2.2.2.2.2.2 others "<%a%>" compiled.shared apart secondAnswer⟩

end CacheCall

end Mustache
