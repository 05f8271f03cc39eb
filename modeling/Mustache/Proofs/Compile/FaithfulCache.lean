import Mustache.Compile.Compiler
import Mustache.Proofs.Program.Lowered
import Mustache.Proofs.Program.Lowering

/-!
# Faithful caches

A cache may hold programs that were built for somebody else. It is faithful to some sequences of
instructions if what it holds under the hash of one of them has these instructions; then a
template with such instructions compiles to the program that an empty cache would give it, and the
cache stays faithful (`compile_of_faithfulTo`). A cache in which every program is under its own
hash is faithful to whatever does not collide with it.
-/

namespace Mustache

namespace Instruction

/-- No `lowered` form of the first sequences of instructions collides with one of the second. -/
def Apart (left right : List Instruction → Prop) : Prop :=
  ∀ first, left first → ∀ second, right second →
    ¬ Sha256.Collide (lowered first).toByteArray (lowered second).toByteArray

/-- Instructions with the same hash are the same, unless their lowered forms collide
(`Sha256.Collide`). -/
theorem eq_of_hash_eq {first second : List Instruction}
    (same : ContentHash.ofText (lowered first) = ContentHash.ofText (lowered second))
    (apart : ¬ Sha256.Collide (lowered first).toByteArray (lowered second).toByteArray) :
    first = second :=
  lowered_inj (((ContentHash.ofText_eq_ofText_iff _ _).1 same).resolve_right apart)

end Instruction

namespace ProgramCache

variable {forms : List Instruction → Prop} {cache : ProgramCache}

/-- What the cache holds under the hash of some instructions has these instructions. -/
def FaithfulTo (forms : List Instruction → Prop) (cache : ProgramCache) : Prop :=
  ∀ instructions, forms instructions → ∀ shared,
    cache.get? (ContentHash.ofText (Instruction.lowered instructions)) = some shared →
    shared.program.instructions.toList = instructions

/-- What `get?` finds under a hash is in the cache under this hash. -/
theorem mem_entries_of_get? {hash : ContentHash} {shared : SharedProgram}
    (found : cache.get? hash = some shared) : (hash, shared) ∈ cache.entries := by
  obtain ⟨before, after, split, _⟩ := List.lookup_eq_some_iff.1 found
  rw [split]
  exact List.mem_append_right before List.mem_cons_self

/-- What `get?` finds is among the `programs` of the cache. -/
theorem mem_programs_of_get? {hash : ContentHash} {shared : SharedProgram}
    (found : cache.get? hash = some shared) : shared ∈ cache.programs :=
  List.mem_map_of_mem (mem_entries_of_get? found)

/-- The cache `ProgramCache.empty` is faithful to everything. -/
theorem FaithfulTo.empty : ProgramCache.empty.FaithfulTo forms :=
  fun _ _ _ found => nomatch found

/-- A cache that has every program under its own hash is `FaithfulTo` what does not collide with its
programs. -/
theorem FaithfulTo.of_keyed
    (keyed : ∀ hash shared, cache.get? hash = some shared → shared.program.hash = hash)
    (apart : Instruction.Apart forms fun instructions => ∃ shared ∈ cache.programs,
      shared.program.instructions.toList = instructions) :
    cache.FaithfulTo forms := by
  intro instructions formed shared found
  have sameHash := keyed _ shared found
  rw [shared.program.hash_eq] at sameHash
  exact (Instruction.eq_of_hash_eq sameHash.symm
    (apart instructions formed _ ⟨shared, mem_programs_of_get? found, rfl⟩)).symm

/-- A cache stays `FaithfulTo` some instructions when `register` enters the program of some of them.
-/
theorem FaithfulTo.register (apart : Instruction.Apart forms forms)
    (faithful : cache.FaithfulTo forms) {program : Program}
    (formed : forms program.instructions.toList) :
    (cache.register program.hash program).2.FaithfulTo forms := by
  intro instructions otherFormed shared found
  simp only [ProgramCache.register, ProgramCache.get?, List.lookup_append] at found
  cases before : cache.entries.lookup (ContentHash.ofText (Instruction.lowered instructions)) with
  | some earlier =>
    rw [before, Option.some_or] at found
    exact faithful instructions otherFormed shared (found ▸ before)
  | none =>
    rw [before, Option.none_or, List.lookup_cons] at found
    split at found
    · next sameHash =>
      cases found
      have hashes := eq_of_beq sameHash
      rw [program.hash_eq] at hashes
      exact (Instruction.eq_of_hash_eq hashes (apart _ otherFormed _ formed)).symm
    · cases found

end ProgramCache

namespace Compiler

variable {compiler : Compiler} {forms : List Instruction → Prop}

/-- A text that is no template does not compile by `Compiler.compile`, and nothing changes. -/
theorem compile_of_parse_error {source : String} {error : StructuralError}
    (unread : Template.parse compiler.delimiters source = .error error) (workshop : Workshop) :
    compiler.compile source workshop = (.error (.malformed error), workshop) := by
  rw [compile, unread]

/-- A template whose program is in the cache is answered from there by `Compiler.compile`, and
nothing changes. -/
theorem compile_of_known {source : String} {template : Template} {shared : SharedProgram}
    {workshop : Workshop} (parsed : Template.parse compiler.delimiters source = .ok template)
    (known : workshop.cache.get? (ContentHash.ofText
      (Instruction.lowered (Instruction.ofNodes template.nodes))) = some shared) :
    compiler.compile source workshop = (.ok ⟨shared, template.warnings⟩, workshop) := by
  unfold compile
  simp only [parsed, ProgramCache.lookupOrBuildWith, known]

/-- With a cache that is `FaithfulTo` them, a template with some instructions compiles to their
program, and nothing but the cache changes, which stays faithful. -/
theorem compile_of_faithfulTo (silent : compiler.dumpDirectory = none)
    (apart : Instruction.Apart forms forms) {source : String} {template : Template}
    (parsed : Template.parse compiler.delimiters source = .ok template)
    (formed : forms (Instruction.ofNodes template.nodes)) (workshop : Workshop)
    (faithful : workshop.cache.FaithfulTo forms) :
    ∃ shared cache, compiler.compile source workshop =
        (.ok ⟨shared, template.warnings⟩, ⟨cache, workshop.disk⟩) ∧
      Program.make (Instruction.ofNodes template.nodes) = .ok shared.program ∧
      cache.FaithfulTo forms := by
  unfold compile
  simp only [parsed, ProgramCache.lookupOrBuildWith]
  cases known : workshop.cache.get? (ContentHash.ofText
      (Instruction.lowered (Instruction.ofNodes template.nodes))) with
  | some shared =>
    refine ⟨shared, workshop.cache, rfl, ?_, faithful⟩
    rw [← faithful _ formed shared known]
    exact Program.make_toList_instructions shared.program
  | none =>
    obtain ⟨program, made, same⟩ := Program.exists_make_ofNodes template.nodes
    simp only [Program.ofInstructions_of_make made, dump, silent]
    exact ⟨_, _, rfl, made, faithful.register apart (same ▸ formed)⟩

/-- A compiler that writes no text forms answers `Compiler.compile` from the cache and the
template's text, whatever the files are, and leaves them alone. -/
theorem exists_compile_eq (silent : compiler.dumpDirectory = none) (source : String)
    (cache : ProgramCache) :
    ∃ result made, ∀ disk, compiler.compile source ⟨cache, disk⟩ = (result, ⟨made, disk⟩) := by
  unfold compile
  cases Template.parse compiler.delimiters source with
  | error error => exact ⟨_, _, fun _ => rfl⟩
  | ok template =>
    simp only [ProgramCache.lookupOrBuildWith]
    cases cache.get? (ContentHash.ofText (Instruction.lowered (Instruction.ofNodes template.nodes)))
      with
    | some shared => exact ⟨_, _, fun _ => rfl⟩
    | none =>
      cases Program.ofInstructions (Instruction.ofNodes template.nodes) with
      | error error => exact ⟨_, _, fun _ => rfl⟩
      | ok program =>
        simp only [dump, silent]
        exact ⟨_, _, fun _ => rfl⟩

end Compiler

end Mustache
