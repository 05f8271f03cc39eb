import Mustache.Compile.Error

/-!
# Program caches

Programs under the hash of their lowered form. A cache holds one program for each hash and
never gives it up; the serial number of an entry tells one instance from another. Looking up
instructions whose program is not there builds it and counts the building. Calls follow each other;
threads that share a cache are left out.
-/

namespace Mustache

/-- A program that is held by a cache. -/
structure SharedProgram where
  /-- The number of the entry, in the order in which a cache took them. -/
  serial : Nat
  /-- The program. -/
  program : Program
  deriving DecidableEq

/-- Programs under their hashes. -/
structure ProgramCache where
  /-- The entries, in the order in which they came. -/
  entries : List (ContentHash × SharedProgram)
  /-- How many programs were built for this cache. -/
  builds : Nat

namespace ProgramCache

/-- A cache without entries. -/
def empty : ProgramCache := ⟨[], 0⟩

instance : Inhabited ProgramCache := ⟨empty⟩

/-- The number of entries. -/
def size (cache : ProgramCache) : Nat :=
  cache.entries.length

/-- The program under a hash. -/
def get? (cache : ProgramCache) (hash : ContentHash) : Option SharedProgram :=
  cache.entries.lookup hash

/-- All programs of a cache. -/
def programs (cache : ProgramCache) : List SharedProgram :=
  cache.entries.map (·.2)

/-- A cache with one entry more, and the entry. -/
def register (cache : ProgramCache) (hash : ContentHash) (program : Program) :
    SharedProgram × ProgramCache :=
  let shared : SharedProgram := ⟨cache.size, program⟩
  (shared, { cache with entries := cache.entries ++ [(hash, shared)] })

/-- The entry under a program's hash, which is this program if there was none. -/
def insert (cache : ProgramCache) (program : Program) : SharedProgram × ProgramCache :=
  match cache.get? program.hash with
  | some shared => (shared, cache)
  | none => cache.register program.hash program

/-- The entry for a sequence of instructions and whether it had to be built. A program that is
built is shown to `onBuild` first, which may turn it down; then nothing is entered. -/
def lookupOrBuildWith {σ : Type} (onBuild : Program → ExceptT CompileError (StateM σ) Unit)
    (instructions : List Instruction) :
    ExceptT CompileError (StateM (ProgramCache × σ)) (SharedProgram × Bool) :=
  fun (cache, outside) =>
    match cache.get? (ContentHash.ofText (Instruction.lowered instructions)) with
    | some shared => (.ok (shared, false), cache, outside)
    | none =>
      match Program.ofInstructions instructions with
      | .error error => (.error (.unbalanced error), cache, outside)
      | .ok program =>
        match onBuild program outside with
        | (.error error, outside) => (.error error, cache, outside)
        | (.ok (), outside) =>
          let (shared, cache) := cache.register program.hash program
          (.ok (shared, true), { cache with builds := cache.builds + 1 }, outside)

/-- The entry for a sequence of instructions and whether it had to be built. -/
def lookupOrBuild (cache : ProgramCache) (instructions : List Instruction) :
    Except CompileError (SharedProgram × Bool) × ProgramCache :=
  let (result, cache, ()) := lookupOrBuildWith (fun _ => pure ()) instructions (cache, ())
  (result, cache)

end ProgramCache

end Mustache
