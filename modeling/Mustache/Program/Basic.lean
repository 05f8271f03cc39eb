import Mustache.Hash.ContentHash
import Mustache.Program.Blocks

/-!
# Programs

A program is a sequence of instructions in which every block is closed, together with the ends
of its blocks and the hash of its lowered form. Both follow from the instructions, so programs
are equal as soon as their instructions are.
-/

namespace Mustache

/-- A sequence of instructions that can be run. -/
structure Program where
  /-- The steps. -/
  instructions : Array Instruction
  /-- The partner of each opening instruction. -/
  ends : Array (Option Nat)
  /-- The hash of the lowered form. -/
  hash : ContentHash
  /-- The ends are those of the instructions. -/
  ends_eq : Blocks.ends instructions.toList = .ok ends
  /-- The hash is that of the instructions. -/
  hash_eq : hash = ContentHash.ofText (Instruction.lowered instructions.toList)

namespace Program

/-- The instructions determine a program. -/
theorem ext_instructions {left right : Program}
    (same : left.instructions = right.instructions) : left = right := by
  obtain ⟨leftInstructions, leftEnds, leftHash, leftEndsEq, leftHashEq⟩ := left
  obtain ⟨rightInstructions, rightEnds, rightHash, rightEndsEq, rightHashEq⟩ := right
  simp only at same
  subst same
  rw [leftEndsEq, Except.ok.injEq] at rightEndsEq
  subst rightEndsEq leftHashEq rightHashEq
  rfl

instance : DecidableEq Program := fun left right =>
  decidable_of_iff (left.instructions = right.instructions)
    ⟨ext_instructions, fun same => congrArg instructions same⟩

/-- The program of a sequence of instructions whose hash is already known. -/
def withHash (hash : ContentHash) (instructions : List Instruction)
    (hash_eq : hash = ContentHash.ofText (Instruction.lowered instructions)) :
    Except BlockError Program :=
  match matched : Blocks.ends instructions with
  | .error error => .error error
  | .ok ends =>
    .ok ⟨instructions.toArray, ends, hash, by simpa using matched, by simpa using hash_eq⟩

/-- The program of a sequence of instructions, if all its blocks are closed. -/
def ofInstructions (instructions : List Instruction) : Except BlockError Program :=
  withHash _ instructions rfl

/-- The text form of a program. -/
def lowered (program : Program) : String :=
  Instruction.lowered program.instructions.toList

/-- The position of the instruction that closes the block opened at `index`. -/
def endOf? (program : Program) (index : Nat) : Option Nat :=
  program.ends[index]?.join

/-- A block ends after it starts, wherever `Program.endOf?` finds its end. -/
theorem lt_of_endOf? {program : Program} {start stop : Nat}
    (found : program.endOf? start = some stop) : start < stop :=
  Blocks.ends_ordered program.ends_eq start stop
    (by simpa [endOf?, Option.join_eq_some_iff] using found)

end Program

end Mustache
