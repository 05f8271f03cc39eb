import Mustache.Program.Basic

/-!
# Routines

A routine is a balanced sequence of instructions with its blocks as they nest. `flatten` lays it
out as instructions. Laid out inside a program, a block's opening instruction has its partner
right after the block's body, which is what `Program.StandsAt.endOf?_eq` says; so what the
table of block ends does with positions can be reasoned about on the structure.
-/

namespace Mustache

/-- A sequence of steps in which every block is closed. -/
inductive Routine where
  /-- No step. -/
  | done
  /-- Write a text. -/
  | literal (text : String) (next : Routine)
  /-- Write the value that a path names, escaped or as it is. -/
  | interpolation (path : String) (escaped : Bool) (next : Routine)
  /-- Run a body over what a path names. -/
  | block (kind : BlockKind) (path : String) (body next : Routine)
  /-- Run another template. -/
  | partialCall (name : String) (next : Routine)
  deriving Repr, DecidableEq, Inhabited

namespace Routine

/-- The instructions of a routine. -/
def flatten : Routine → List Instruction
  | done => []
  | literal text next => .literal text :: next.flatten
  | interpolation path escaped next => .interpolation path escaped :: next.flatten
  | block kind path body next =>
    .openBlock kind path :: (body.flatten ++ .closeBlock :: next.flatten)
  | partialCall name next => .partialCall name :: next.flatten

/-- The number of instructions of a routine. -/
def size (routine : Routine) : Nat :=
  routine.flatten.length

@[simp] theorem size_done : size done = 0 := rfl

@[simp] theorem size_literal (text : String) (next : Routine) :
    (literal text next).size = next.size + 1 := rfl

@[simp] theorem size_interpolation (path : String) (escaped : Bool) (next : Routine) :
    (interpolation path escaped next).size = next.size + 1 := rfl

@[simp] theorem size_partialCall (name : String) (next : Routine) :
    (partialCall name next).size = next.size + 1 := rfl

@[simp] theorem size_block (kind : BlockKind) (path : String) (body next : Routine) :
    (block kind path body next).size = body.size + next.size + 2 := by
  simp [size, flatten]
  omega

/-- A table of block ends in which the blocks of a routine are entered, the first instruction
being at the position `index`. -/
def enterEnds (index : Nat) (ends : Array (Option Nat)) : Routine → Array (Option Nat)
  | done => ends
  | literal _ next | interpolation _ _ next | partialCall _ next =>
    next.enterEnds (index + 1) ends
  | block _ _ body next =>
    next.enterEnds (index + 1 + body.size + 1)
      ((body.enterEnds (index + 1) ends).setIfInBounds index (some (index + 1 + body.size)))

/-- Entering the blocks of a routine with `enterEnds` leaves the table as long as it is. -/
@[simp] theorem size_enterEnds (routine : Routine) (index : Nat) (ends : Array (Option Nat)) :
    (routine.enterEnds index ends).size = ends.size := by
  induction routine generalizing index ends with
  | done => rfl
  | literal _ next inductionHypothesis | interpolation _ _ next inductionHypothesis
  | partialCall _ next inductionHypothesis =>
    exact inductionHypothesis _ _
  | block kind path body next bodyHypothesis nextHypothesis =>
    rw [enterEnds, nextHypothesis, Array.size_setIfInBounds, bodyHypothesis]

end Routine

namespace Blocks

/-- Matching with `endsFrom` passes over a routine without touching the blocks that are open around
it. -/
theorem endsFrom_flatten_append (routine : Routine) (index : Nat) (openBlocks : List Nat)
    (ends : Array (Option Nat)) (rest : List Instruction) :
    endsFrom index openBlocks ends (routine.flatten ++ rest) =
      endsFrom (index + routine.size) openBlocks (routine.enterEnds index ends) rest := by
  induction routine generalizing index openBlocks ends rest with
  | done => rfl
  | literal _ next inductionHypothesis | interpolation _ _ next inductionHypothesis
  | partialCall _ next inductionHypothesis =>
    simp only [Routine.flatten, List.cons_append, endsFrom, Routine.enterEnds]
    rw [inductionHypothesis]
    simp only [Routine.size_literal, Routine.size_interpolation, Routine.size_partialCall,
      Nat.add_assoc, Nat.add_comm next.size]
  | block kind path body next bodyHypothesis nextHypothesis =>
    simp only [Routine.flatten, List.cons_append, List.append_assoc, endsFrom,
      Routine.enterEnds]
    rw [bodyHypothesis]
    simp only [endsFrom]
    rw [nextHypothesis]
    have total : index + 1 + body.size + 1 + next.size =
        index + (Routine.block kind path body next).size := by
      simp only [Routine.size_block]
      omega
    rw [total]

/-- Every routine is matched by `ends`. -/
theorem ends_flatten (routine : Routine) :
    ends routine.flatten =
      .ok (routine.enterEnds 0 (Array.replicate routine.flatten.length none)) := by
  rw [ends, ← List.append_nil routine.flatten, endsFrom_flatten_append]
  simp [endsFrom]

/-- What `endsFrom` can match inside some open blocks is a routine, and for each of these blocks its
end and another routine after it. -/
theorem exists_routines_of_endsFrom {index : Nat} {openBlocks : List Nat}
    {before after : Array (Option Nat)} {instructions : List Instruction}
    (matched : endsFrom index openBlocks before instructions = .ok after) :
    ∃ (first : Routine) (others : List Routine), others.length = openBlocks.length ∧
      instructions =
        first.flatten ++ others.flatMap fun other => .closeBlock :: other.flatten := by
  induction instructions generalizing index openBlocks before with
  | nil =>
    cases openBlocks with
    | nil => exact ⟨.done, [], rfl, rfl⟩
    | cons => simp [endsFrom] at matched
  | cons instruction rest inductionHypothesis =>
    cases instruction with
    | openBlock kind path =>
      rw [endsFrom] at matched
      obtain ⟨body, _ | ⟨next, others⟩, count, split⟩ := inductionHypothesis matched
      · cases count
      · refine ⟨.block kind path body next, others, Nat.succ.inj count, ?_⟩
        simp [split, Routine.flatten]
    | closeBlock =>
      cases openBlocks with
      | nil => simp [endsFrom] at matched
      | cons start enclosing =>
        rw [endsFrom] at matched
        obtain ⟨first, others, count, split⟩ := inductionHypothesis matched
        refine ⟨.done, first :: others, congrArg Nat.succ count, ?_⟩
        simp [split, Routine.flatten]
    | literal text =>
      obtain ⟨first, others, count, split⟩ := inductionHypothesis matched
      exact ⟨.literal text first, others, count, congrArg _ split⟩
    | interpolation path escaped =>
      obtain ⟨first, others, count, split⟩ := inductionHypothesis matched
      exact ⟨.interpolation path escaped first, others, count, congrArg _ split⟩
    | partialCall name =>
      obtain ⟨first, others, count, split⟩ := inductionHypothesis matched
      exact ⟨.partialCall name first, others, count, congrArg _ split⟩

/-- Matching with `endsFrom` enters partners only for blocks that are open or still to come. -/
theorem getElem?_of_endsFrom {index : Nat} {openBlocks : List Nat}
    {before after : Array (Option Nat)} {instructions : List Instruction}
    (matched : endsFrom index openBlocks before instructions = .ok after)
    {position : Nat} (passed : position < index) (closed : position ∉ openBlocks) :
    after[position]? = before[position]? := by
  induction instructions generalizing index openBlocks before with
  | nil =>
    cases openBlocks with
    | nil =>
      rw [endsFrom, Except.ok.injEq] at matched
      rw [matched]
    | cons => simp [endsFrom] at matched
  | cons instruction rest inductionHypothesis =>
    cases instruction with
    | openBlock =>
      rw [endsFrom] at matched
      refine inductionHypothesis matched (by omega) ?_
      rw [List.mem_cons]
      rintro (rfl | enclosing)
      · omega
      · exact closed enclosing
    | closeBlock =>
      cases openBlocks with
      | nil => simp [endsFrom] at matched
      | cons start enclosing =>
        rw [List.mem_cons, not_or] at closed
        rw [endsFrom] at matched
        rw [inductionHypothesis matched (by omega) closed.2,
          Array.getElem?_setIfInBounds_ne (Ne.symm closed.1)]
    | literal | interpolation | partialCall =>
      simp only [endsFrom] at matched
      exact inductionHypothesis matched (by omega) closed

/-- Before any instruction of what `endsFrom` has matched only earlier blocks are open, and the
table has room for every position. -/
theorem endsFrom_append {index : Nat} {openBlocks : List Nat} {ends after : Array (Option Nat)}
    {first rest : List Instruction}
    (matched : endsFrom index openBlocks ends (first ++ rest) = .ok after)
    (below : ∀ start ∈ openBlocks, start < index) :
    ∃ (openThen : List Nat) (endsThen : Array (Option Nat)),
      endsFrom (index + first.length) openThen endsThen rest = .ok after ∧
        (∀ start ∈ openThen, start < index + first.length) ∧ endsThen.size = ends.size := by
  induction first generalizing index openBlocks ends with
  | nil => exact ⟨openBlocks, ends, matched, below, rfl⟩
  | cons instruction first inductionHypothesis =>
    have later : ∀ start ∈ openBlocks, start < index + 1 :=
      fun start member => Nat.lt_succ_of_lt (below start member)
    rw [List.length_cons, Nat.add_comm first.length, ← Nat.add_assoc]
    rw [List.cons_append] at matched
    cases instruction with
    | openBlock =>
      rw [endsFrom] at matched
      refine inductionHypothesis matched ?_
      intro start member
      rcases List.mem_cons.1 member with rfl | enclosing
      · exact Nat.lt_succ_self _
      · exact later start enclosing
    | closeBlock =>
      cases openBlocks with
      | nil => simp [endsFrom] at matched
      | cons start enclosing =>
        rw [endsFrom] at matched
        obtain ⟨openThen, endsThen, matchedThen, belowThen, sizes⟩ :=
          inductionHypothesis matched fun other member =>
            later other (List.mem_cons_of_mem _ member)
        exact ⟨openThen, endsThen, matchedThen, belowThen, by simpa using sizes⟩
    | literal | interpolation | partialCall =>
      simp only [endsFrom] at matched
      exact inductionHypothesis matched later

end Blocks

namespace Program

/-- The instructions of every `Program` are the layout of a `Routine`. -/
theorem exists_routine (program : Program) :
    ∃ routine : Routine, program.instructions.toList = routine.flatten := by
  obtain ⟨routine, others, count, split⟩ := Blocks.exists_routines_of_endsFrom program.ends_eq
  obtain rfl : others = [] := List.length_eq_zero_iff.1 count
  exact ⟨routine, by simpa using split⟩

/-- A sequence of instructions stands in a program from the position `index` on. -/
def StandsAt (program : Program) (index : Nat) (segment : List Instruction) : Prop :=
  ∃ before after, program.instructions.toList = before ++ (segment ++ after) ∧
    before.length = index

variable {program : Program} {index : Nat}

/-- The instructions of a program stand at its start (`StandsAt`). -/
theorem standsAt_start {segment : List Instruction}
    (same : program.instructions.toList = segment) : program.StandsAt 0 segment :=
  ⟨[], [], by simpa using same, rfl⟩

theorem StandsAt.head {instruction : Instruction} {rest : List Instruction}
    (stands : program.StandsAt index (instruction :: rest)) :
    program.instructions[index]? = some instruction := by
  obtain ⟨before, after, laidOut, rfl⟩ := stands
  rw [← Array.getElem?_toList, laidOut]
  simp

theorem StandsAt.tail {instruction : Instruction} {rest : List Instruction}
    (stands : program.StandsAt index (instruction :: rest)) :
    program.StandsAt (index + 1) rest := by
  obtain ⟨before, after, laidOut, rfl⟩ := stands
  exact ⟨before ++ [instruction], after, by simpa using laidOut, by simp⟩

theorem StandsAt.left {first second : List Instruction}
    (stands : program.StandsAt index (first ++ second)) : program.StandsAt index first := by
  obtain ⟨before, after, laidOut, rfl⟩ := stands
  exact ⟨before, second ++ after, by simpa using laidOut, rfl⟩

theorem StandsAt.right {first second : List Instruction}
    (stands : program.StandsAt index (first ++ second)) :
    program.StandsAt (index + first.length) second := by
  obtain ⟨before, after, laidOut, rfl⟩ := stands
  exact ⟨before ++ first, after, by simpa using laidOut, by simp⟩

/-- A block that stands in a program has its end, by `endOf?`, right after its body. -/
theorem StandsAt.endOf?_eq {kind : BlockKind} {path : String} {body : Routine}
    {rest : List Instruction}
    (stands : program.StandsAt index
      (.openBlock kind path :: (body.flatten ++ .closeBlock :: rest))) :
    program.endOf? index = some (index + 1 + body.size) := by
  obtain ⟨before, after, laidOut, rfl⟩ := stands
  have matched := program.ends_eq
  rw [laidOut, Blocks.ends, List.cons_append, List.append_assoc, List.cons_append] at matched
  obtain ⟨openThen, endsThen, matchedThen, belowThen, sizes⟩ :=
    Blocks.endsFrom_append matched (fun _ member => absurd member List.not_mem_nil)
  rw [Nat.zero_add] at matchedThen belowThen
  rw [Blocks.endsFrom, Blocks.endsFrom_flatten_append, Blocks.endsFrom] at matchedThen
  have notOpen : before.length ∉ openThen :=
    fun member => absurd (belowThen _ member) (Nat.lt_irrefl _)
  -- Nothing that comes after the block's end changes the entry of its start.
  have entry := Blocks.getElem?_of_endsFrom matchedThen (by omega) notOpen
  have room : before.length <
      (body.enterEnds (before.length + 1) endsThen).size := by
    rw [Routine.size_enterEnds, sizes, Array.size_replicate, List.length_append,
      List.length_cons]
    omega
  rw [Array.getElem?_setIfInBounds_self_of_lt room] at entry
  rw [endOf?, entry, Option.join_some]

end Program

end Mustache
