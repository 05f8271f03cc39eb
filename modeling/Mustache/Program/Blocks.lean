import Mustache.Program.Instruction

/-!
# Blocks

In a program every opening instruction has its closing instruction. `Blocks.ends` finds them,
or the instruction that has no partner; `Blocks.Ordered` says that a block ends after it
starts, which is why running a program comes to an end.
-/

namespace Mustache

/-- An instruction without its partner. -/
inductive BlockError where
  /-- A closing instruction where no block is open. -/
  | closeWithoutOpen (index : Nat)
  /-- The innermost of the blocks that are never closed. -/
  | openWithoutClose (index : Nat)
  deriving Repr, DecidableEq, Inhabited

/-- What is said about an instruction without its partner. -/
def BlockError.message : BlockError → String
  | .closeWithoutOpen index => s!"instruction {index}: end without begin"
  | .openWithoutClose index => s!"instruction {index}: begin without end"

namespace Blocks

/-- Enters into `ends` the partner of each opening instruction. The first instruction has the
position `index`, and `openBlocks` holds the positions of the blocks open before it, innermost
first. -/
def endsFrom (index : Nat) (openBlocks : List Nat) (ends : Array (Option Nat)) :
    List Instruction → Except BlockError (Array (Option Nat))
  | [] =>
    match openBlocks with
    | [] => .ok ends
    | start :: _ => .error (.openWithoutClose start)
  | .openBlock _ _ :: rest => endsFrom (index + 1) (index :: openBlocks) ends rest
  | .closeBlock :: rest =>
    match openBlocks with
    | [] => .error (.closeWithoutOpen index)
    | start :: enclosing =>
      endsFrom (index + 1) enclosing (ends.setIfInBounds start (some index)) rest
  | _ :: rest => endsFrom (index + 1) openBlocks ends rest

/-- For each instruction the position of its partner, if it opens a block. -/
def ends (instructions : List Instruction) : Except BlockError (Array (Option Nat)) :=
  endsFrom 0 [] (Array.replicate instructions.length none) instructions

/-- Every block ends after it starts. -/
def Ordered (ends : Array (Option Nat)) : Prop :=
  ∀ start stop : Nat, ends[start]? = some (some stop) → start < stop

theorem Ordered.setIfInBounds {ends : Array (Option Nat)} (ordered : Ordered ends)
    {start stop : Nat} (less : start < stop) :
    Ordered (ends.setIfInBounds start (some stop)) := by
  intro first last found
  rw [Array.getElem?_setIfInBounds] at found
  split at found
  · next same =>
    subst same
    split at found
    · simp only [Option.some.injEq] at found
      omega
    · simp at found
  · exact ordered first last found

theorem endsFrom_ordered {index : Nat} {openBlocks : List Nat}
    {before after : Array (Option Nat)} {instructions : List Instruction}
    (matched : endsFrom index openBlocks before instructions = .ok after)
    (below : ∀ start ∈ openBlocks, start < index) (ordered : Ordered before) :
    Ordered after := by
  induction instructions generalizing index openBlocks before with
  | nil =>
    cases openBlocks with
    | nil =>
      simp only [endsFrom, Except.ok.injEq] at matched
      exact matched ▸ ordered
    | cons => simp [endsFrom] at matched
  | cons instruction rest inductionHypothesis =>
    have later : ∀ start ∈ openBlocks, start < index + 1 :=
      fun start member => Nat.lt_succ_of_lt (below start member)
    cases instruction with
    | openBlock =>
      simp only [endsFrom] at matched
      refine inductionHypothesis matched ?_ ordered
      intro start member
      rcases List.mem_cons.1 member with rfl | member
      · exact Nat.lt_succ_self _
      · exact later start member
    | closeBlock =>
      cases openBlocks with
      | nil => simp [endsFrom] at matched
      | cons start enclosing =>
        simp only [endsFrom] at matched
        exact inductionHypothesis matched
          (fun other member => later other (List.mem_cons_of_mem _ member))
          (ordered.setIfInBounds (below start List.mem_cons_self))
    | literal | interpolation | partialCall =>
      simp only [endsFrom] at matched
      exact inductionHypothesis matched later ordered

/-- What `ends` finds is `Ordered`: every block ends after it starts. -/
theorem ends_ordered {instructions : List Instruction} {found : Array (Option Nat)}
    (matched : ends instructions = .ok found) : Ordered found := by
  refine endsFrom_ordered matched (fun _ member => absurd member List.not_mem_nil) ?_
  intro start stop present
  simp [Array.getElem?_replicate] at present

end Blocks

end Mustache
