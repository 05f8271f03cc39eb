import Mathlib.Data.List.Basic
import Mustache.Compile.Error
import Mustache.Proofs.Program.Routine

/-!
# Lowering gives routines

The instructions of a tree of nodes are those of a routine, the tree without its remarks, its
empty texts and its line numbers, and with texts that meet put together. So every template that
can be read becomes a program.
-/

namespace Mustache

namespace Instruction

/-- Two texts in front of instructions (`consLiteral`) are one. -/
theorem consLiteral_consLiteral (first second : String) (instructions : List Instruction) :
    consLiteral first (consLiteral second instructions) =
      consLiteral (first ++ second) instructions := by
  by_cases firstEmpty : first = ""
  · rw [firstEmpty, String.empty_append]
    rfl
  by_cases secondEmpty : second = ""
  · rw [secondEmpty, String.append_empty]
    rfl
  have bothPresent : first ++ second ≠ "" := by
    rw [ne_eq, String.append_eq_empty_iff]
    exact fun both => firstEmpty both.1
  simp only [consLiteral, String.isEmpty_iff, firstEmpty, secondEmpty, bothPresent, if_false]
  cases instructions with
  | nil => rfl
  | cons instruction rest =>
    cases instruction with
    | literal text => simp only [String.append_assoc]
    | interpolation | openBlock | closeBlock | partialCall => rfl

/-- Text joins the text that follows before and after `ofNodes` lowers a tree. -/
theorem ofNodes_consText (content : String) (nodes : List Node) :
    ofNodes (Node.consText content nodes) = consLiteral content (ofNodes nodes) := by
  cases nodes with
  | nil => simp only [Node.consText, ofNodes, consNode]
  | cons node rest =>
    cases node with
    | text following =>
      simp only [Node.consText, ofNodes, consNode, consLiteral_consLiteral]
    | interpolation | block | partialCall | comment =>
      simp only [Node.consText, ofNodes, consNode]

end Instruction

namespace Routine

/-- Literal text in front of a routine; empty text adds nothing, other text joins the literal
that follows. -/
def consLiteral (content : String) (routine : Routine) : Routine :=
  if content.isEmpty then routine
  else
    match routine with
    | .literal following next => .literal (content ++ following) next
    | _ => .literal content routine

mutual

/-- What a node does, in front of what follows it. -/
def consNode (node : Node) (following : Routine) : Routine :=
  match node with
  | .text content => consLiteral content following
  | .interpolation path escaped _ => .interpolation path escaped following
  | .block kind name children _ _ => .block kind name (ofNodes children) following
  | .partialCall name _ => .partialCall name following
  | .comment _ _ => following

/-- What a sequence of nodes does, as a `Routine`. -/
def ofNodes : List Node → Routine
  | [] => .done
  | node :: rest => consNode node (ofNodes rest)

end

/-- A literal joins the literal that follows before and after `flatten` lays out a routine. -/
theorem flatten_consLiteral (content : String) (routine : Routine) :
    (consLiteral content routine).flatten = Instruction.consLiteral content routine.flatten := by
  unfold consLiteral Instruction.consLiteral
  split
  · rfl
  · cases routine <;> rfl

mutual

theorem flatten_consNode (node : Node) (following : Routine) :
    (consNode node following).flatten = Instruction.consNode node following.flatten := by
  cases node with
  | text content =>
    rw [consNode, Instruction.consNode, flatten_consLiteral]
  | block kind name children firstLine lastLine =>
    rw [consNode, Instruction.consNode, flatten, flatten_ofNodes children]
  | interpolation | partialCall | comment =>
    simp only [consNode, Instruction.consNode, flatten]

/-- The instructions of a tree are those of its routine, `Routine.ofNodes`. -/
theorem flatten_ofNodes (nodes : List Node) :
    (ofNodes nodes).flatten = Instruction.ofNodes nodes := by
  cases nodes with
  | nil => rw [ofNodes, Instruction.ofNodes, flatten]
  | cons node rest =>
    rw [ofNodes, Instruction.ofNodes, flatten_consNode node, flatten_ofNodes rest]

end

end Routine

namespace Program

/-- The instructions of a routine make a program by `Program.make`. -/
theorem exists_make_flatten (routine : Routine) :
    ∃ program, make routine.flatten = .ok program ∧
      program.instructions.toList = routine.flatten := by
  unfold make ofInstructions withHash
  split
  · next error matched =>
    rw [Blocks.ends_flatten] at matched
    cases matched
  · exact ⟨_, rfl, by simp⟩

/-- Every tree lowers to a program: `make` refuses no instructions of `Instruction.ofNodes`. -/
theorem exists_make_ofNodes (nodes : List Node) :
    ∃ program, make (Instruction.ofNodes nodes) = .ok program ∧
      program.instructions.toList = Instruction.ofNodes nodes := by
  rw [← Routine.flatten_ofNodes]
  exact exists_make_flatten (Routine.ofNodes nodes)

/-- A program that `make` makes is made by `ofInstructions`, too; the two differ only in their
errors. -/
theorem ofInstructions_of_make {program : Program} {instructions : List Instruction}
    (made : make instructions = .ok program) : ofInstructions instructions = .ok program := by
  rw [make] at made
  cases found : ofInstructions instructions with
  | error =>
    rw [found] at made
    cases made
  | ok other =>
    rw [found] at made
    cases made
    rfl

/-- A program that `make` makes has the instructions it is made of. -/
theorem toList_instructions_of_make {program : Program} {instructions : List Instruction}
    (made : make instructions = .ok program) :
    program.instructions.toList = instructions := by
  unfold make ofInstructions withHash at made
  split at made
  · cases made
  · cases made
    simp

/-- The instructions of a program `make` that program. -/
theorem make_toList_instructions (program : Program) :
    make program.instructions.toList = .ok program := by
  unfold make ofInstructions withHash
  split
  · next error unmatched =>
    rw [program.ends_eq] at unmatched
    cases unmatched
  · exact congrArg Except.ok (ext_instructions program.instructions.toArray_toList)

end Program

end Mustache
