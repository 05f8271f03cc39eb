import Mustache.Proofs.Program.Lowering
import Mustache.Proofs.Template.Grammar

/-!
# Instructions one after the other

The instructions of one tree after another are those of the first and then those of the second.
Only where a literal meets a literal the two become one, since no two literals are neighbours in
what a tree lowers to.
-/

namespace Mustache

namespace Instruction

/-- Instructions followed by instructions; two literals that meet become one, as by `consLiteral`.
-/
def fuse (first second : List Instruction) : List Instruction :=
  match first.getLast?, second with
  | some (.literal text), .literal following :: rest =>
    first.dropLast ++ .literal (text ++ following) :: rest
  | _, _ => first ++ second

@[simp] theorem fuse_nil_left (second : List Instruction) : fuse [] second = second := rfl

/-- Only the last instruction can meet what follows in `fuse`. -/
theorem fuse_cons_cons (instruction next : Instruction) (rest second : List Instruction) :
    fuse (instruction :: next :: rest) second = instruction :: fuse (next :: rest) second := by
  unfold fuse
  rw [List.getLast?_cons_cons, List.dropLast_cons_cons]
  split <;> rfl

/-- An instruction that is no literal stays apart from what follows in `fuse`. -/
theorem fuse_cons_of_ne {instruction : Instruction}
    (notLiteral : ∀ text, instruction ≠ .literal text) (rest second : List Instruction) :
    fuse (instruction :: rest) second = instruction :: fuse rest second := by
  cases rest with
  | nil =>
    cases instruction with
    | literal text => exact absurd rfl (notLiteral text)
    | interpolation | openBlock | closeBlock | partialCall => rfl
  | cons next others => exact fuse_cons_cons instruction next others second

/-- What stands before an instruction stays apart from what follows it in `fuse`. -/
theorem fuse_append_cons (before : List Instruction) (instruction : Instruction)
    (rest second : List Instruction) :
    fuse (before ++ instruction :: rest) second =
      before ++ fuse (instruction :: rest) second := by
  induction before with
  | nil => rfl
  | cons head others inductionHypothesis =>
    rw [List.cons_append, List.cons_append, ← inductionHypothesis]
    cases others with
    | nil => exact fuse_cons_cons head instruction rest second
    | cons next others => exact fuse_cons_cons head next (others ++ instruction :: rest) second

/-- Text that is not empty is put in front of instructions by `consLiteral` as a literal is by
`fuse`. -/
theorem consLiteral_eq_fuse {content : String} (present : content ≠ "")
    (instructions : List Instruction) :
    consLiteral content instructions = fuse [.literal content] instructions := by
  simp only [consLiteral, String.isEmpty_iff, present, if_false]
  cases instructions with
  | nil => rfl
  | cons instruction rest => cases instruction <;> rfl

/-- A literal in front of instructions stays in front whatever follows them. -/
theorem fuse_literal_fuse (content : String) (first second : List Instruction) :
    fuse [.literal content] (fuse first second) =
      fuse (fuse [.literal content] first) second := by
  cases first with
  | nil => rfl
  | cons instruction rest =>
    by_cases literal : ∃ text, instruction = .literal text
    · obtain ⟨text, rfl⟩ := literal
      have joined : ∀ others, fuse [.literal content] (.literal text :: others) =
          .literal (content ++ text) :: others := fun _ => rfl
      cases rest with
      | cons next others => rw [fuse_cons_cons, joined, joined, fuse_cons_cons]
      | nil =>
        -- Of three literals that meet it does not matter which two are put together first.
        rcases second with _ | ⟨_ | _ | _ | _ | _, others⟩
        case cons.literal following =>
          change Instruction.literal (content ++ (text ++ following)) :: others =
            Instruction.literal (content ++ text ++ following) :: others
          rw [String.append_assoc]
        all_goals rfl
    · have notLiteral : ∀ text, instruction ≠ .literal text :=
        fun text same => literal ⟨text, same⟩
      have apart : ∀ others, fuse [.literal content] (instruction :: others) =
          .literal content :: instruction :: others := by
        intro others
        cases instruction with
        | literal text => exact absurd rfl (notLiteral text)
        | interpolation | openBlock | closeBlock | partialCall => rfl
      rw [fuse_cons_of_ne notLiteral, apart, apart, fuse_cons_cons, fuse_cons_of_ne notLiteral]

/-- Text in front of instructions (`consLiteral`) stays in front whatever follows them. -/
theorem consLiteral_fuse (content : String) (first second : List Instruction) :
    consLiteral content (fuse first second) = fuse (consLiteral content first) second := by
  by_cases empty : content = ""
  · rw [empty]
    rfl
  · rw [consLiteral_eq_fuse empty, consLiteral_eq_fuse empty, fuse_literal_fuse]

mutual

theorem consNode_fuse (node : Node) (first second : List Instruction) :
    consNode node (fuse first second) = fuse (consNode node first) second := by
  cases node with
  | text content =>
    rw [consNode, consNode, consLiteral_fuse]
  | block kind name children firstLine lastLine =>
    rw [consNode, consNode, fuse_cons_of_ne (by simp), fuse_append_cons, fuse_cons_of_ne (by simp)]
  | interpolation | partialCall =>
    rw [consNode, consNode, fuse_cons_of_ne (by simp)]
  | comment =>
    rw [consNode, consNode]

end

/-- The instructions of a tree that `Node.append` puts after another one are put after those of the
other by `fuse`. -/
theorem ofNodes_append (first second : List Node) :
    ofNodes (Node.append first second) = fuse (ofNodes first) (ofNodes second) := by
  induction first with
  | nil => rw [Node.append, ofNodes, fuse_nil_left]
  | cons node rest inductionHypothesis =>
    have lowered : ofNodes (Node.append (node :: rest) second) =
        consNode node (ofNodes (Node.append rest second)) := by
      cases rest with
      | nil =>
        cases node with
        | text content => simp only [Node.append, ofNodes_consText, consNode]
        | interpolation | block | partialCall | comment => simp only [Node.append, ofNodes]
      | cons => simp only [Node.append, ofNodes]
    rw [lowered, inductionHypothesis, ofNodes, consNode_fuse]

end Instruction

end Mustache
