import Mustache.Program.Basic
import Mustache.Proofs.Text.Quoted

/-!
# The lowered form tells programs apart

The lowered form of a sequence of instructions can be read in one way only. A line is a run of
spaces, a word, and perhaps a quoted text; the words begin with different letters, none of which
is a space, and a quoted text tells where it ends. So lines are read off one after another, and
`lowered_eq_iff_and_hash_eq_iff` concludes that programs with the same hash are the same program
unless two different lowered forms have the same digest.
-/

namespace Mustache

/-- Two messages that SHA-256 does not tell apart. -/
def Sha256.Collide (left right : ByteArray) : Prop :=
  left ≠ right ∧ (finalState left).bytes = (finalState right).bytes

namespace Instruction

/-- The `text` of an instruction does not begin with a space. -/
theorem head?_text (instruction : Instruction) (rest : List Char) :
    (instruction.text.toList ++ rest).head? ≠ some ' ' := by
  cases instruction with
  | interpolation path escaped => cases escaped <;> simp [text]
  | openBlock kind path => cases kind <;> simp [text]
  | literal | closeBlock | partialCall => simp [text]

/-- The `text` of an instruction and the line end after it tell which instruction it is. -/
theorem text_append_inj {left right : Instruction} {leftRest rightRest : List Char}
    (same : left.text.toList ++ '\n' :: leftRest = right.text.toList ++ '\n' :: rightRest) :
    left = right ∧ leftRest = rightRest := by
  have sameArgument : ∀ {leftText rightText : String},
      (Text.quoted leftText).toList ++ '\n' :: leftRest =
        (Text.quoted rightText).toList ++ '\n' :: rightRest →
      leftText = rightText ∧ leftRest = rightRest := by
    intro leftText rightText arguments
    obtain ⟨texts, ends⟩ := Text.quoted_append_inj arguments
    exact ⟨texts, (List.cons.inj ends).2⟩
  -- Different words begin with different letters, so only equal words are left, with the
  -- arguments behind them; the end of a block has no argument.
  rcases left with leftText | ⟨leftPath, _ | _⟩ | ⟨_ | _, leftPath⟩ | _ | leftName <;>
    rcases right with rightText | ⟨rightPath, _ | _⟩ | ⟨_ | _, rightPath⟩ | _ | rightName <;>
    simp [text] at same
  case closeBlock.closeBlock =>
    exact ⟨rfl, same⟩
  all_goals
    obtain ⟨rfl, rests⟩ := sameArgument same
    exact ⟨rfl, rests⟩

/-- Two runs of spaces in front of texts that do not begin with a space are the same. -/
theorem replicate_space_append_inj {leftCount rightCount : Nat} {left right : List Char}
    (leftHead : left.head? ≠ some ' ') (rightHead : right.head? ≠ some ' ')
    (same : List.replicate leftCount ' ' ++ left = List.replicate rightCount ' ' ++ right) :
    left = right := by
  induction leftCount generalizing rightCount with
  | zero =>
    cases rightCount with
    | zero => exact same
    | succ count =>
      rw [List.replicate_zero, List.nil_append] at same
      exact absurd (by rw [same, List.replicate_succ]; rfl) leftHead
  | succ leftCount inductionHypothesis =>
    cases rightCount with
    | zero =>
      rw [List.replicate_zero, List.nil_append] at same
      exact absurd (by rw [← same, List.replicate_succ]; rfl) rightHead
    | succ rightCount =>
      rw [List.replicate_succ, List.replicate_succ] at same
      exact inductionHypothesis (List.cons.inj same).2

/-- A `line` tells which instruction it is and where it ends. -/
theorem line_append_inj {depth : Nat} {left right : Instruction}
    {leftRest rightRest : List Char}
    (same : (left.line depth).toList ++ leftRest = (right.line depth).toList ++ rightRest) :
    left = right ∧ leftRest = rightRest := by
  have spaced : ∀ (instruction : Instruction) (rest : List Char),
      (instruction.line depth).toList ++ rest =
        List.replicate (2 * instruction.depthAt depth) ' ' ++
          (instruction.text.toList ++ '\n' :: rest) := by
    intro instruction rest
    simp [line]
  rw [spaced, spaced] at same
  exact text_append_inj
    (replicate_space_append_inj (head?_text _ _) (head?_text _ _) same)

/-- A line is not empty. -/
theorem line_toList_ne_nil (depth : Nat) (instruction : Instruction) :
    (instruction.line depth).toList ≠ [] := by
  simp [line]

/-- Different sequences have different `lines` from the same depth on. -/
theorem lines_inj {depth : Nat} {left right : List Instruction}
    (same : (lines depth left).flatMap String.toList = (lines depth right).flatMap String.toList) :
    left = right := by
  induction left generalizing depth right with
  | nil =>
    cases right with
    | nil => rfl
    | cons head tail =>
      rw [lines, lines, List.flatMap_nil, List.flatMap_cons] at same
      exact absurd (List.append_eq_nil_iff.1 same.symm).1 (line_toList_ne_nil depth head)
  | cons head tail inductionHypothesis =>
    cases right with
    | nil =>
      rw [lines, lines, List.flatMap_nil, List.flatMap_cons] at same
      exact absurd (List.append_eq_nil_iff.1 same).1 (line_toList_ne_nil depth head)
    | cons otherHead otherTail =>
      rw [lines, lines, List.flatMap_cons, List.flatMap_cons] at same
      obtain ⟨rfl, following⟩ := line_append_inj same
      rw [inductionHypothesis following]

/-- Sequences of instructions with the same `lowered` form are the same. -/
theorem lowered_inj {left right : List Instruction} (same : lowered left = lowered right) :
    left = right := by
  apply @lines_inj 0
  rw [← String.toList_join, ← String.toList_join, ← lowered, ← lowered, same]

end Instruction

/-- Two texts have the same hash by `ofText` only if they are the same or collide
(`Sha256.Collide`). -/
theorem ContentHash.ofText_eq_ofText_iff (left right : String) :
    ofText left = ofText right ↔
      left = right ∨ Sha256.Collide left.toByteArray right.toByteArray := by
  have digests : ofText left = ofText right ↔
      (Sha256.finalState left.toByteArray).bytes = (Sha256.finalState right.toByteArray).bytes :=
    ⟨congrArg bytes, fun same => by simp [ofText, same]⟩
  rw [digests, Sha256.Collide, ne_eq, String.toByteArray_inj]
  by_cases same : left = right
  · simp [same]
  · simp [same]

/-- The form `Instruction.lowered` tells sequences of instructions apart, balanced or not. Two
programs have the same hash exactly if they have the same instructions or their lowered forms
collide (`Sha256.Collide`). -/
theorem lowered_eq_iff_and_hash_eq_iff :
    (∀ left right : List Instruction,
      Instruction.lowered left = Instruction.lowered right ↔ left = right) ∧
    (∀ left right : Program,
      left.hash = right.hash ↔
        left.instructions = right.instructions ∨
          Sha256.Collide left.lowered.toByteArray right.lowered.toByteArray) := by
  refine ⟨fun left right => ⟨Instruction.lowered_inj, congrArg _⟩, ?_⟩
  intro left right
  rw [left.hash_eq, right.hash_eq, ContentHash.ofText_eq_ofText_iff, ← Program.lowered,
    ← Program.lowered]
  refine or_congr_left ⟨fun same => ?_, fun same => ?_⟩
  · exact Array.toList_inj.1 (Instruction.lowered_inj same)
  · rw [Program.lowered, Program.lowered, same]

end Mustache
