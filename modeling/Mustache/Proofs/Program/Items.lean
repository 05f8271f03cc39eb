import Mustache.Proofs.Program.Lowering
import Mustache.Proofs.Template.Grammar

/-!
# Instructions of items

What a template does can be read off its items, without a tree. Each tag gives the instruction
that it stands for, if it stands for one, and text becomes a literal.
-/

namespace Mustache

/-- What a tag does, if it does anything. -/
def Tag.instruction? : Tag → Option Instruction
  | .openBlock kind name => some (.openBlock kind name)
  | .closeBlock _ => some .closeBlock
  | .partialCall name => some (.partialCall name)
  | .interpolation path escaped => some (.interpolation path escaped)
  | .comment _ | .pragma _ | .empty => none

namespace Instruction

/-- What items do, one after the other, as `ofNodes` has it for nodes. -/
def ofItems : List Item → List Instruction
  | [] => []
  | .text content :: rest => consLiteral content (ofItems rest)
  | .newline :: rest => consLiteral "\n" (ofItems rest)
  | .tag meaning _ :: rest => meaning.instruction?.toList ++ ofItems rest

/-- Text in front of instructions (`consLiteral`) does not join a literal behind the end of a block.
-/
theorem consLiteral_append_closeBlock (content : String) (before after : List Instruction) :
    consLiteral content (before ++ .closeBlock :: after) =
      consLiteral content before ++ .closeBlock :: after := by
  unfold consLiteral
  split
  · rfl
  · cases before with
    | nil => rfl
    | cons instruction rest => cases instruction <;> rfl

/-- The instructions `ofItems` of items up to the end of a block do not depend on what comes after
it. -/
theorem ofItems_append_closeBlock (items : List Item) (name : String) (line : Nat)
    (rest : List Item) :
    ofItems (items ++ .tag (.closeBlock name) line :: rest) =
      ofItems items ++ .closeBlock :: ofItems rest := by
  induction items with
  | nil => rfl
  | cons item others inductionHypothesis =>
    cases item with
    | text content =>
      rw [List.cons_append, ofItems, ofItems, inductionHypothesis, consLiteral_append_closeBlock]
    | newline =>
      rw [List.cons_append, ofItems, ofItems, inductionHypothesis, consLiteral_append_closeBlock]
    | tag => rw [List.cons_append, ofItems, ofItems, inductionHypothesis, List.append_assoc]

end Instruction

/-- The instructions `ofNodes` of a template's tree are the instructions `ofItems` of its items. -/
theorem Template.Spelled.ofNodes_eq {items : List Item} {template : Template}
    (spelled : Spelled items template) :
    Instruction.ofNodes template.nodes = Instruction.ofItems items := by
  induction spelled with
  | empty => rw [Template.empty, Instruction.ofNodes, Instruction.ofItems]
  | @item item rest template complete _ inductionHypothesis =>
    cases item with
    | text content =>
      rw [Item.addTo, Instruction.ofNodes_consText, inductionHypothesis, Instruction.ofItems]
    | newline =>
      rw [Item.addTo, Instruction.ofNodes_consText, inductionHypothesis, Instruction.ofItems]
    | tag meaning line =>
      rw [Instruction.ofItems, ← inductionHypothesis]
      cases meaning with
      | openBlock | closeBlock | empty => cases complete
      | partialCall | interpolation | comment | pragma =>
        simp [Item.addTo, Instruction.ofNodes, Instruction.consNode, Tag.instruction?]
  | @block kind name firstLine lastLine inner rest content template _ _ bodyHypothesis
      followingHypothesis =>
    rw [addBlock, Instruction.ofNodes, Instruction.consNode, bodyHypothesis, followingHypothesis,
      Instruction.ofItems, Instruction.ofItems_append_closeBlock]
    rfl

end Mustache
