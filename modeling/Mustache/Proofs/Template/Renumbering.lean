import Mustache.Proofs.Template.Scanning
import Mustache.Program.Instruction

/-!
# Counting lines from further on

Where the lines of a template are counted from matters for the lines that its tree, its warnings
and its errors name, and for nothing else: which lines stand alone, how the tags nest and what
the template does stay the same. Every step from the tokens to the tree is shown to commute with
adding a number to all lines.
-/

namespace Mustache

/-- A warning with its line counted from further on. -/
def Warning.addLines (count : Nat) : Warning → Warning
  | .unsupportedPragma pragma line => .unsupportedPragma pragma (line + count)

namespace Node

mutual

/-- A node with its lines counted from further on. -/
def addLines (count : Nat) : Node → Node
  | .text content => .text content
  | .interpolation path escaped line => .interpolation path escaped (line + count)
  | .block kind name children firstLine lastLine =>
    .block kind name (addLinesAll count children) (firstLine + count) (lastLine + count)
  | .partialCall name line => .partialCall name (line + count)
  | .comment remark line => .comment remark (line + count)

/-- Nodes with their lines counted from further on. -/
def addLinesAll (count : Nat) : List Node → List Node
  | [] => []
  | node :: rest => addLines count node :: addLinesAll count rest

end

theorem addLinesAll_consText (count : Nat) (content : String) (nodes : List Node) :
    addLinesAll count (consText content nodes) = consText content (addLinesAll count nodes) := by
  cases nodes with
  | nil => simp only [consText, addLinesAll, addLines]
  | cons node rest => cases node <;> simp only [consText, addLinesAll, addLines]

end Node

namespace Instruction

mutual

theorem consNode_addLines (count : Nat) (node : Node) (following : List Instruction) :
    consNode (node.addLines count) following = consNode node following := by
  cases node with
  | block kind name children firstLine lastLine =>
    simp only [Node.addLines, consNode, ofNodes_addLinesAll count children]
  | text | interpolation | partialCall | comment => simp only [Node.addLines, consNode]

/-- What nodes do does not depend on their lines: `addLinesAll` does not change `ofNodes`. -/
theorem ofNodes_addLinesAll (count : Nat) (nodes : List Node) :
    ofNodes (Node.addLinesAll count nodes) = ofNodes nodes := by
  cases nodes with
  | nil => rw [Node.addLinesAll]
  | cons node rest =>
    rw [Node.addLinesAll, ofNodes, ofNodes, consNode_addLines count node,
      ofNodes_addLinesAll count rest]

end

end Instruction

namespace Item

/-- An item with its line counted from further on. -/
def addLines (count : Nat) : Item → Item
  | .text content => .text content
  | .newline => .newline
  | .tag meaning line => .tag meaning (line + count)

theorem ofToken_addLines (count : Nat) (token : Token) :
    ofToken (token.addLines count) = (ofToken token).addLines count := by
  cases token <;> rfl

@[simp] theorem isTag_addLines (count : Nat) (item : Item) :
    (item.addLines count).isTag = item.isTag := by
  cases item <;> rfl

@[simp] theorem isNewline_addLines (count : Nat) (item : Item) :
    (item.addLines count).isNewline = item.isNewline := by
  cases item <;> rfl

@[simp] theorem fitsStandalone_addLines (count : Nat) (item : Item) :
    (item.addLines count).fitsStandalone = item.fitsStandalone := by
  cases item <;> rfl

end Item

namespace Layout

/-- Two tags are on different lines for `spanningFrom` wherever lines are counted from. -/
theorem spanningFrom_addLines (count position : Nat) (openTags : List (Nat × Nat))
    (items : List Item) :
    spanningFrom position (openTags.map fun (start, line) => (start, line + count))
        (items.map (Item.addLines count)) =
      spanningFrom position openTags items := by
  induction items generalizing position openTags with
  | nil => rfl
  | cons item rest inductionHypothesis =>
    cases item with
    | text | newline => exact inductionHypothesis (position + 1) openTags
    | tag meaning line =>
      cases meaning with
      | openBlock => exact inductionHypothesis (position + 1) ((position, line) :: openTags)
      | closeBlock =>
        cases openTags with
        | nil => exact inductionHypothesis (position + 1) []
        | cons opened enclosing =>
          obtain ⟨start, startLine⟩ := opened
          simp only [List.map_cons, Item.addLines, spanningFrom, inductionHypothesis, ne_eq,
            Nat.add_right_cancel_iff]
      | partialCall | interpolation | comment | pragma | empty =>
        exact inductionHypothesis (position + 1) openTags

/-- The lines that `elide` takes away are the same wherever lines are counted from. -/
theorem elide_addLines (count : Nat) (items : List Item) :
    elide (items.map (Item.addLines count)) = (elide items).map (Item.addLines count) := by
  have sameMarks : marked (items.map (Item.addLines count)) =
      (marked items).map fun pair => (pair.1.addLines count, pair.2) := by
    have samePositions := spanningFrom_addLines count 0 [] items
    rw [List.map_nil] at samePositions
    rw [marked, marked, spanning, samePositions, List.zipIdx_map, List.map_map, List.map_map]
    rfl
  have keepOne : ∀ line : List (Item × Bool),
      keepMarked (line.map fun pair => (pair.1.addLines count, pair.2)) =
        (keepMarked line).map (Item.addLines count) := by
    intro line
    have sameDecision :
        standsAlone (line.map fun pair => (pair.1.addLines count, pair.2)) =
          standsAlone line := by
      simp [standsAlone, List.all_map, List.any_map, Function.comp_def]
    rw [keepMarked, keepMarked, sameDecision]
    split
    · simp only [List.map_map, List.filter_map, Function.comp_def, Item.isTag_addLines]
    · simp only [List.map_map, Function.comp_def]
  rw [elide_eq_flatMap, elide_eq_flatMap, sameMarks, linesAfter_map, List.flatMap_map,
    List.map_flatMap]
  simp only [keepOne, Item.isNewline_addLines]

end Layout

namespace Template

/-- A template with its lines counted from further on. -/
def addLines (count : Nat) (template : Template) : Template :=
  ⟨Node.addLinesAll count template.nodes, template.warnings.map (Warning.addLines count)⟩

theorem addLines_addTo (count : Nat) (item : Item) (template : Template) :
    (item.addTo template).addLines count =
      (item.addLines count).addTo (template.addLines count) := by
  cases item with
  | text content => simp only [Item.addTo, addLines, Item.addLines, Node.addLinesAll_consText]
  | newline => simp only [Item.addTo, addLines, Item.addLines, Node.addLinesAll_consText]
  | tag meaning line =>
    cases meaning <;>
      simp [Item.addTo, addLines, Item.addLines, Node.addLinesAll, Node.addLines,
        Warning.addLines]

theorem addLines_addBlock (count : Nat) (kind : BlockKind) (name : String)
    (firstLine lastLine : Nat) (content following : Template) :
    (addBlock kind name firstLine lastLine content following).addLines count =
      addBlock kind name (firstLine + count) (lastLine + count) (content.addLines count)
        (following.addLines count) := by
  simp [addBlock, addLines, Node.addLinesAll, Node.addLines]

/-- What reading a block comes to, with lines counted from further on. Where no block is open
there is no closing tag whose line would change. -/
def shift (count : Nat) (enclosing : Option (String × Nat)) :
    Except StructuralError (Template × Nat × List Item) →
      Except StructuralError (Template × Nat × List Item)
  | .error error => .error (error.addLines count)
  | .ok (template, line, rest) =>
    .ok (template.addLines count, if enclosing.isSome then line + count else line,
      rest.map (Item.addLines count))

/-- Reading the `outcome` of a block commutes with counting lines from further on. -/
theorem outcome_addLines (count : Nat) (enclosing : Option (String × Nat)) (items : List Item) :
    outcome (enclosing.map fun (name, line) => (name, line + count))
        (items.map (Item.addLines count)) =
      shift count enclosing (outcome enclosing items) := by
  match items with
  | [] =>
    rw [List.map_nil, outcome_nil, outcome_nil]
    cases enclosing <;> rfl
  | .tag (.openBlock kind name) line :: following =>
    have inner := outcome_addLines count (some (name, line)) following
    rw [Option.map_some] at inner
    rw [List.map_cons, Item.addLines, outcome_openBlock, outcome_openBlock, inner]
    cases read : outcome (some (name, line)) following with
    | error => rfl
    | ok result =>
      obtain ⟨content, closingLine, after⟩ := result
      have shorter := length_lt_of_outcome read
      simp only [shift, Option.isSome_some, if_true]
      rw [outcome_addLines count enclosing after]
      cases outcome enclosing after with
      | error => rfl
      | ok later => simp only [shift, Except.map, addLines_addBlock]
  | .tag (.closeBlock found) line :: following =>
    rw [List.map_cons, Item.addLines, outcome_closeBlock, outcome_closeBlock]
    cases enclosing with
    | none => rfl
    | some opened =>
      obtain ⟨expected, openedAt⟩ := opened
      simp only [Option.map_some]
      split <;> rfl
  | .tag .empty line :: following =>
    rw [List.map_cons, Item.addLines, outcome_emptyTag, outcome_emptyTag]
    rfl
  | .text _ :: following | .newline :: following | .tag (.partialCall _) _ :: following
  | .tag (.interpolation _ _) _ :: following | .tag (.comment _) _ :: following
  | .tag (.pragma _) _ :: following =>
    rw [List.map_cons, outcome_complete rfl, outcome_complete rfl,
      outcome_addLines count enclosing following]
    cases outcome enclosing following with
    | error => rfl
    | ok later => simp only [shift, Except.map, addLines_addTo]
  termination_by items.length

/-- Reading a template with `ofTokens` commutes with counting lines from further on. -/
theorem ofTokens_addLines (count : Nat) (tokens : List Token) :
    ofTokens (tokens.map (Token.addLines count)) =
      ((ofTokens tokens).map (addLines count)).mapError (StructuralError.addLines count) := by
  have sameItems : (tokens.map (Token.addLines count)).map Item.ofToken =
      (tokens.map Item.ofToken).map (Item.addLines count) := by
    simp only [List.map_map, Function.comp_def, Item.ofToken_addLines]
  have read := outcome_addLines count none (Layout.elide (tokens.map Item.ofToken))
  rw [Option.map_none] at read
  rw [ofTokens_eq, ofTokens_eq, sameItems, Layout.elide_addLines, ofItems, ofItems, read]
  cases outcome none (Layout.elide (tokens.map Item.ofToken)) <;> rfl

end Template

end Mustache
