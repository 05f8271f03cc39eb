import Mustache.Proofs.Compile.Alone
import Mustache.Proofs.Program.Items
import Mustache.Proofs.Template.StandaloneLines

/-!
# What becomes of literal text

A compiled template keeps the text of its source between the tags byte for byte, except for the
blanks and the line ends of the lines that stand alone. `Layout.StandsAlone` says which lines
these are by the tree of the template: the pass that leaves them out pairs tags without looking
at their names, and it finds the same pairs.
-/

namespace Mustache

namespace Instruction

/-- The text of all literals among instructions, put together. -/
def literalText (instructions : List Instruction) : String :=
  String.join (instructions.filterMap fun
    | .literal text => some text
    | _ => none)

theorem literalText_append (first second : List Instruction) :
    literalText (first ++ second) = literalText first ++ literalText second := by
  rw [literalText, List.filterMap_append, String.join_append]
  rfl

/-- Text that `consLiteral` puts in front of instructions is in front of their `literalText`. -/
theorem literalText_consLiteral (content : String) (instructions : List Instruction) :
    literalText (consLiteral content instructions) = content ++ literalText instructions := by
  unfold consLiteral
  split
  · next empty =>
    rw [String.isEmpty_iff] at empty
    rw [empty, String.empty_append]
  · cases instructions with
    | nil => simp [literalText]
    | cons instruction rest =>
      cases instruction with
      | literal text => simp [literalText, String.append_assoc]
      | interpolation | openBlock | closeBlock | partialCall => simp [literalText]

end Instruction

/-- The literal text of an item. -/
def Item.literalText : Item → String
  | .text content => content
  | .newline => "\n"
  | .tag _ _ => ""

/-- The instructions `ofItems` of some items write the text of the items. -/
theorem Instruction.literalText_ofItems (items : List Item) :
    literalText (ofItems items) = String.join (items.map Item.literalText) := by
  induction items with
  | nil => rfl
  | cons item rest inductionHypothesis =>
    rw [List.map_cons, String.join_cons, ← inductionHypothesis]
    cases item with
    | text content => rw [ofItems, literalText_consLiteral, Item.literalText]
    | newline => rw [ofItems, literalText_consLiteral, Item.literalText]
    | tag meaning line =>
      have noText : literalText meaning.instruction?.toList = "" := by cases meaning <;> rfl
      rw [ofItems, literalText_append, noText, Item.literalText]

/-- A template's instructions have the `literalText` of its items. -/
theorem Template.Spelled.literalText_eq {items : List Item} {template : Template}
    (spelled : Spelled items template) :
    Instruction.literalText (Instruction.ofNodes template.nodes) =
      String.join (items.map Item.literalText) := by
  rw [spelled.ofNodes_eq, Instruction.literalText_ofItems]

namespace Layout

/-- A line stands alone if its text is blank, its tags open and close blocks, and one of them
has its partner on another line. -/
structure StandsAlone (line : List (Item × Option BlockTag)) : Prop where
  /-- The text consists of spaces and tabs. -/
  blank : ∀ content tag, (.text content, tag) ∈ line →
    ∀ character ∈ content.toList, character = ' ' ∨ character = '\t'
  /-- Every tag opens or closes a block. -/
  control : ∀ meaning number tag, (.tag meaning number, tag) ∈ line →
    (∃ kind name, meaning = .openBlock kind name) ∨ ∃ name, meaning = .closeBlock name
  /-- A tag has its partner on another line. -/
  spans : ∃ meaning number tag, (.tag meaning number, some tag) ∈ line ∧
    tag.line ≠ tag.partnerLine

theorem fitsStandalone_text (content : String) :
    (Item.text content).fitsStandalone = true ↔
      ∀ character ∈ content.toList, character = ' ' ∨ character = '\t' := by
  simp [Item.fitsStandalone, Text.isLineBlank]

theorem fitsStandalone_tag (meaning : Tag) (number : Nat) :
    (Item.tag meaning number).fitsStandalone = true ↔
      (∃ kind name, meaning = .openBlock kind name) ∨ ∃ name, meaning = .closeBlock name := by
  cases meaning <;> simp [Item.fitsStandalone, Tag.isControl]

/-- The marks of a line tell whether it stands alone. -/
theorem standsAlone_iff (line : List (Item × Option BlockTag)) :
    standsAlone (line.map fun attached => (attached.1, spansLines attached)) = true ↔
      StandsAlone line := by
  simp only [standsAlone, List.all_map, List.any_map, Function.comp_apply, Bool.and_eq_true,
    List.all_eq_true, List.any_eq_true]
  constructor
  · rintro ⟨fits, ⟨item, tag⟩, member, isTag, spans⟩
    refine ⟨?_, ?_, ?_⟩
    · intro content attached found
      exact (fitsStandalone_text content).1 (fits _ found)
    · intro meaning number attached found
      exact (fitsStandalone_tag meaning number).1 (fits _ found)
    · cases item with
      | text | newline => cases isTag
      | tag meaning number =>
        obtain ⟨blockTag, rfl, different⟩ := (Option.any_eq_true _ _).1 spans
        exact ⟨meaning, number, blockTag, member, by simpa [BlockTag.spansLines] using different⟩
  · rintro ⟨blank, control, meaning, number, tag, member, different⟩
    refine ⟨?_, _, member, rfl, ?_⟩
    · rintro ⟨item, attached⟩ found
      cases item with
      | text content => exact (fitsStandalone_text content).2 (blank content attached found)
      | newline => rfl
      | tag other otherNumber =>
        exact (fitsStandalone_tag other otherNumber).2 (control other otherNumber attached found)
    · simpa [spansLines, BlockTag.spansLines] using different

instance (line : List (Item × Option BlockTag)) : Decidable (StandsAlone line) :=
  decidable_of_iff _ (standsAlone_iff line)

/-- The text of a line that reaches the output of a template: all of it, or nothing if the line
stands alone. -/
def keptText (line : List (Item × Option BlockTag)) : String :=
  if StandsAlone line then "" else String.join (line.map fun attached => attached.1.literalText)

/-- What `keepMarked` leaves of a line has the text that is kept of it (`keptText`). -/
theorem join_keepMarked (line : List (Item × Option BlockTag)) :
    String.join ((keepMarked (line.map fun attached => (attached.1, spansLines attached))).map
      Item.literalText) = keptText line := by
  unfold keepMarked keptText
  by_cases alone : StandsAlone line
  · rw [if_pos ((standsAlone_iff line).2 alone), if_pos alone]
    have noText : ∀ item ∈ ((line.map fun attached =>
        (attached.1, spansLines attached)).map (·.1)).filter Item.isTag,
        item.literalText = "" := by
      intro item member
      have isTag := (List.mem_filter.1 member).2
      cases item with
      | text | newline => cases isTag
      | tag => rfl
    rw [List.map_congr_left noText, ← String.toList_inj, String.toList_join]
    simp
  · rw [if_neg (mt (standsAlone_iff line).1 alone), if_neg alone, List.map_map, List.map_map]
    rfl

/-- The lines of items, with the block tag that each item is. -/
def attachedLines (items : List Item) (tags : List BlockTag) :
    List (List (Item × Option BlockTag)) :=
  linesAfter (fun (item, _) => item.isNewline) (attach items tags)

/-- Of paired items `elide` keeps the text of the lines that do not stand alone. -/
theorem join_elide {items : List Item} {tags : List BlockTag} (paired : Paired items tags) :
    String.join ((elide items).map Item.literalText) =
      String.join ((attachedLines items tags).map keptText) := by
  rw [elide_eq_flatMap, marked_eq_of_paired paired, linesAfter_map, ← attachedLines]
  induction attachedLines items tags with
  | nil => rfl
  | cons line rest inductionHypothesis =>
    rw [List.map_cons, List.flatMap_cons, List.map_append, String.join_append,
      inductionHypothesis, List.map_cons, String.join_cons, join_keepMarked]

end Layout

/-- The literals of a compiled template (`Instruction.literalText`) are the text of the lines of its
source without those that stand alone. The tags among the tokens are those of the tree's blocks, in
order, so each line is judged by the partners that its tags have in the tree. -/
theorem literalText_of_compileAlone {compiler : Compiler} {disk : Disk} {source : String}
    {compiled : Compiled} (compiles : compiler.compileAlone disk source = .ok compiled) :
    ∃ tokens template,
      Token.scan compiler.delimiters source = .ok tokens ∧
      Template.ofTokens tokens = .ok template ∧
      (tokens.map Item.ofToken).filter Item.isControl =
        (Node.blockTags template.nodes).map (fun tag => .tag tag.meaning tag.line) ∧
      Instruction.literalText compiled.shared.program.instructions.toList =
        String.join ((Layout.attachedLines (tokens.map Item.ofToken)
          (Node.blockTags template.nodes)).map Layout.keptText) := by
  obtain ⟨template, parsed, instructions, _⟩ := Compiler.parse_of_compileAlone compiles
  cases scanned : Token.scan compiler.delimiters source with
  | error =>
    rw [Template.parse, scanned] at parsed
    cases parsed
  | ok tokens =>
    rw [Template.parse, scanned] at parsed
    have read : Template.ofTokens tokens = .ok template := parsed
    have spelled := Template.spelled_of_ofTokens read
    have paired := spelled.paired.of_elide
    refine ⟨tokens, template, rfl, read, paired.filter_eq, ?_⟩
    rw [instructions, spelled.literalText_eq, Layout.join_elide paired]

/-- Of a block over three lines the middle one is kept: the line of the opening tag, with blanks
after it, and that of the closing tag stand alone. -/
theorem literalText_of_compileAlone_block :
    ∃ compiled tokens template,
      ({} : Compiler).compileAlone default "\x7b\x7b#a\x7d\x7d \n x\n\x7b\x7b/a\x7d\x7d\n" =
          .ok compiled ∧
        Token.scan .standard "\x7b\x7b#a\x7d\x7d \n x\n\x7b\x7b/a\x7d\x7d\n" = .ok tokens ∧
        Template.ofTokens tokens = .ok template ∧
        Instruction.literalText compiled.shared.program.instructions.toList = " x\n" ∧
        String.join ((Layout.attachedLines (tokens.map Item.ofToken)
          (Node.blockTags template.nodes)).map Layout.keptText) = " x\n" := by
  have silent : ({} : Compiler).dumpDirectory = none := rfl
  obtain ⟨compiled, compiles, instructions, _⟩ := Compiler.exists_compileAlone silent default
    (show (Template.parse .standard "\x7b\x7b#a\x7d\x7d \n x\n\x7b\x7b/a\x7d\x7d\n").toOption.map
        (fun template => (Instruction.ofNodes template.nodes, template.warnings)) =
      some ([.openBlock .iterable "a", .literal " x\n", .closeBlock], []) by decide +kernel)
  obtain ⟨tokens, template, scanned, read, _, kept⟩ := literalText_of_compileAlone compiles
  have text : Instruction.literalText compiled.shared.program.instructions.toList = " x\n" := by
    rw [instructions]
    rfl
  exact ⟨compiled, tokens, template, compiles, scanned, read, text, kept.symm.trans text⟩

end Mustache
