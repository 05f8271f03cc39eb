import Mathlib.Algebra.Order.BigOperators.Group.List
import Mathlib.Algebra.Order.Group.Nat
import Mustache.Proofs.Compile.LiteralText
import Mustache.Proofs.Template.CarriageReturns

/-!
# Templates whose lines end with a carriage return and a newline

What a template compiles to when its newlines become pairs of a carriage return and a newline. The
literals keep the carriage returns. The lines with an end are all kept, so the two programs differ
by more than these pairs exactly if a line with an end stands alone in the one without them.
-/

namespace Mustache

namespace Text

theorem toList_withReturns (text : String) :
    (withReturns text).toList = returned text.toList :=
  String.toList_ofList

theorem withReturns_append (first second : String) :
    withReturns (first ++ second) = withReturns first ++ withReturns second := by
  rw [← String.toList_inj, toList_withReturns, String.toList_append, String.toList_append,
    toList_withReturns, toList_withReturns, returned_append]

/-- Text in which no line ends is left alone by `withReturns`. -/
theorem withReturns_of_unbroken {text : String} (unbroken : '\n' ∉ text.toList) :
    withReturns text = text := by
  rw [← String.toList_inj, toList_withReturns, returned_of_unbroken unbroken]

/-- No text vanishes in `withReturns`, and none appears. -/
theorem withReturns_eq_empty_iff (text : String) : withReturns text = "" ↔ text = "" := by
  constructor
  · intro nothing
    have empty : returned text.toList = [] := by
      rw [← toList_withReturns, nothing]
      rfl
    cases characters : text.toList with
    | nil => exact String.toList_eq_nil_iff.1 characters
    | cons character rest =>
      rw [characters, returned, List.flatMap_cons] at empty
      have none := (List.append_eq_nil_iff.1 empty).1
      split at none <;> cases none
  · rintro rfl
    rfl

end Text

namespace Instruction

/-- An instruction with a carriage return before each line end that it writes. -/
def withReturns : Instruction → Instruction
  | .literal text => .literal (Text.withReturns text)
  | .interpolation path escaped => .interpolation path escaped
  | .openBlock kind path => .openBlock kind path
  | .closeBlock => .closeBlock
  | .partialCall name => .partialCall name

/-- Text joins what follows it by `consLiteral` before and after carriage returns are added. -/
theorem consLiteral_map_withReturns (content : String) (instructions : List Instruction) :
    consLiteral (Text.withReturns content) (instructions.map withReturns) =
      (consLiteral content instructions).map withReturns := by
  by_cases empty : content = ""
  · rw [empty]
    rfl
  · have present := mt (Text.withReturns_eq_empty_iff content).1 empty
    simp only [consLiteral, String.isEmpty_iff, empty, present, if_false]
    cases instructions with
    | nil => rfl
    | cons instruction rest =>
      cases instruction with
      | literal text => simp only [List.map_cons, withReturns, Text.withReturns_append]
      | interpolation | openBlock | closeBlock | partialCall => rfl

/-- What items with carriage returns before their line ends do (`Returned`) is what they do without
them, but for the carriage returns that are written. -/
theorem ofItems_of_returned {items others : List Item} (returned : Returned items others) :
    ofItems others = (ofItems items).map withReturns := by
  have lineEnd : Text.withReturns "\n" = "\r" ++ "\n" := rfl
  induction returned with
  | nil => rfl
  | text unbroken _ inductionHypothesis =>
    rw [ofItems, ofItems, inductionHypothesis, ← consLiteral_map_withReturns,
      Text.withReturns_of_unbroken unbroken]
  | @tag meaning line rest others _ inductionHypothesis =>
    rw [ofItems, ofItems, inductionHypothesis, List.map_append]
    cases meaning <;> rfl
  | newline _ inductionHypothesis =>
    rw [ofItems, ofItems, ofItems, inductionHypothesis, ← consLiteral_map_withReturns, lineEnd,
      consLiteral_consLiteral]
  | textNewline unbroken _ inductionHypothesis =>
    rw [ofItems, ofItems, ofItems, ofItems, inductionHypothesis, ← consLiteral_map_withReturns,
      ← consLiteral_map_withReturns, lineEnd, Text.withReturns_of_unbroken unbroken,
      consLiteral_consLiteral, consLiteral_consLiteral, String.append_assoc]

/-- How many line ends instructions write by themselves, in their `literalText`. -/
def lineEnds (instructions : List Instruction) : Nat :=
  (literalText instructions).toList.count '\n'

/-- The carriage returns that `withReturns` adds are no line ends. -/
theorem lineEnds_map_withReturns (instructions : List Instruction) :
    lineEnds (instructions.map withReturns) = lineEnds instructions := by
  have sameText : literalText (instructions.map withReturns) =
      Text.withReturns (literalText instructions) := by
    induction instructions with
    | nil => rfl
    | cons instruction rest inductionHypothesis =>
      have split : ∀ (instruction : Instruction) (rest : List Instruction),
          literalText (instruction :: rest) = literalText [instruction] ++ literalText rest :=
        fun instruction rest => literalText_append [instruction] rest
      rw [List.map_cons, split, split instruction, Text.withReturns_append, inductionHypothesis]
      congr 1
      cases instruction with
      | literal text => simp [literalText, withReturns, String.join_cons]
      | interpolation | openBlock | closeBlock | partialCall => rfl
  rw [lineEnds, sameText, Text.toList_withReturns, Text.count_returned, lineEnds]

/-- The instructions `ofItems` of some items write as many line ends as there are among the items.
-/
theorem lineEnds_ofItems {items : List Item}
    (unbroken : ∀ content, .text content ∈ items → '\n' ∉ content.toList) :
    lineEnds (ofItems items) = items.countP Item.isNewline := by
  rw [lineEnds, literalText_ofItems]
  induction items with
  | nil => rfl
  | cons item rest inductionHypothesis =>
    have following := inductionHypothesis fun content member =>
      unbroken content (List.mem_cons_of_mem _ member)
    rw [List.map_cons, String.join_cons, String.toList_append, List.count_append, following]
    cases item with
    | text content =>
      rw [Item.literalText, List.count_eq_zero_of_not_mem (unbroken content List.mem_cons_self),
        Nat.zero_add, List.countP_cons_of_neg (by simp [Item.isNewline])]
    | newline =>
      rw [List.countP_cons_of_pos rfl, Nat.add_comm]
      rfl
    | tag =>
      rw [List.countP_cons_of_neg (by simp [Item.isNewline])]
      exact Nat.zero_add _

end Instruction

namespace Layout

/-- No line end is `kept` of a line that stands alone. -/
theorem countP_kept_of_standsAlone {line : List (Item × Option BlockTag)}
    (alone : StandsAlone line) : (kept line).countP Item.isNewline = 0 := by
  rw [kept, if_pos alone, List.countP_eq_zero]
  intro item member isEnd
  have isTag := (List.mem_filter.1 member).2
  cases item with
  | text | newline => cases isTag
  | tag => cases isEnd

/-- Of a line with an end no fewer line ends are left if all of it is kept (`keptIfEnded`). -/
theorem countP_kept_le (line : List (Item × Option BlockTag)) :
    (kept line).countP Item.isNewline ≤ (keptIfEnded line).countP Item.isNewline := by
  by_cases alone : StandsAlone line
  · rw [countP_kept_of_standsAlone alone]
    exact Nat.zero_le _
  · unfold keptIfEnded
    split
    · rw [kept, if_neg alone]
    · exact Nat.le_refl _

/-- If a line with an end stands alone, `keptIfEnded` leaves more line ends than `kept`. -/
theorem countP_flatMap_kept_lt {lines : List (List (Item × Option BlockTag))}
    {line : List (Item × Option BlockTag)} (member : line ∈ lines) (alone : StandsAlone line)
    (ended : ∃ attached ∈ line, attached.1 = .newline) :
    (lines.flatMap kept).countP Item.isNewline <
      (lines.flatMap keptIfEnded).countP Item.isNewline := by
  rw [List.countP_flatMap, List.countP_flatMap]
  refine List.sum_lt_sum _ _ (fun other _ => countP_kept_le other) ⟨line, member, ?_⟩
  obtain ⟨attached, found, isEnd⟩ := ended
  simp only [Function.comp_apply]
  rw [countP_kept_of_standsAlone alone, keptIfEnded, if_pos ⟨attached, found, isEnd⟩,
    List.countP_pos_iff]
  exact ⟨attached.1, List.mem_map_of_mem found, by rw [isEnd]; rfl⟩

end Layout

namespace Instruction

open Layout in
/-- Keeping the lines with an end (`keptIfEnded`) makes no difference to what is done exactly if
none of them stands alone. -/
theorem ofItems_keptIfEnded_iff {items others : List Item} (returned : Returned items others)
    (tags : List BlockTag) :
    (ofItems ((attachedLines items tags).flatMap keptIfEnded)).map withReturns =
        (ofItems ((attachedLines items tags).flatMap kept)).map withReturns ↔
      ∀ line ∈ attachedLines items tags, StandsAlone line →
        ∀ attached ∈ line, attached.1 ≠ .newline := by
  constructor
  · intro same line member alone attached found isEnd
    have unbroken : ∀ content, .text content ∈ (attachedLines items tags).flatMap kept →
        '\n' ∉ content.toList := by
      intro content inKept
      obtain ⟨other, otherMember, inLine⟩ := List.mem_flatMap.1 inKept
      exact returned.unbroken (mem_of_mem_attachedLines otherMember (mem_of_mem_kept inLine))
    have unbrokenEnded : ∀ content,
        .text content ∈ (attachedLines items tags).flatMap keptIfEnded →
          '\n' ∉ content.toList := by
      intro content inKept
      obtain ⟨other, otherMember, inLine⟩ := List.mem_flatMap.1 inKept
      exact returned.unbroken
        (mem_of_mem_attachedLines otherMember (mem_of_mem_keptIfEnded inLine))
    have fewer := countP_flatMap_kept_lt member alone ⟨attached, found, isEnd⟩
    rw [← lineEnds_ofItems unbroken, ← lineEnds_ofItems unbrokenEnded,
      ← lineEnds_map_withReturns, ← same, lineEnds_map_withReturns] at fewer
    exact Nat.lt_irrefl _ fewer
  · intro noneEnded
    have sameLines : ∀ line ∈ attachedLines items tags, keptIfEnded line = kept line := by
      intro line member
      unfold keptIfEnded
      split
      · next ended =>
        obtain ⟨attached, found, isEnd⟩ := ended
        have notAlone : ¬ StandsAlone line :=
          fun alone => noneEnded line member alone attached found isEnd
        rw [kept, if_neg notAlone]
      · rfl
    rw [List.flatMap_def, List.flatMap_def, List.map_congr_left sameLines]

end Instruction

open Layout in
/-- Tokens that `ofTokens` reads as a template are read as one with carriage returns as well
(`Returned`), with the same warnings. Of the lines with an end all is kept then. -/
theorem Template.ofTokens_of_returned {tokens others : List Token} {template : Template}
    (read : ofTokens tokens = .ok template)
    (returned : Returned (tokens.map Item.ofToken) (others.map Item.ofToken)) :
    ∃ other, ofTokens others = .ok other ∧ other.warnings = template.warnings ∧
      Instruction.ofNodes template.nodes =
        Instruction.ofItems ((attachedLines (tokens.map Item.ofToken)
          (Node.blockTags template.nodes)).flatMap kept) ∧
      Instruction.ofNodes other.nodes =
        (Instruction.ofItems ((attachedLines (tokens.map Item.ofToken)
          (Node.blockTags template.nodes)).flatMap keptIfEnded)).map Instruction.withReturns := by
  have passed : (ofTokens others).map (fun _ => ()) = (ofTokens tokens).map fun _ => () := by
    rw [← run_tokens, ← run_tokens, Token.filterMap_tag?, Token.filterMap_tag?,
      returned.filterMap_eq fun _ => Item.tag?_of_isTag_eq_false]
  rw [read] at passed
  cases otherRead : ofTokens others with
  | error =>
    rw [otherRead] at passed
    cases passed
  | ok other =>
    have spelled := spelled_of_ofTokens read
    have otherSpelled := spelled_of_ofTokens otherRead
    have paired := spelled.paired.of_elide
    have otherPaired : Paired (others.map Item.ofToken) (Node.blockTags template.nodes) := by
      refine paired.of_filter_eq ?_
      rw [← List.filterMap_eq_filter,
        returned.filterMap_eq guard_isControl_of_isTag_eq_false]
    refine ⟨other, rfl, ?_, ?_, ?_⟩
    · rw [(itemsOf_of_ofTokens otherRead).2, (itemsOf_of_ofTokens read).2,
        returned.filterMap_eq Item.warning?_of_isTag_eq_false]
    · rw [spelled.ofNodes_eq, elide_eq_flatMap_kept paired]
    · rw [otherSpelled.ofNodes_eq, elide_eq_flatMap_kept otherPaired]
      exact Instruction.ofItems_of_returned
        (returned_flatMap_kept (returned.forall₂_attachedLines _))

open Layout in
/-- A template whose tags hold no line end compiles as well when each of its newlines is made a pair
of a carriage return and a newline, with the same warnings. A carriage return is no blank, so every
line with an end is kept then, with its blanks and with both characters of its end; only a last
line without an end can still stand alone. So the instructions are those of the template, but for
the pairs in the literals, exactly if no line with an end stands alone in the template. -/
theorem compileAlone_withReturns {delimiters : Delimiters} {disk : Disk} {source : String}
    {tokens : List Token} {compiled : Compiled}
    (compiles : ({ delimiters } : Compiler).compileAlone disk source = .ok compiled)
    (scanned : Token.scan delimiters source = .ok tokens)
    (tagsUnbroken : ∀ body line, Token.tag body line ∈ tokens → '\n' ∉ body.toList) :
    ∃ template other,
      Template.ofTokens tokens = .ok template ∧
      ({ delimiters } : Compiler).compileAlone disk (Text.withReturns source) = .ok other ∧
      other.warnings = compiled.warnings ∧
      let lines := attachedLines (tokens.map Item.ofToken) (Node.blockTags template.nodes)
      other.shared.program.instructions.toList =
          (Instruction.ofItems (lines.flatMap keptIfEnded)).map Instruction.withReturns ∧
        (other.shared.program.instructions.toList =
            compiled.shared.program.instructions.toList.map Instruction.withReturns ↔
          ∀ line ∈ lines, StandsAlone line → ∀ attached ∈ line, attached.1 ≠ .newline) := by
  obtain ⟨template, parsed, instructions, warnings⟩ := Compiler.parse_of_compileAlone compiles
  have read := (Template.parse_of_scan scanned).symm.trans parsed
  obtain ⟨canonical, written⟩ := Token.canonical_of_scan scanned
  obtain ⟨others, otherCanonical, otherWritten, returned⟩ :=
    canonical.exists_returned tagsUnbroken
  have otherScanned : Token.scan delimiters (Text.withReturns source) = .ok others := by
    rw [Token.scan, Token.scanFrom_eq_ok_iff, Text.toList_withReturns, ← written, ← otherWritten]
    exact otherCanonical.scanned
  obtain ⟨otherTemplate, otherRead, sameWarnings, nodes, otherNodes⟩ :=
    Template.ofTokens_of_returned read returned
  have silent : ({ delimiters } : Compiler).dumpDirectory = none := rfl
  obtain ⟨other, otherCompiles, otherInstructions, otherWarnings⟩ :=
    Compiler.compileAlone_of_parse silent disk
      ((Template.parse_of_scan otherScanned).trans otherRead)
  refine ⟨template, other, read, otherCompiles, ?_, ?_, ?_⟩
  · rw [otherWarnings, sameWarnings, warnings]
  · rw [otherInstructions, otherNodes]
  · rw [otherInstructions, instructions, otherNodes, nodes]
    exact Instruction.ofItems_keptIfEnded_iff returned _

/-- A block whose first line has text on it and whose last line has no end: the last line stands
alone with and without carriage returns, and the programs correspond. -/
theorem compileAlone_withReturns_last :
    ∃ compiled other : Compiled,
      ({} : Compiler).compileAlone default "\x7b\x7b#a\x7d\x7dx\n \x7b\x7b/a\x7d\x7d" =
        .ok compiled ∧
      ({} : Compiler).compileAlone default
        (Text.withReturns "\x7b\x7b#a\x7d\x7dx\n \x7b\x7b/a\x7d\x7d") = .ok other ∧
      compiled.shared.program.instructions.toList =
        [.openBlock .iterable "a", .literal "x\n", .closeBlock] ∧
      other.shared.program.instructions.toList =
        compiled.shared.program.instructions.toList.map Instruction.withReturns := by
  have silent : ({} : Compiler).dumpDirectory = none := rfl
  obtain ⟨compiled, compiles, instructions, _⟩ :=
    Compiler.exists_compileAlone silent default
      (show (Template.parse .standard
          "\x7b\x7b#a\x7d\x7dx\n \x7b\x7b/a\x7d\x7d").toOption.map
          (fun template => (Instruction.ofNodes template.nodes, template.warnings)) =
        some ([.openBlock .iterable "a", .literal "x\n", .closeBlock], []) by decide +kernel)
  have scanned : Token.scan .standard "\x7b\x7b#a\x7d\x7dx\n \x7b\x7b/a\x7d\x7d" =
      .ok [.tag "#a" 1, .text "x", .newline, .text " ", .tag "/a" 2] := by decide +kernel
  have tagsUnbroken : ∀ body line, Token.tag body line ∈
      [.tag "#a" 1, .text "x", .newline, .text " ", .tag "/a" 2] → '\n' ∉ body.toList := by
    intro body line member
    obtain ⟨rfl, _⟩ | ⟨rfl, _⟩ : body = "#a" ∧ line = 1 ∨ body = "/a" ∧ line = 2 := by
      simpa using member
    · decide
    · decide
  obtain ⟨template, other, read, otherCompiles, _, _, corresponds⟩ :=
    compileAlone_withReturns compiles scanned tagsUnbroken
  have blockTags : (Template.ofTokens
      [.tag "#a" 1, .text "x", .newline, .text " ", .tag "/a" 2]).toOption.map
        (fun template => Node.blockTags template.nodes) =
      some [.opening .iterable "a" 1 2, .closing "a" 1 2] := by decide +kernel
  rw [read] at blockTags
  refine ⟨compiled, other, compiles, otherCompiles, instructions, corresponds.2 ?_⟩
  rw [show Node.blockTags template.nodes = _ from Option.some_inj.1 blockTags]
  decide

/-- Where the lines of both tags of a block stand alone, they leave empty lines behind as soon as
lines end with a carriage return and a newline. -/
theorem compileAlone_withReturns_block :
    '\r' ∉ "\x7b\x7b#a\x7d\x7d\nx\n\x7b\x7b/a\x7d\x7d".toList ∧
    Token.scan .standard "\x7b\x7b#a\x7d\x7d\nx\n\x7b\x7b/a\x7d\x7d" =
      .ok [.tag "#a" 1, .newline, .text "x", .newline, .tag "/a" 3] ∧
    ∃ compiled other : Compiled,
      ({} : Compiler).compileAlone default "\x7b\x7b#a\x7d\x7d\nx\n\x7b\x7b/a\x7d\x7d" =
        .ok compiled ∧
      ({} : Compiler).compileAlone default
        (Text.withReturns "\x7b\x7b#a\x7d\x7d\nx\n\x7b\x7b/a\x7d\x7d") = .ok other ∧
      compiled.shared.program.instructions.toList.map Instruction.withReturns =
        [.openBlock .iterable "a", .literal "x\r\n", .closeBlock] ∧
      other.shared.program.instructions.toList =
        [.openBlock .iterable "a", .literal "\r\nx\r\n", .closeBlock] ∧
      other.shared.program.instructions.toList ≠
        compiled.shared.program.instructions.toList.map Instruction.withReturns := by
  refine ⟨by decide, by decide +kernel, ?_⟩
  have silent : ({} : Compiler).dumpDirectory = none := rfl
  obtain ⟨compiled, compiles, instructions, _⟩ :=
    Compiler.exists_compileAlone silent default
      (show (Template.parse .standard
          "\x7b\x7b#a\x7d\x7d\nx\n\x7b\x7b/a\x7d\x7d").toOption.map
          (fun template => (Instruction.ofNodes template.nodes, template.warnings)) =
        some ([.openBlock .iterable "a", .literal "x\n", .closeBlock], []) by decide +kernel)
  obtain ⟨other, otherCompiles, otherInstructions, _⟩ :=
    Compiler.exists_compileAlone silent default
      (show (Template.parse .standard
          (Text.withReturns "\x7b\x7b#a\x7d\x7d\nx\n\x7b\x7b/a\x7d\x7d")).toOption.map
          (fun template => (Instruction.ofNodes template.nodes, template.warnings)) =
        some ([.openBlock .iterable "a", .literal "\r\nx\r\n", .closeBlock], [])
        by decide +kernel)
  refine ⟨compiled, other, compiles, otherCompiles, ?_, otherInstructions, ?_⟩
  · rw [instructions]
    rfl
  · rw [instructions, otherInstructions]
    decide

end Mustache
