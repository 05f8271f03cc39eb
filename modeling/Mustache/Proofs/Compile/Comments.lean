import Mathlib.Data.List.Forall2
import Mustache.Proofs.Compile.Alone
import Mustache.Proofs.Compile.FaithfulCache
import Mustache.Proofs.Template.Comments

/-!
# Remarks do not reach the program

Two texts whose tokens are the same but for what remarks say compile to one program, or are
refused for the same reason. The tags of both texts fit together or fail to at the same token, and
what is left of their lines is the same but for lines and remarks.
-/

namespace Mustache

/-- A fault with another line. -/
def StructuralError.atLine (line : Nat) : StructuralError → StructuralError
  | .mismatched expected found _ => .mismatched expected found line
  | .unexpectedClose found _ => .unexpectedClose found line
  | .unclosed name _ => .unclosed name line
  | .unterminated _ => .unterminated line
  | .unterminatedUnescaped _ => .unterminatedUnescaped line
  | .emptyTag _ => .emptyTag line

/-- Two readings come to results that belong together, or to faults that are the same but for their
lines, which belong together. -/
inductive ReadAlike {α β : Type} (related : α → β → Prop) (places : Nat → Nat → Prop) :
    Except StructuralError α → Except StructuralError β → Prop where
  | ok {result : α} {other : β} (same : related result other) :
      ReadAlike related places (.ok result) (.ok other)
  | error {fault other : StructuralError} (same : other = fault.atLine other.line)
      (placed : places fault.line other.line) :
      ReadAlike related places (.error fault) (.error other)

/-- Readings of which only the faults are known to belong together are `ReadAlike` if their results
belong together. -/
theorem ReadAlike.of_map {α β : Type} {related : α → β → Prop} {places : Nat → Nat → Prop}
    {reading : Except StructuralError α} {otherReading : Except StructuralError β}
    (alike : ReadAlike (fun _ _ => True) places (reading.map fun _ => ())
      (otherReading.map fun _ => ()))
    (same : ∀ result other, reading = .ok result → otherReading = .ok other →
      related result other) :
    ReadAlike related places reading otherReading := by
  cases reading with
  | error fault =>
    cases otherReading with
    | error otherFault =>
      cases alike with
      | error sameFault placed => exact .error sameFault placed
    | ok => cases alike
  | ok result =>
    cases otherReading with
    | error => cases alike
    | ok other => exact .ok (same result other rfl rfl)

namespace OpenTags

variable {places : Nat → Nat → Prop}

/-- Tags, or open blocks, of two texts that are the same but for their lines, which belong
together. -/
def Alike {α : Type} (view : α → α) (places : Nat → Nat → Prop) (entry other : α × Nat) : Prop :=
  view entry.1 = view other.1 ∧ places entry.2 other.2

/-- The same tag in two texts does the same to the same open blocks by `OpenTags.step`. -/
theorem step_alike {openTags otherOpen : OpenTags} {tag other : Tag × Nat}
    (sameOpen : List.Forall₂ (Alike id places) openTags otherOpen)
    (same : Alike Tag.bare places tag other) :
    ReadAlike (List.Forall₂ (Alike id places)) places (step openTags tag)
      (step otherOpen other) := by
  obtain ⟨meaning, line⟩ := tag
  obtain ⟨otherMeaning, otherLine⟩ := other
  obtain ⟨sameMeaning, placed⟩ := same
  dsimp only at sameMeaning placed
  cases meaning with
  | comment remark =>
    cases otherMeaning with
    | comment => exact .ok sameOpen
    | openBlock | closeBlock | partialCall | interpolation | pragma | empty => cases sameMeaning
  | openBlock kind name =>
    cases otherMeaning <;> cases sameMeaning
    exact .ok (.cons ⟨rfl, placed⟩ sameOpen)
  | closeBlock found =>
    cases otherMeaning <;> cases sameMeaning
    cases sameOpen with
    | nil => exact .error rfl placed
    | @cons opened otherOpened enclosing otherEnclosing sameOpened sameEnclosing =>
      obtain ⟨expected, openedAt⟩ := opened
      obtain ⟨otherExpected, otherOpenedAt⟩ := otherOpened
      obtain ⟨rfl : expected = otherExpected, _⟩ := sameOpened
      simp only [step]
      split
      · exact .ok sameEnclosing
      · exact .error rfl placed
  | partialCall | interpolation | pragma =>
    cases otherMeaning <;> cases sameMeaning
    exact .ok sameOpen
  | empty =>
    cases otherMeaning <;> cases sameMeaning
    exact .error rfl placed

/-- With the tags of two texts that are the same but for lines and remarks `OpenTags.run` does the
same. -/
theorem run_alike {openTags otherOpen : OpenTags} {tags others : List (Tag × Nat)}
    (sameOpen : List.Forall₂ (Alike id places) openTags otherOpen)
    (same : List.Forall₂ (Alike Tag.bare places) tags others) :
    ReadAlike (fun _ _ => True) places (run openTags tags) (run otherOpen others) := by
  induction same generalizing openTags otherOpen with
  | nil =>
    cases sameOpen with
    | nil => exact .ok trivial
    | @cons opened otherOpened _ _ sameOpened _ =>
      obtain ⟨name, line⟩ := opened
      obtain ⟨otherName, otherLine⟩ := otherOpened
      obtain ⟨rfl : name = otherName, placed⟩ := sameOpened
      exact .error rfl placed
  | cons sameTag _ inductionHypothesis =>
    rw [run_cons, run_cons]
    have stepped := step_alike sameOpen sameTag
    revert stepped
    generalize step openTags _ = left
    generalize step otherOpen _ = right
    intro stepped
    cases stepped with
    | ok sameAfter => exact inductionHypothesis sameAfter
    | error sameFault placed => exact .error sameFault placed

end OpenTags

namespace Token

/-- Two tokens are the same, but for the lines of tags; where both are remarks, their bodies may
differ. -/
inductive SameButRemark : Token → Token → Prop where
  | text {content : String} : SameButRemark (.text content) (.text content)
  | newline : SameButRemark .newline .newline
  | tag {body : String} {line otherLine : Nat} :
      SameButRemark (.tag body line) (.tag body otherLine)
  | comment {body otherBody remark otherRemark : String} {line otherLine : Nat}
      (isRemark : Tag.ofBody body = .comment remark)
      (otherIsRemark : Tag.ofBody otherBody = .comment otherRemark) :
      SameButRemark (.tag body line) (.tag otherBody otherLine)

/-- Two sequences of tokens have tags at the same position (`Token.tag?`), on these lines. -/
def TagsAt (first second : List Token) (line otherLine : Nat) : Prop :=
  ∃ (index : Nat) (body otherBody : String), first[index]? = some (.tag body line) ∧
    second[index]? = some (.tag otherBody otherLine)

/-- Tags at the same position (`TagsAt`) are so with a token more in front. -/
theorem TagsAt.cons {first second : List Token} {line otherLine : Nat} (token other : Token)
    (together : TagsAt first second line otherLine) :
    TagsAt (token :: first) (other :: second) line otherLine := by
  obtain ⟨index, body, otherBody, found, otherFound⟩ := together
  exact ⟨index + 1, body, otherBody, found, otherFound⟩

/-- Tokens that are the same but for remarks (`SameButRemark`) have the same tags but for remarks,
at the same positions. -/
theorem forall₂_tag? {first second : List Token} (same : List.Forall₂ SameButRemark first second) :
    List.Forall₂ (OpenTags.Alike Tag.bare (TagsAt first second)) (first.filterMap tag?)
      (second.filterMap tag?) := by
  induction same with
  | nil => exact .nil
  | @cons token other rest others sameToken _ inductionHypothesis =>
    have later : List.Forall₂ (OpenTags.Alike Tag.bare (TagsAt (token :: rest) (other :: others)))
        (rest.filterMap tag?) (others.filterMap tag?) :=
      inductionHypothesis.imp fun _ _ alike => ⟨alike.1, alike.2.cons token other⟩
    cases sameToken with
    | text | newline => exact later
    | tag => exact .cons ⟨rfl, 0, _, _, rfl, rfl⟩ later
    | @comment body otherBody _ _ line otherLine isRemark otherIsRemark =>
      refine .cons ⟨?_, 0, body, otherBody, rfl, rfl⟩ later
      simp only [isRemark, otherIsRemark, Tag.bare]

/-- Canonical tokens that are the same but for remarks have items that are `InStep`. -/
theorem exists_inStep {left right : Delimiters} {line other : Nat} {first second : List Token}
    (same : List.Forall₂ SameButRemark first second) (canonical : Canonical left line first)
    (otherCanonical : Canonical right other second) :
    ∃ last otherLast,
      InStep line other (first.map Item.ofToken) (second.map Item.ofToken) last otherLast := by
  induction same generalizing line other with
  | nil => exact ⟨line, other, .nil⟩
  | @cons token otherToken rest others sameToken _ inductionHypothesis =>
    cases sameToken with
    | newline =>
      obtain ⟨last, otherLast, following⟩ := inductionHypothesis
        (canonical_newline_iff.1 canonical) (canonical_newline_iff.1 otherCanonical)
      exact ⟨last, otherLast, .cons .newline following⟩
    | text =>
      obtain ⟨last, otherLast, following⟩ := inductionHypothesis
        (canonical_text_iff.1 canonical).2 (canonical_text_iff.1 otherCanonical).2
      exact ⟨last, otherLast, .cons .text following⟩
    | tag =>
      obtain ⟨rfl, _, afterTag⟩ := canonical_tag_iff.1 canonical
      obtain ⟨rfl, _, otherAfterTag⟩ := canonical_tag_iff.1 otherCanonical
      obtain ⟨last, otherLast, following⟩ := inductionHypothesis afterTag otherAfterTag
      exact ⟨last, otherLast, .cons .tag following⟩
    | comment isRemark otherIsRemark =>
      obtain ⟨rfl, _, afterTag⟩ := canonical_tag_iff.1 canonical
      obtain ⟨rfl, _, otherAfterTag⟩ := canonical_tag_iff.1 otherCanonical
      obtain ⟨last, otherLast, following⟩ := inductionHypothesis afterTag otherAfterTag
      rw [List.map_cons, List.map_cons, Item.ofToken, Item.ofToken, isRemark, otherIsRemark]
      exact ⟨last, otherLast, .cons .comment following⟩

end Token

/-- Canonical tokens that are the same but for remarks are read by `ofTokens` as trees that do the
same, or are refused for the same reason. -/
theorem Template.ofTokens_alike {left right : Delimiters} {first second : List Token}
    (same : List.Forall₂ Token.SameButRemark first second)
    (canonical : Token.Canonical left 1 first) (otherCanonical : Token.Canonical right 1 second) :
    ReadAlike (fun template other =>
        Instruction.ofNodes other.nodes = Instruction.ofNodes template.nodes)
      (Token.TagsAt first second) (ofTokens first) (ofTokens second) := by
  have runs := OpenTags.run_alike .nil (Token.forall₂_tag? same)
  rw [run_tokens, run_tokens] at runs
  refine runs.of_map fun template other read otherRead => ?_
  have spelled := spelled_of_ofTokens read
  have otherSpelled := spelled_of_ofTokens otherRead
  have paired := spelled.paired.of_elide
  obtain ⟨last, otherLast, inStep⟩ := Token.exists_inStep same canonical otherCanonical
  obtain ⟨otherTags, otherPaired, alike⟩ := paired.exists_alike inStep
  rw [spelled.ofNodes_eq, otherSpelled.ofNodes_eq, ← Instruction.ofItems_bare,
    ← Instruction.ofItems_bare (Layout.elide (first.map Item.ofToken)),
    Layout.elide_eq_flatMap_placeMarks paired, Layout.elide_eq_flatMap_placeMarks otherPaired,
    alike.flatMap_keepMarked]

namespace Compiler

/-- Writing down a program with `Compiler.dump` fails only where a directory is given, and then with
the path and the cause. -/
theorem exists_undumped {compiler : Compiler} {program : Program} {disk after : Disk}
    {error : CompileError} (failed : compiler.dump program disk = (.error error, after)) :
    compiler.dumpDirectory ≠ none ∧ ∃ path cause, error = .undumped path cause := by
  cases given : compiler.dumpDirectory with
  | none =>
    rw [dump, given] at failed
    cases failed
  | some directory =>
    refine ⟨Option.some_ne_none directory, ?_⟩
    have explained : ∀ {path : String} {action : FileAction Unit} {before last : Disk},
        explaining (CompileError.undumped path) action before = (.error error, last) →
          ∃ path cause, error = .undumped path cause := by
      intro path action before last found
      unfold explaining at found
      split at found
      · next cause _ _ =>
        cases found
        exact ⟨path, cause, rfl⟩
      · cases found
    rw [dump, given] at failed
    simp only [bind, ExceptT.bind, ExceptT.bindCont, ExceptT.mk, StateT.bind] at failed
    cases made : explaining (CompileError.undumped directory)
        (Disk.createDirectories directory) disk with
    | mk result next =>
      rw [made] at failed
      cases result with
      | error found =>
        cases failed
        exact explained made
      | ok => exact explained failed

/-- Looking up or building the program of a tree (`lookupOrBuildWith`) fails only where its text
form is to be written down. -/
theorem exists_undumped_of_lookupOrBuildWith {compiler : Compiler} {nodes : List Node}
    {cache cacheAfter : ProgramCache} {disk diskAfter : Disk} {error : CompileError}
    (failed : ProgramCache.lookupOrBuildWith compiler.dump (Instruction.ofNodes nodes)
      (cache, disk) = (.error error, cacheAfter, diskAfter)) :
    compiler.dumpDirectory ≠ none ∧ ∃ path cause, error = .undumped path cause := by
  unfold ProgramCache.lookupOrBuildWith at failed
  simp only at failed
  split at failed
  · cases failed
  · obtain ⟨program, made, _⟩ := Program.exists_make_ofNodes nodes
    rw [Program.ofInstructions_of_make made] at failed
    cases dumped : compiler.dump program disk with
    | mk result after =>
      simp only [dumped] at failed
      cases result with
      | error found =>
        cases failed
        exact exists_undumped dumped
      | ok => cases failed

/-- A template that `Template.parse` can read compiles to what `lookupOrBuildWith` finds or builds
for its tree. -/
theorem compile_of_parse {compiler : Compiler} {source : String} {template : Template}
    {workshop : Workshop} {result : Except CompileError (SharedProgram × Bool)}
    {cache : ProgramCache} {disk : Disk}
    (parsed : Template.parse compiler.delimiters source = .ok template)
    (looked : ProgramCache.lookupOrBuildWith compiler.dump (Instruction.ofNodes template.nodes)
      (workshop.cache, workshop.disk) = (result, cache, disk)) :
    compiler.compile source workshop =
      (result.map fun (shared, _) => ⟨shared, template.warnings⟩, ⟨cache, disk⟩) := by
  unfold compile
  simp only [parsed, looked]
  cases result <;> rfl

/-- Compiling a text with `Compiler.compile` fails only for what is in the text, or because the text
form of its program cannot be written down. -/
theorem compile_eq_error {compiler : Compiler} {source : String} {workshop : Workshop}
    {error : CompileError}
    (failed : (compiler.compile source workshop).1 = .error error) :
    (∃ fault, error = .malformed fault) ∨ ∃ path cause, error = .undumped path cause := by
  cases parsed : Template.parse compiler.delimiters source with
  | error fault =>
    rw [compile, parsed] at failed
    cases failed
    exact .inl ⟨fault, rfl⟩
  | ok template =>
    rcases looked : ProgramCache.lookupOrBuildWith compiler.dump
      (Instruction.ofNodes template.nodes) (workshop.cache, workshop.disk) with ⟨found | _, _⟩
    · rw [compile_of_parse parsed looked] at failed
      cases failed
      exact .inr (exists_undumped_of_lookupOrBuildWith looked).2
    · rw [compile_of_parse parsed looked] at failed
      cases failed

/-- What a remark says has no influence on what a template compiles to. If two texts have the same
tokens but for what their remarks say (`Token.SameButRemark`), and so but for the lines of what
comes after a remark, one workshop makes the same program of both, with the same hash, and is left
in the same state. Or neither can be read, for the same reason, which names the same tags in both,
at the same position among the tokens and with the line that this tag has in each text. The only
other way to fail is that of writing down the program where a directory is given for that, and then
both fail alike. -/
theorem compile_sameButRemark {left right : Delimiters} {first second : String}
    {firstTokens secondTokens : List Token}
    (firstScanned : Token.scan left first = .ok firstTokens)
    (secondScanned : Token.scan right second = .ok secondTokens)
    (same : List.Forall₂ Token.SameButRemark firstTokens secondTokens)
    (dumpDirectory : Option String) (workshop : Workshop) :
    let compiled := (Compiler.mk left dumpDirectory).compile first workshop
    let otherCompiled := (Compiler.mk right dumpDirectory).compile second workshop
    (∃ shared warnings otherWarnings after,
      compiled = (.ok ⟨shared, warnings⟩, after) ∧
      otherCompiled = (.ok ⟨shared, otherWarnings⟩, after)) ∨
    (∃ fault otherFault,
      compiled = (.error (.malformed fault), workshop) ∧
      otherCompiled = (.error (.malformed otherFault), workshop) ∧
      otherFault = fault.atLine otherFault.line ∧
      Token.TagsAt firstTokens secondTokens fault.line otherFault.line) ∨
    ∃ path cause after, dumpDirectory ≠ none ∧
      compiled = (.error (.undumped path cause), after) ∧
      otherCompiled = (.error (.undumped path cause), after) := by
  have canonical := (Token.canonical_of_scan firstScanned).1
  have otherCanonical := (Token.canonical_of_scan secondScanned).1
  have parsed := Template.parse_of_scan firstScanned
  have otherParsed := Template.parse_of_scan secondScanned
  have alike := Template.ofTokens_alike same canonical otherCanonical
  generalize Template.ofTokens firstTokens = reading at alike parsed
  generalize Template.ofTokens secondTokens = otherReading at alike otherParsed
  cases alike with
  | error sameFault placed =>
    exact Or.inr (Or.inl ⟨_, _, compile_of_parse_error parsed workshop,
      compile_of_parse_error otherParsed workshop, sameFault, placed⟩)
  | @ok template other sameInstructions =>
    rcases looked : ProgramCache.lookupOrBuildWith (Compiler.mk left dumpDirectory).dump
      (Instruction.ofNodes template.nodes) (workshop.cache, workshop.disk) with
      ⟨result, cache, disk⟩
    have compiled := compile_of_parse parsed looked
    -- What is written down, and where, does not depend on the markers of the tags.
    have otherCompiled : (Compiler.mk right dumpDirectory).compile second workshop = _ :=
      compile_of_parse otherParsed (sameInstructions ▸ looked)
    cases result with
    | error =>
      obtain ⟨given, path, cause, rfl⟩ := exists_undumped_of_lookupOrBuildWith looked
      exact Or.inr (Or.inr ⟨path, cause, _, given, compiled, otherCompiled⟩)
    | ok found => exact Or.inl ⟨found.1, _, _, _, compiled, otherCompiled⟩

/-- A remark that takes two lines puts the tags around it on two lines. They still do not stand
alone, so the line end after them is kept. -/
theorem compile_sameButRemark_longer :
    let workshop := Workshop.ofDisk default
    let compiled := ({} : Compiler).compile
      "\x7b\x7b#a\x7d\x7d\x7b\x7b!x\x7d\x7d\x7b\x7b/a\x7d\x7d\n" workshop
    let otherCompiled := ({} : Compiler).compile
      "\x7b\x7b#a\x7d\x7d\x7b\x7b!x\ny\x7d\x7d\x7b\x7b/a\x7d\x7d\n" workshop
    ∃ shared warnings otherWarnings after,
      compiled = (.ok ⟨shared, warnings⟩, after) ∧
      otherCompiled = (.ok ⟨shared, otherWarnings⟩, after) ∧
      shared.program.instructions.toList =
        [.openBlock .iterable "a", .closeBlock, .literal "\n"] := by
  have scanned : Token.scan .standard
      "\x7b\x7b#a\x7d\x7d\x7b\x7b!x\x7d\x7d\x7b\x7b/a\x7d\x7d\n" =
        .ok [.tag "#a" 1, .tag "!x" 1, .tag "/a" 1, .newline] := by decide +kernel
  have otherScanned : Token.scan .standard
      "\x7b\x7b#a\x7d\x7d\x7b\x7b!x\ny\x7d\x7d\x7b\x7b/a\x7d\x7d\n" =
        .ok [.tag "#a" 1, .tag "!x\ny" 1, .tag "/a" 2, .newline] := by decide +kernel
  have same : List.Forall₂ Token.SameButRemark
      [.tag "#a" 1, .tag "!x" 1, .tag "/a" 1, .newline]
      [.tag "#a" 1, .tag "!x\ny" 1, .tag "/a" 2, .newline] :=
    .cons .tag (.cons (.comment rfl rfl) (.cons .tag (.cons .newline .nil)))
  have silent : ({} : Compiler).dumpDirectory = none := rfl
  obtain ⟨first, compiles, instructions, _⟩ := exists_compileAlone silent default
    (show (Template.parse .standard
        "\x7b\x7b#a\x7d\x7d\x7b\x7b!x\x7d\x7d\x7b\x7b/a\x7d\x7d\n").toOption.map
        (fun template => (Instruction.ofNodes template.nodes, template.warnings)) =
      some ([.openBlock .iterable "a", .closeBlock, .literal "\n"], []) by decide +kernel)
  rcases compile_sameButRemark scanned otherScanned same none (Workshop.ofDisk default) with
    ⟨shared, warnings, otherWarnings, after, compiled, otherCompiled⟩ |
    ⟨fault, otherFault, refused, _⟩ | ⟨_, _, _, given, _⟩
  · rw [compileAlone, compiled] at compiles
    cases compiles
    exact ⟨shared, warnings, otherWarnings, after, compiled, otherCompiled, instructions⟩
  · rw [compileAlone, refused] at compiles
    cases compiles
  · exact absurd rfl given

end Compiler

end Mustache
