import Mustache.Proofs.Compile.Alone
import Mustache.Proofs.Program.Fusing
import Mustache.Proofs.Render.MemoryTemplates
import Mustache.Proofs.Template.Concatenation

/-!
# Compiling templates one after the other

A template that ends with a line may be followed by any other one: compiled together they give
the instructions of both, the warnings of both and the output of both. Nothing that the second
contains, whether it can be read or not, changes what the first one means.
-/

namespace Mustache

namespace Node

variable {σ : Type} {host : Host} {loader : Loader σ} {depth : Nat} {scope : Scope}

theorem renderAll_text (content : String) (nodes : List Node) :
    renderAll host loader depth (.text content :: nodes) scope = (do
      Rendering.write content.toByteArray
      renderAll host loader depth nodes scope) := by
  rw [renderAll, render]

/-- Text that `consText` puts in front of nodes is written before they are rendered. -/
theorem renderAll_consText (content : String) (nodes : List Node) :
    renderAll host loader depth (consText content nodes) scope = (do
      Rendering.write content.toByteArray
      renderAll host loader depth nodes scope) := by
  cases nodes with
  | nil => exact renderAll_text content []
  | cons node rest =>
    cases node with
    | text following =>
      rw [consText, renderAll_text, renderAll_text, String.toByteArray_append,
        Rendering.write_append, bind_assoc]
    | interpolation | block | partialCall | comment => exact renderAll_text content _

/-- A tree that `append` puts after another one is rendered after it. -/
theorem renderAll_append (first second : List Node) :
    renderAll host loader depth (append first second) scope = (do
      renderAll host loader depth first scope
      renderAll host loader depth second scope) := by
  induction first with
  | nil => simp only [append, renderAll, pure_bind]
  | cons node rest inductionHypothesis =>
    have headFirst : renderAll host loader depth (append (node :: rest) second) scope = (do
        render host loader depth node scope
        renderAll host loader depth (append rest second) scope) := by
      cases rest with
      | nil =>
        cases node with
        | text content => simp only [append, renderAll_consText, render]
        | interpolation | block | partialCall | comment => simp only [append, renderAll]
      | cons => simp only [append, renderAll]
    rw [headFirst, inductionHypothesis, renderAll, bind_assoc]

end Node

/-- A text that is empty or ends with a line end ends with a line (`Layout.EndsLine`). -/
theorem endsLine_of_eq {text : String}
    (ended : text = "" ∨ ∃ before, text = before ++ "\n") :
    Layout.EndsLine (· == '\n') text.toList := by
  rcases ended with rfl | ⟨before, rfl⟩
  · rfl
  · simp [Layout.EndsLine]

/-- Where a template compiles and ends with a line, it compiles together with what follows it
exactly if that compiles by itself (`compileAlone`). The error of what follows is then only moved
down. Else the instructions of the two follow each other, and so do their warnings and what they do
when they are run, from any session and into any sink. Into an empty sink the second writes after
the first what it writes by itself: always from the state in which the first leaves the session, and
from the same state as the first if the loader's answers do not change. -/
theorem compileAlone_append {delimiters : Delimiters} {disk : Disk} {first : String}
    {firstCompiled : Compiled}
    (compiles : ({ delimiters } : Compiler).compileAlone disk first = .ok firstCompiled)
    (ended : first = "" ∨ ∃ before, first = before ++ "\n") (second : String) :
    match ({ delimiters } : Compiler).compileAlone disk second with
    | .error error =>
      ∃ fault, error = .malformed fault ∧
        ({ delimiters } : Compiler).compileAlone disk (first ++ second) =
          .error (.malformed (fault.addLines (first.toList.count '\n')))
    | .ok secondCompiled =>
      ∃ compiled,
        ({ delimiters } : Compiler).compileAlone disk (first ++ second) = .ok compiled ∧
        compiled.shared.program.instructions.toList =
          Instruction.fuse firstCompiled.shared.program.instructions.toList
            secondCompiled.shared.program.instructions.toList ∧
        compiled.warnings = firstCompiled.warnings ++
          secondCompiled.warnings.map (Warning.addLines (first.toList.count '\n')) ∧
        ∀ {σ : Type} (host : Host) (loader : Loader σ) (scope : Scope),
          let run (compiled : Compiled) := Rendering.run host loader compiled.shared.program scope
          let outcome (compiled : Compiled) :=
            Rendering.outcome host loader compiled.shared.program scope
          run compiled = (do run firstCompiled; run secondCompiled) ∧
          ∀ (accessors : AccessorCache) (loading : σ),
            let left := Rendering.sessionAfter host loader firstCompiled.shared.program scope
              accessors loading
            outcome compiled accessors loading =
                (outcome firstCompiled accessors loading).andThen
                  (outcome secondCompiled left.accessors left.loading) ∧
              (accessors.Sound host.schema → loader.Steady loading →
                outcome compiled accessors loading =
                  (outcome firstCompiled accessors loading).andThen
                    (outcome secondCompiled accessors loading)) := by
  obtain ⟨template, parsed, instructions, warnings⟩ := Compiler.parse_of_compileAlone compiles
  have together := Template.parse_append parsed (endsLine_of_eq ended) second
  have silent : ({ delimiters } : Compiler).dumpDirectory = none := rfl
  cases parsedSecond : Template.parse delimiters second with
  | error fault =>
    rw [parsedSecond] at together
    rw [Compiler.compileAlone_of_parse_error disk parsedSecond]
    exact ⟨fault, rfl, Compiler.compileAlone_of_parse_error disk together⟩
  | ok following =>
    rw [parsedSecond] at together
    obtain ⟨secondCompiled, compilesSecond, secondInstructions, secondWarnings⟩ :=
      Compiler.compileAlone_of_parse silent disk parsedSecond
    obtain ⟨compiled, compilesBoth, bothInstructions, bothWarnings⟩ :=
      Compiler.compileAlone_of_parse silent disk together
    rw [compilesSecond]
    rw [← Instruction.ofNodes_addLinesAll (first.toList.count '\n')] at secondInstructions
    refine ⟨compiled, compilesBoth, ?_, ?_, ?_⟩
    · rw [bothInstructions, instructions, secondInstructions]
      exact Instruction.ofNodes_append _ _
    · rw [bothWarnings, warnings, secondWarnings]
      rfl
    · intro σ host loader scope
      have inTwo : Rendering.run host loader compiled.shared.program scope = (do
          Rendering.run host loader firstCompiled.shared.program scope
          Rendering.run host loader secondCompiled.shared.program scope) := by
        rw [Rendering.run, Rendering.run, Rendering.run,
          Rendering.execute_eq_renderAll bothInstructions,
          Rendering.execute_eq_renderAll instructions,
          Rendering.execute_eq_renderAll secondInstructions]
        exact Node.renderAll_append _ _
      refine ⟨inTwo, ?_⟩
      intro accessors loading
      exact ⟨Rendering.outcome_eq_andThen_after inTwo,
        Rendering.outcome_eq_andThen_of_steady inTwo⟩

/-- A line, and a text with a tag and a directive: the texts become one literal, the directive is
on the second line, and the outcomes follow each other. -/
theorem compileAlone_append_line :
    ∃ first second compiled : Compiled,
      ({} : Compiler).compileAlone default "x\n" = .ok first ∧
      ({} : Compiler).compileAlone default "y\x7b\x7ba\x7d\x7d\x7b\x7b%p\x7d\x7d" = .ok second ∧
      ({} : Compiler).compileAlone default ("x\n" ++ "y\x7b\x7ba\x7d\x7d\x7b\x7b%p\x7d\x7d") =
        .ok compiled ∧
      compiled.shared.program.instructions.toList =
        [.literal "x\ny", .interpolation "a" true] ∧
      compiled.warnings = [.unsupportedPragma "p" 2] ∧
      let outcome (compiled : Compiled) :=
        Rendering.outcome default (({} : Compiler).loader (.memory [])) compiled.shared.program
          default {} { workshop := Workshop.ofDisk default }
      outcome compiled = (outcome first).andThen (outcome second) := by
  have silent : ({} : Compiler).dumpDirectory = none := rfl
  obtain ⟨first, compilesFirst, firstInstructions, firstWarnings⟩ :=
    Compiler.exists_compileAlone silent default
      (show (Template.parse .standard "x\n").toOption.map (fun template =>
        (Instruction.ofNodes template.nodes, template.warnings)) =
          some ([.literal "x\n"], []) by decide +kernel)
  obtain ⟨second, compilesSecond, secondInstructions, secondWarnings⟩ :=
    Compiler.exists_compileAlone silent default
      (show (Template.parse .standard "y\x7b\x7ba\x7d\x7d\x7b\x7b%p\x7d\x7d").toOption.map
        (fun template => (Instruction.ofNodes template.nodes, template.warnings)) =
          some ([.literal "y", .interpolation "a" true], [.unsupportedPragma "p" 1])
        by decide +kernel)
  have together := compileAlone_append compilesFirst (Or.inr ⟨"x", rfl⟩)
    "y\x7b\x7ba\x7d\x7d\x7b\x7b%p\x7d\x7d"
  rw [compilesSecond] at together
  obtain ⟨compiled, compiles, instructions, warnings, runs⟩ := together
  refine ⟨first, second, compiled, compilesFirst, compilesSecond, compiles, ?_, ?_, ?_⟩
  · rw [instructions, firstInstructions, secondInstructions]
    rfl
  · rw [warnings, firstWarnings, secondWarnings]
    rfl
  · have apart : ({} : Compiler).Apart (([] : List (String × String)).map (·.2)) :=
      fun _ member => absurd member List.not_mem_nil
    have steady := Compiler.loader_memory_steady silent apart default
    exact ((runs default _ default).2 {} _).2 (AccessorCache.sound_empty _) steady

end Mustache
