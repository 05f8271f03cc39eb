import Mustache.Compile.Compiler
import Mustache.Proofs.Program.Lowering

/-!
# Compiling one template

What a compiler makes of a template that is the first it sees. Nothing is remembered then, so
the outcome is that of reading the template, lowering its tree and writing down the program's
text form, in this order; and lowering never fails.
-/

namespace Mustache

namespace Compiler

/-- What `compile` comes to when no program has been built before. -/
def compileAlone (compiler : Compiler) (disk : Disk) (source : String) :
    Except CompileError Compiled :=
  (compiler.compile source (Workshop.ofDisk disk)).1

/-- By `compileAlone` a first template is read, lowered and written down. -/
theorem compileAlone_eq (compiler : Compiler) (disk : Disk) (source : String) :
    compiler.compileAlone disk source = (do
      let template ← (Template.parse compiler.delimiters source).mapError .malformed
      let program ← Program.make (Instruction.ofNodes template.nodes)
      (compiler.dump program disk).1
      return ⟨⟨0, program⟩, template.warnings⟩) := by
  unfold compileAlone compile
  cases Template.parse compiler.delimiters source with
  | error => rfl
  | ok template =>
    have noEntry : ProgramCache.empty.get?
        (ContentHash.ofText (Instruction.lowered (Instruction.ofNodes template.nodes))) = none :=
      rfl
    simp only [Workshop.ofDisk, ProgramCache.lookupOrBuildWith, noEntry, Program.make,
      Except.mapError, bind, Except.bind]
    cases Program.ofInstructions (Instruction.ofNodes template.nodes) with
    | error => rfl
    | ok program =>
      simp only
      rcases compiler.dump program disk with ⟨_ | _, _⟩ <;> rfl

/-- What compiles by itself (`compileAlone`) is a template with its instructions and its warnings.
-/
theorem parse_of_compileAlone {compiler : Compiler} {disk : Disk} {source : String}
    {compiled : Compiled} (compiles : compiler.compileAlone disk source = .ok compiled) :
    ∃ template, Template.parse compiler.delimiters source = .ok template ∧
      compiled.shared.program.instructions.toList = Instruction.ofNodes template.nodes ∧
      compiled.warnings = template.warnings := by
  rw [compileAlone_eq] at compiles
  cases parsed : Template.parse compiler.delimiters source with
  | error =>
    rw [parsed] at compiles
    cases compiles
  | ok template =>
    obtain ⟨program, made, same⟩ := Program.exists_make_ofNodes template.nodes
    rw [parsed] at compiles
    simp only [Except.mapError, bind, Except.bind, made] at compiles
    cases dumped : (compiler.dump program disk).1 with
    | error =>
      rw [dumped] at compiles
      cases compiles
    | ok =>
      rw [dumped] at compiles
      cases compiles
      exact ⟨template, rfl, same, rfl⟩

/-- What `Template.parse` cannot read does not compile. -/
theorem compileAlone_of_parse_error {compiler : Compiler} (disk : Disk) {source : String}
    {fault : StructuralError}
    (unread : Template.parse compiler.delimiters source = .error fault) :
    compiler.compileAlone disk source = .error (.malformed fault) := by
  rw [compileAlone_eq, unread]
  rfl

/-- A template that `Template.parse` can read compiles if nothing is to be written down. -/
theorem compileAlone_of_parse {compiler : Compiler} (silent : compiler.dumpDirectory = none)
    (disk : Disk) {source : String} {template : Template}
    (parsed : Template.parse compiler.delimiters source = .ok template) :
    ∃ compiled, compiler.compileAlone disk source = .ok compiled ∧
      compiled.shared.program.instructions.toList = Instruction.ofNodes template.nodes ∧
      compiled.warnings = template.warnings := by
  obtain ⟨program, made, same⟩ := Program.exists_make_ofNodes template.nodes
  refine ⟨⟨⟨0, program⟩, template.warnings⟩, ?_, same, rfl⟩
  rw [compileAlone_eq, parsed]
  simp only [Except.mapError, bind, Except.bind, made, dump, silent]
  rfl

/-- Reading a template with `Template.parse` tells what it compiles to by `compileAlone`. -/
theorem exists_compileAlone {compiler : Compiler} (silent : compiler.dumpDirectory = none)
    (disk : Disk) {source : String} {instructions : List Instruction} {warnings : List Warning}
    (evaluated : (Template.parse compiler.delimiters source).toOption.map (fun template =>
      (Instruction.ofNodes template.nodes, template.warnings)) = some (instructions, warnings)) :
    ∃ compiled, compiler.compileAlone disk source = .ok compiled ∧
      compiled.shared.program.instructions.toList = instructions ∧
      compiled.warnings = warnings := by
  cases parsed : Template.parse compiler.delimiters source with
  | error =>
    rw [parsed] at evaluated
    cases evaluated
  | ok template =>
    rw [parsed] at evaluated
    cases evaluated
    exact compileAlone_of_parse silent disk parsed

end Compiler

end Mustache
