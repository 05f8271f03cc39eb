import Mustache.CommandLine.Run
import Mustache.Proofs.Compile.FaithfulCache
import Mustache.Proofs.Scope.Alike
import Mustache.Proofs.Storage.WrittenFiles

/-!
# Steps of commands

What the steps of a command do to the console. Those that only look at files and print no output
(`CommandLine.Peeks`) can follow each other: reading a document is such a step, and so is compiling
a template file as long as no text forms are written.
-/

namespace Mustache.CommandLine

/-- A step on files made by `CommandAction.attempt` fails as they say, and about its subject. -/
theorem attempt_apply {ε α : Type} (subject : String) (causes : ε → List String)
    (action : ExceptT ε (StateM Disk) α) (console : Console) :
    CommandAction.attempt subject causes action console =
      match action console.disk with
      | (.error error, disk) => (.error ⟨subject, causes error⟩, { console with disk := disk })
      | (.ok value, disk) => (.ok value, { console with disk := disk }) := by
  rw [CommandAction.attempt, bind_apply, CommandAction.onDisk]
  simp only [ExceptT.run]
  rcases action console.disk with ⟨_ | _, disk⟩ <;> rfl

/-- A step of a command that prints no output and only looks at files (`Disk.Looks`). -/
def Peeks {α : Type} (step : CommandAction α) : Prop :=
  ∀ console, (step console).2.output = console.output ∧ console.disk.Looks (step console).2.disk

namespace Peeks

variable {α β ε : Type}

theorem pure (value : α) : Peeks (Pure.pure value) :=
  fun console => ⟨rfl, .refl console.disk⟩

theorem throw (failure : Failure) : Peeks (MonadExcept.throw failure : CommandAction α) :=
  fun console => ⟨rfl, .refl console.disk⟩

theorem warn (warnings : List Warning) : Peeks (.warn warnings) :=
  fun console => ⟨rfl, .refl console.disk⟩

theorem bind {step : CommandAction α} {next : α → CommandAction β} (first : Peeks step)
    (second : ∀ value, Peeks (next value)) : Peeks (step >>= next) := by
  intro console
  have before := first console
  rw [bind_apply]
  revert before
  rcases step console with ⟨_ | value, between⟩
  · exact fun before => before
  · intro before
    have later := second value between
    exact ⟨later.1.trans before.1, before.2.trans later.2⟩

/-- A step on files that only looks at them makes a command step that `Peeks`. -/
theorem attempt {action : ExceptT ε (StateM Disk) α}
    (looks : ∀ disk : Disk, disk.Looks (action disk).2) (subject : String)
    (causes : ε → List String) : Peeks (.attempt subject causes action) := by
  intro console
  have looked := looks console.disk
  rw [attempt_apply]
  revert looked
  rcases action console.disk with ⟨_ | _, counted⟩ <;> exact fun looked => ⟨rfl, looked⟩

end Peeks

/-- A template file is read by `compileFile`, and then its text is compiled. -/
theorem compileFile_apply (compiler : Compiler) (cache : ProgramCache) (template : String)
    (console : Console) :
    compileFile compiler cache template console =
      match Disk.readText template console.disk with
      | (.error error, disk) =>
        (.error ⟨s!"failed to compile {template}", compileCauses (.unreadableFile template error)⟩,
          { console with disk := disk })
      | (.ok source, disk) =>
        match compiler.compile source ⟨cache, disk⟩ with
        | (.error error, workshop) =>
          (.error ⟨s!"failed to compile {template}", compileCauses error⟩,
            { console with disk := workshop.disk })
        | (.ok compiled, workshop) =>
          (.ok (compiled, workshop.cache), { console with disk := workshop.disk }) := by
  rw [compileFile, attempt_apply]
  unfold withCache
  rw [Compiler.compileFile, bind_apply, Compiler.onFiles]
  rcases Disk.readText template console.disk with ⟨_ | source, counted⟩
  · rfl
  · simp only
    rcases compiler.compile source ⟨cache, counted⟩ with ⟨_ | _, _⟩ <;> rfl

/-- Compiling a template file with `compileFile` only looks at files, if no text forms are written.
-/
theorem peeks_compileFile {compiler : Compiler} (silent : compiler.dumpDirectory = none)
    (cache : ProgramCache) (template : String) : Peeks (compileFile compiler cache template) := by
  intro console
  have looks := Disk.looks_readText template console.disk
  rw [compileFile_apply]
  revert looks
  rcases Disk.readText template console.disk with ⟨_ | source, counted⟩
  · exact fun looks => ⟨rfl, looks⟩
  · intro looks
    obtain ⟨result, made, compiles⟩ := Compiler.exists_compile_eq silent source cache
    simp only [compiles]
    cases result <;> exact ⟨rfl, looks⟩

/-- Reading a document with `readContext` only looks at files. -/
theorem peeks_readContext (path : String) : Peeks (readContext path) := by
  refine (Peeks.attempt (Disk.looks_readText path) _ _).bind fun text => ?_
  simp only
  split
  · split
    · exact .pure _
    · exact .throw _
  · split <;> exact .throw _

end Mustache.CommandLine
