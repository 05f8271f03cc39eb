import Mustache.Proofs.CommandLine.StoredPrograms
import Mustache.Proofs.Render.FaithfulEscaping
import Mustache.Proofs.Render.Loads
import Mustache.Proofs.Storage.WrittenFiles

/-!
# Output to a file

A template can be rendered to a file or to the standard output. Both prepare the same
(`CommandLine.prepare`), which prints no output and only looks at files, and both run the same
program; what it makes is delivered in two ways (`deliver_to_output`, `deliver_to_file`). As a run
only looks at files too, and what it writes is always a text, rendering to a file writes there what
is printed otherwise, unless there is a failure (`exists_filed_eq`). So where a file can be written
the two agree, and where something fails none is touched (`render_to_file_agrees`).
-/

namespace Mustache

namespace Compiler

variable {compiler : Compiler} {root extension : String} {library after : Library}

/-- Loading a template with `Compiler.load` is looking at files, if no text forms are written. -/
theorem looks_load (silent : compiler.dumpDirectory = none) (name : String) (library : Library) :
    library.workshop.disk.Looks
      (compiler.load (.files root extension) name library).2.workshop.disk := by
  cases known : library.loaded.lookup name with
  | some shared =>
    rw [load_files_of_loaded known]
    exact .refl _
  | none =>
    have looks := Disk.looks_readText (TemplateSource.filePath root extension name)
      library.workshop.disk
    rw [load_files_of_free known]
    revert looks
    rcases Disk.readText (TemplateSource.filePath root extension name) library.workshop.disk with
      ⟨_ | source, counted⟩
    · exact fun looks => looks
    · intro looks
      obtain ⟨result, made, compiles⟩ := exists_compile_eq silent source library.workshop.cache
      simp only [compiles]
      cases result <;> exact looks

/-- A loader that is asked for names (`Loader.Reaches`) looks at files, if no text forms are
written. -/
theorem looks_of_reaches (silent : compiler.dumpDirectory = none)
    (reaches : (compiler.loader (.files root extension)).Reaches library after) :
    library.workshop.disk.Looks after.workshop.disk := by
  induction reaches with
  | refl => exact .refl _
  | load _ name inductionHypothesis =>
    refine inductionHypothesis.trans ?_
    rw [loader_apply]
    exact looks_load silent name _

end Compiler

namespace CommandLine

/-- What `render` does before a program runs: the template is compiled and the data is read. The
answer is the program, the cache it is in, and the scope in which it runs. -/
def prepare (options : RenderOptions) (cache : ProgramCache) :
    CommandAction (Program × ProgramCache × Scope) := do
  let (compiled, cache) ← compileFile options.compiler cache options.template
  .warn compiled.warnings
  let document ← readData options
  return (compiled.shared.program, cache, scopeOf document options.bindings)

/-- What `prepare` does before a program runs only looks at files, if no text forms are written. -/
theorem peeks_prepare {options : RenderOptions} (silent : options.debugDirectory = none)
    (cache : ProgramCache) : Peeks (prepare options cache) :=
  (peeks_compileFile silent cache options.template).bind fun compiled =>
    (Peeks.warn compiled.1.warnings).bind fun _ =>
      (peeks_readData options).bind fun _ => .pure _

/-- Without stored programs `render` is to `prepare` a program and to `deliver` what it makes. -/
theorem render_eq_of_unstored {options : RenderOptions} (unstored : options.artifacts = none)
    (now : Timestamp) :
    render now options = (do
      let (program, cache, scope) ← prepare options .empty
      let _ ← deliver options options.engine cache program scope) := by
  rw [render_eq, unstored]
  simp only [warmedCache, prepare, renderFrom, bind_assoc, pure_bind]

section Delivery

variable {options : RenderOptions} {cache : ProgramCache} {program : Program} {scope : Scope}
  {console : Console}

/-- Why a rendering fails whose run does. -/
def unrendered (options : RenderOptions) (error : RenderError) : Failure :=
  ⟨s!"failed to render {options.template}", renderCauses error⟩

/-- What a run writes is a text, and `renderProgram` answers with it if the run comes to its end. -/
theorem exists_renderProgram_eq (engine : Engine) (cache : ProgramCache) (program : Program)
    (scope : Scope) (console : Console) :
    let ran := runWith engine program scope cache console.disk
    ∃ text : String, ran.1.2.written = text.toByteArray ∧
      renderProgram engine cache program scope console =
        (.ok (ran.1.1.map fun _ => text, ran.2.library.workshop.cache),
          { console with disk := ran.2.library.workshop.disk }) := by
  obtain ⟨text, written, same⟩ := engine.renderProgram_eq (Host.ofSchema []) program scope
    { library := { workshop := ⟨cache, console.disk⟩ } }
  refine ⟨text, written, ?_⟩
  rw [renderProgram, CommandAction.onDisk]
  simp only [same]
  rfl

/-- What a run writes is printed by `deliver`, whether it fails or not. -/
theorem deliver_to_output (printed : options.output = none) (engine : Engine) :
    deliver options engine cache program scope console =
      let ran := runWith engine program scope cache console.disk
      ((ran.1.1.mapError (unrendered options)).map fun _ => ran.2.library.workshop.cache,
        { console with
          output := console.output ++ ran.1.2.written
          disk := ran.2.library.workshop.disk }) := by
  simp only [deliver, printed, bind_apply, renderTo_apply]
  rcases runWith engine program scope cache console.disk with ⟨⟨_ | _, _⟩, _⟩ <;> rfl

/-- What a run writes goes into a file by `deliver`, if the run does not fail. -/
theorem deliver_to_file {path : String} (filed : options.output = some path) (engine : Engine) :
    deliver options engine cache program scope console =
      let ran := runWith engine program scope cache console.disk
      match ran.1.1 with
      | .error error =>
        (.error (unrendered options error), { console with disk := ran.2.library.workshop.disk })
      | .ok () =>
        match Disk.write path ran.1.2.written ran.2.library.workshop.disk with
        | (.error error, disk) =>
          (.error ⟨s!"failed to write {path}", [error.message]⟩, { console with disk := disk })
        | (.ok (), disk) => (.ok ran.2.library.workshop.cache, { console with disk := disk }) := by
  obtain ⟨text, written, same⟩ := exists_renderProgram_eq engine cache program scope console
  simp only [deliver, filed, bind_apply, same, written]
  rcases (runWith engine program scope cache console.disk).1.1 with _ | ⟨⟨⟩⟩
  · rfl
  · simp only [Except.map, bind_apply, attempt_apply]
    rcases Disk.write path text.toByteArray
      (runWith engine program scope cache console.disk).2.library.workshop.disk with ⟨_ | _, _⟩ <;>
    rfl

/-- Running a program by `runWith` only looks at files, if no text forms are written. -/
theorem looks_runWith (silent : options.debugDirectory = none) (program : Program) (scope : Scope)
    (cache : ProgramCache) (disk : Disk) :
    disk.Looks (runWith options.engine program scope cache disk).2.library.workshop.disk :=
  Compiler.looks_of_reaches silent (options.engine.renderTo_reaches (Host.ofSchema []) program scope
    { library := { workshop := ⟨cache, disk⟩ } })

end Delivery

/-- How `render` to the standard output ends: as `prepare` does if that fails, which prints no
output, and else as the run does, with all printed that the run wrote, up to its failure if it
fails. -/
theorem render_to_output (options : RenderOptions) (unstored : options.artifacts = none)
    (printed : options.output = none) (now : Timestamp) (console : Console) :
    render now options console =
      match prepare options .empty console with
      | (.error failure, ready) => (.error failure, ready)
      | (.ok (program, cache, scope), ready) =>
        let ran := runWith options.engine program scope cache ready.disk
        (ran.1.1.mapError (unrendered options),
          { ready with
            output := ready.output ++ ran.1.2.written
            disk := ran.2.library.workshop.disk }) := by
  rw [render_eq_of_unstored unstored, bind_apply]
  rcases prepare options .empty console with ⟨_ | ⟨program, cache, scope⟩, ready⟩
  · rfl
  · simp only [bind_apply, deliver_to_output printed]
    rcases runWith options.engine program scope cache ready.disk with ⟨⟨_ | ⟨⟨⟩⟩, _⟩, _⟩ <;> rfl

/-- How `render` to a file ends: as `prepare` does if that fails, and else as the run does if that
fails, and else as writing the file does. -/
theorem render_to_file (options : RenderOptions) {path : String}
    (unstored : options.artifacts = none) (filed : options.output = some path) (now : Timestamp)
    (console : Console) :
    render now options console =
      match prepare options .empty console with
      | (.error failure, ready) => (.error failure, ready)
      | (.ok (program, cache, scope), ready) =>
        let ran := runWith options.engine program scope cache ready.disk
        match ran.1.1 with
        | .error error =>
          (.error (unrendered options error), { ready with disk := ran.2.library.workshop.disk })
        | .ok () =>
          match Disk.write path ran.1.2.written ran.2.library.workshop.disk with
          | (.error error, disk) =>
            (.error ⟨s!"failed to write {path}", [error.message]⟩, { ready with disk := disk })
          | (.ok (), disk) => (.ok (), { ready with disk := disk }) := by
  rw [render_eq_of_unstored unstored, bind_apply]
  rcases prepare options .empty console with ⟨_ | ⟨program, cache, scope⟩, ready⟩
  · rfl
  · simp only [bind_apply, deliver_to_file filed]
    rcases runWith options.engine program scope cache ready.disk with
      ⟨⟨_ | ⟨⟨⟩⟩, sink⟩, state⟩
    · rfl
    · simp only
      rcases Disk.write path sink.written state.library.workshop.disk with ⟨_ | _, _⟩ <;> rfl

/-- To `render` to the standard output only looks at files. -/
theorem looks_render (options : RenderOptions) (unstored : options.artifacts = none)
    (silent : options.debugDirectory = none) (printed : options.output = none) (now : Timestamp)
    (console : Console) : console.disk.Looks (render now options console).2.disk := by
  have prepared := (peeks_prepare silent .empty console).2
  rw [render_to_output options unstored printed]
  revert prepared
  rcases prepare options .empty console with ⟨_ | ⟨program, cache, scope⟩, ready⟩
  · exact fun prepared => prepared
  · exact fun prepared => prepared.trans (looks_runWith silent program scope cache ready.disk)

section Agreement

variable {options : RenderOptions} (unstored : options.artifacts = none)
  (silent : options.debugDirectory = none) (now : Timestamp) (console : Console)

include unstored silent

/-- What rendering to the standard output prints: nothing if preparing fails, and else what the run
writes. -/
theorem printed_spec :
    let printed := render now { options with output := none } console
    match prepare options .empty console with
    | (.error failure, ready) =>
      printed = (.error failure, ready) ∧ ready.output = console.output
    | (.ok (program, cache, scope), ready) =>
      let ran := runWith options.engine program scope cache ready.disk
      printed.1 = ran.1.1.mapError (unrendered options) ∧
      printed.2.output = console.output ++ ran.1.2.written := by
  have quiet := (peeks_prepare silent .empty console).1
  have same : prepare { options with output := none } .empty = prepare options .empty := rfl
  intro printed
  have ends : printed = _ :=
    render_to_output { options with output := none } unstored rfl now console
  rw [same] at ends
  clear_value printed
  revert quiet ends
  rcases prepare options .empty console with ⟨failure | ⟨program, cache, scope⟩, ready⟩
  · exact fun quiet ends => ⟨ends, quiet⟩
  · rintro quiet rfl
    exact ⟨rfl, congrArg (· ++ _) quiet⟩

/-- Rendering to a file does what rendering to the standard output does, but for printing: if that
does not fail, what it prints is written into the file. -/
theorem exists_filed_eq (path : String) :
    let printed := render now { options with output := none } console
    ∃ content, printed.2.output = console.output ++ content ∧
      render now { options with output := some path } console =
        let quiet : Console := { printed.2 with output := console.output }
        match printed.1 with
        | .error failure => (.error failure, quiet)
        | .ok () =>
          match Disk.write path content printed.2.disk with
          | (.error error, disk) =>
            (.error ⟨s!"failed to write {path}", [error.message]⟩, { quiet with disk := disk })
          | (.ok (), disk) => (.ok (), { quiet with disk := disk }) := by
  have quiet := (peeks_prepare silent .empty console).1
  have same : ∀ output, prepare { options with output := output } .empty = prepare options .empty :=
    fun _ => rfl
  have sameRun : ∀ output, runWith ({ options with output := output } : RenderOptions).engine =
      runWith options.engine := fun _ => rfl
  have sameFailure : ∀ output, unrendered { options with output := output } =
      unrendered options := fun _ => rfl
  rw [render_to_output { options with output := none } unstored rfl,
    render_to_file { options with output := some path } unstored rfl]
  simp only [same, sameRun, sameFailure]
  revert quiet
  rcases prepare options .empty console with ⟨failure | ⟨program, cache, scope⟩, ready⟩
  · intro quiet
    refine ⟨.empty, quiet.trans ByteArray.append_empty.symm, ?_⟩
    rw [← quiet]
  · intro quiet
    simp only at quiet ⊢
    refine ⟨_, congrArg (· ++ _) quiet, ?_⟩
    rw [← quiet]
    rcases runWith options.engine program scope cache ready.disk with ⟨⟨_ | ⟨⟨⟩⟩, _⟩, _⟩ <;> rfl

end Agreement

/-- Rendering to a file and to the standard output agree, if no programs are stored and no text
forms are written. Let the path be one at which a file can be written after what the rendering
reads; it may lead to a file that is read. Then the one succeeds exactly if the other does, and
leaves in the file exactly what the other prints. If preparing or running fails, both fail in the
same way, and no file is touched. What was printed then is nothing if preparing failed, and what the
run wrote up to its failure if the run did. -/
theorem render_to_file_agrees (now : Timestamp) (options : RenderOptions) (path : String)
    (console : Console) (unstored : options.artifacts = none)
    (silent : options.debugDirectory = none)
    (writable : (render now { options with output := none } console).2.disk.Writable path) :
    let printed := render now { options with output := none } console
    let filed := render now { options with output := some path } console
    (filed.1 = .ok () ↔ printed.1 = .ok ()) ∧
      (printed.1 = .ok () → ∃ content, printed.2.output = console.output ++ content ∧
        filed.2.disk.entry path = .ok (.file content) ∧
        filed.2 = { printed.2 with
          output := console.output
          disk := (Disk.write path content printed.2.disk).2 }) ∧
      (∀ failure, printed.1 = .error failure →
        filed = (.error failure, { printed.2 with output := console.output }) ∧
        console.disk.SameFiles filed.2.disk) ∧
      console.disk.SameFiles printed.2.disk ∧
      (console.disk.fault = none → printed.2.disk = console.disk) ∧
      match prepare options .empty console with
      | (.error failure, ready) =>
        printed = (.error failure, ready) ∧ ready.output = console.output
      | (.ok (program, cache, scope), ready) =>
        let ran := runWith options.engine program scope cache ready.disk
        printed.1 = ran.1.1.mapError (unrendered options) ∧
        printed.2.output = console.output ++ ran.1.2.written := by
  have looks := looks_render { options with output := none } unstored silent rfl now console
  have spec := printed_spec unstored silent now console
  obtain ⟨content, output, ends⟩ := exists_filed_eq unstored silent now console path
  have written := writable content
  generalize render now { options with output := none } console = printed at *
  generalize render now { options with output := some path } console = filed at *
  rcases printed with ⟨failure | ⟨⟨⟩⟩, after⟩
  · simp only at ends
    subst ends
    refine ⟨iff_of_false nofun nofun, nofun, ?_, looks.toSameFiles, looks.eq_of_calm, spec⟩
    rintro _ ⟨⟩
    exact ⟨rfl, looks.toSameFiles⟩
  · simp only at ends output written
    rcases wrote : Disk.write path content after.disk with ⟨_ | ⟨⟨⟩⟩, last⟩
    · rw [wrote] at written
      cases written
    · rw [wrote] at ends
      simp only at ends
      subst ends
      refine ⟨iff_of_true rfl rfl, fun _ => ⟨content, output, Disk.entry_of_write wrote, ?_⟩, nofun,
        looks.toSameFiles, looks.eq_of_calm, spec⟩
      rw [wrote]

/-- A template file is rendered to another file, which then holds what is printed otherwise. -/
theorem render_to_file_agrees_literal :
    let options := { storedPartialOptions with template := "/p.mustache" }
    let printed := render .epoch { options with output := none } storedPartial
    let filed := render .epoch { options with output := some "/t" } storedPartial
    options.artifacts = none ∧ options.debugDirectory = none ∧
      printed.2.disk.Writable "/t" ∧ printed.1 = .ok () ∧ printed.2.output = "x".toByteArray ∧
      filed.1 = .ok () ∧ filed.2.disk.entry "/t" = .ok (.file "x".toByteArray) := by
  intro options printed filed
  have unchanged : printed.2.disk = storedPartial.disk :=
    (looks_render { options with output := none } rfl rfl rfl .epoch storedPartial).eq_of_calm rfl
  have writable : printed.2.disk.Writable "/t" := by
    have names : Path.names "/t" = ["t"] := by decide +kernel
    have fits : Disk.Fits "/t" := by constructor <;> decide +kernel
    have located : storedPartial.disk.locate "/t" =
        .ok (.present ["t"] (.file "\x7b\x7b>p\x7d\x7d".toByteArray)) := by
      rw [Disk.locate_of_fits fits, names]
      simp [storedPartial, Disk.walk, Entry.find?]
    intro content
    rw [unchanged, Disk.write, Disk.attempt_bind_of_calm rfl]
    simp only [located]
    rw [if_neg (by decide +kernel)]
    rfl
  obtain ⟨both, content, _, _, _, ends⟩ :=
    render_to_file_agrees .epoch options "/t" storedPartial rfl rfl writable
  -- The program writes a text whatever the scope is.
  have instructions : (prepare options .empty storedPartial).1.toOption.map
      (fun prepared => prepared.1.instructions.toList) = some [.literal "x"] := by decide +kernel
  revert instructions ends
  rcases prepare options .empty storedPartial with ⟨_ | ⟨program, cache, scope⟩, ready⟩
  · rintro _ ⟨⟩
  · rintro ⟨result, output⟩ instructions
    have run : ∀ loader : Loader Library, Rendering.run (Host.ofSchema []) loader program scope =
        Rendering.runRoutine (Host.ofSchema []) loader 0 (.literal "x" .done) scope :=
      fun _ => Rendering.execute_eq_runRoutine _ (Option.some.inj instructions)
    have ran : (runWith options.engine program scope cache ready.disk).1 =
        (.ok (), { written := "x".toByteArray }) := by
      rw [runWith, Engine.renderTo]
      simp only [run]
      rfl
    rw [ran] at result output
    obtain ⟨_, isContent, found, _⟩ := content result
    refine ⟨rfl, rfl, writable, result, output, both.2 result, ?_⟩
    rw [found, ByteArray.append_right_inj _ |>.1 (isContent.symm.trans output)]

end CommandLine

end Mustache
