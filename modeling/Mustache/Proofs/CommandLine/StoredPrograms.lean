import Mustache.Proofs.CommandLine.Steps
import Mustache.Proofs.Render.FileTemplates
import Mustache.Proofs.Storage.RoundTrip

/-!
# Rendering with stored programs

A template file is rendered from the programs that are stored somewhere as it is without them. The
stored programs are loaded into the cache before anything is compiled; if their lowered forms and
those of the templates do not collide the cache is faithful to the templates, and then no step of
the rendering shows what was in it. What was rendered is stored afterwards, which comes after all
that is printed.
-/

namespace Mustache.CommandLine

/-- Two steps end alike: both fail in the same way, or both succeed with values that belong
together; and the console is the same after both. -/
inductive EndAlike {α β : Type} (values : α → β → Console → Prop) :
    Except Failure α × Console → Except Failure β × Console → Prop
  /-- Both fail. -/
  | failed (failure : Failure) (after : Console) :
      EndAlike values (.error failure, after) (.error failure, after)
  /-- Both succeed. -/
  | succeeded {value : α} {other : β} {after : Console} (same : values value other after) :
      EndAlike values (.ok value, after) (.ok other, after)

namespace EndAlike

variable {α β γ δ : Type} {values : α → β → Console → Prop} {others : γ → δ → Console → Prop}
  {console : Console}

/-- Steps that end alike may be followed by steps that do. -/
theorem bind {left : CommandAction α} {right : CommandAction β} {leftNext : α → CommandAction γ}
    {rightNext : β → CommandAction δ} (first : EndAlike values (left console) (right console))
    (next : ∀ value other after, values value other after →
      EndAlike others (leftNext value after) (rightNext other after)) :
    EndAlike others ((left >>= leftNext) console) ((right >>= rightNext) console) := by
  rw [bind_apply, bind_apply]
  generalize left console = leftEnd at first
  generalize right console = rightEnd at first
  cases first with
  | failed failure after => exact .failed failure after
  | succeeded same => exact next _ _ _ same

/-- A step ends like itself. -/
theorem of_eq (holds : Console → Prop) {step : CommandAction α}
    (after : holds (step console).2) :
    EndAlike (fun value other after => value = other ∧ holds after) (step console)
      (step console) := by
  revert after
  rcases step console with ⟨failure | value, after⟩
  · exact fun _ => .failed failure after
  · exact fun held => .succeeded ⟨rfl, held⟩

end EndAlike

namespace RenderOptions

/-- The directory in which other templates are found. -/
def templateRoot (options : RenderOptions) : String :=
  options.root.getD ((Path.parent? options.template).getD "")

/-- The extension of template names that have none, without its dot. -/
def templateExtension (options : RenderOptions) : String :=
  let extension := options.extension.getD TemplateSource.defaultExtension
  String.ofList (extension.toList.dropWhile (· == '.'))

/-- The compiler of the templates. -/
def compiler (options : RenderOptions) : Compiler where
  dumpDirectory := options.debugDirectory

/-- The engine that renders the template. -/
def engine (options : RenderOptions) : Engine :=
  ⟨options.compiler, .files options.templateRoot options.templateExtension⟩

end RenderOptions

/-- The instructions of the templates that a rendering may come to: those of the template file, and
those of the files that are called by such templates (`Compiler.Spells`). -/
inductive Involved (disk : Disk) (options : RenderOptions) : List Instruction → Prop
  /-- The template file is rendered. -/
  | main {instructions : List Instruction}
      (spelled : options.compiler.Spells disk options.template instructions) :
      Involved disk options instructions
  /-- A template calls another one by its name. -/
  | called {caller instructions : List Instruction} {name : String}
      (prior : Involved disk options caller) (call : .partialCall name ∈ caller)
      (spelled : options.compiler.Spells disk
        (TemplateSource.filePath options.templateRoot options.templateExtension name)
        instructions) :
      Involved disk options instructions

/-- The data of a rendering. -/
def readData (options : RenderOptions) : CommandAction Document :=
  match options.context with
  | some path => readContext path
  | none => pure (.object [])

/-- Renders a template file as `render` does, with the programs of a cache. The answer is the cache
with the programs of all templates. -/
def renderFrom (options : RenderOptions) (cache : ProgramCache) : CommandAction ProgramCache := do
  let (compiled, cache) ← compileFile options.compiler cache options.template
  .warn compiled.warnings
  let document ← readData options
  deliver options options.engine cache compiled.shared.program
    (scopeOf document options.bindings)

/-- Rendering loads the stored programs (`warmedCache`), renders the template with them
(`renderFrom`), and lets `persist` store what it came to. -/
theorem render_eq (now : Timestamp) (options : RenderOptions) :
    render now options = (do
      let cache ← warmedCache options.artifacts
      let last ← renderFrom options cache
      match options.artifacts with
      | none => pure ()
      | some root =>
        let _ ← persist now root last) := by
  unfold render renderFrom readData
  cases options.context <;> simp only [bind_assoc] <;> rfl

section Steps

variable {console : Console} {options : RenderOptions} {cache other : ProgramCache}
  {forms : List Instruction → Prop}

/-- Reading the data with `readData` only looks at files. -/
theorem peeks_readData (options : RenderOptions) : Peeks (readData options) := by
  unfold readData
  split
  · exact peeks_readContext _
  · exact .pure _

/-- Without a fault to come reading the data changes no files. -/
theorem disk_readData_of_calm (calm : console.disk.fault = none) (options : RenderOptions) :
    (readData options console).2.disk = console.disk :=
  (peeks_readData options console).2.eq_of_calm calm

/-- What compiling a template file comes to, whatever is in a faithful cache: the file's own
program and its warnings, with nothing changed. -/
structure Compiles (compiler : Compiler) (forms : List Instruction → Prop) (template : String)
    (console : Console) (left right : Compiled × ProgramCache) (after : Console) : Prop where
  /-- The console is as it was. -/
  unchanged : after = console
  /-- The programs are the same. -/
  program : left.1.shared.program = right.1.shared.program
  /-- They have the instructions of the file. -/
  spelled : compiler.Spells console.disk template left.1.shared.program.instructions.toList
  /-- The warnings are the same. -/
  warnings : left.1.warnings = right.1.warnings
  /-- The one cache stays faithful. -/
  left : left.2.FaithfulTo forms
  /-- The other cache stays faithful. -/
  right : right.2.FaithfulTo forms

/-- Without a fault to come a template file is compiled alike with faithful caches. -/
theorem compileFile_endAlike {compiler : Compiler} {template : String}
    (calm : console.disk.fault = none) (silent : compiler.dumpDirectory = none)
    (apart : Instruction.Apart forms forms)
    (covers : ∀ instructions, compiler.Spells console.disk template instructions →
      forms instructions)
    (faithful : cache.FaithfulTo forms) (otherFaithful : other.FaithfulTo forms) :
    EndAlike (Compiles compiler forms template console)
      (compileFile compiler cache template console)
      (compileFile compiler other template console) := by
  have unchanged := Disk.readText_disk_of_calm calm template
  rw [compileFile_apply, compileFile_apply]
  rcases read : Disk.readText template console.disk with ⟨error | source, after⟩
  · exact .failed _ _
  · rw [read] at unchanged
    simp only at unchanged ⊢
    subst unchanged
    cases parsed : Template.parse compiler.delimiters source with
    | error =>
      rw [Compiler.compile_of_parse_error parsed, Compiler.compile_of_parse_error parsed]
      exact .failed _ _
    | ok form =>
      have spelled : compiler.Spells console.disk template (Instruction.ofNodes form.nodes) :=
        ⟨source, form, by rw [read], parsed, rfl⟩
      obtain ⟨shared, left, compiles, made, kept⟩ :=
        Compiler.compile_of_faithfulTo silent apart parsed (covers _ spelled)
          ⟨cache, console.disk⟩ faithful
      obtain ⟨otherShared, right, otherCompiles, otherMade, otherKept⟩ :=
        Compiler.compile_of_faithfulTo silent apart parsed (covers _ spelled)
          ⟨other, console.disk⟩ otherFaithful
      rw [compiles, otherCompiles]
      refine .succeeded ⟨rfl, Except.ok.inj (made.symm.trans otherMade), ?_, rfl, kept, otherKept⟩
      rw [Program.toList_instructions_of_make made]
      exact spelled

/-- Which calls are allowed in the templates of a rendering: those of names that an `Involved`
template calls. -/
def Calls (disk : Disk) (options : RenderOptions) (instruction : Instruction) : Prop :=
  ∀ name, instruction = .partialCall name →
    ∃ caller, Involved disk options caller ∧ .partialCall name ∈ caller

/-- A program of a template that is `Involved` calls what is allowed. -/
theorem only_calls {disk : Disk} {program : Program}
    (involved : Involved disk options program.instructions.toList) :
    program.Only (Calls disk options) := by
  rintro instruction member name rfl
  exact ⟨_, involved, Array.mem_toList_iff.2 member⟩

/-- Running a program as `Engine.renderTo` does, with a cache and the files of a disk. -/
def runWith (engine : Engine) (program : Program) (scope : Scope) (cache : ProgramCache)
    (disk : Disk) : (Except RenderError Unit × Sink) × EngineState :=
  engine.renderTo (Host.ofSchema []) program scope {} { library := { workshop := ⟨cache, disk⟩ } }

theorem renderTo_apply (engine : Engine) (cache : ProgramCache) (program : Program)
    (scope : Scope) (console : Console) :
    renderTo engine cache program scope console =
      let ran := runWith engine program scope cache console.disk
      (.ok (ran.1.1, ran.1.2, ran.2.library.workshop.cache),
        { console with disk := ran.2.library.workshop.disk }) :=
  rfl

/-- The text of what was written in a run that came to its end. -/
def textOf : Except RenderError Unit × Sink → Except RenderError String
  | (.error error, _) => .error error
  | (.ok (), sink) =>
    match String.fromUTF8? sink.written with
    | some text => .ok text
    | none => .error .notText

theorem renderProgram_apply (engine : Engine) (cache : ProgramCache) (program : Program)
    (scope : Scope) (console : Console) :
    renderProgram engine cache program scope console =
      let ran := runWith engine program scope cache console.disk
      (.ok (textOf ran.1, ran.2.library.workshop.cache),
        { console with disk := ran.2.library.workshop.disk }) := by
  simp only [renderProgram, CommandAction.onDisk, Engine.renderProgram, runWith]
  rcases engine.renderTo (Host.ofSchema []) program scope {}
    { library := { workshop := ⟨cache, console.disk⟩ } } with ⟨⟨_ | _, sink⟩, state⟩
  · rfl
  · simp only [textOf]
    cases String.fromUTF8? sink.written <;> rfl

/-- Without a fault to come a program of a template that is `Involved` runs alike by `runWith` with
libraries that know the files. -/
theorem runWith_alike {disk : Disk} (calm : disk.fault = none)
    (silent : options.debugDirectory = none)
    (apart : Instruction.Apart (Involved disk options) (Involved disk options))
    {program : Program} (involved : Involved disk options program.instructions.toList)
    (faithful : cache.FaithfulTo (Involved disk options))
    (otherFaithful : other.FaithfulTo (Involved disk options)) (scope : Scope) :
    let run := fun cache => runWith options.engine program scope cache disk
    (run cache).1 = (run other).1 ∧ (run cache).2.library.workshop.disk = disk ∧
      (run other).2.library.workshop.disk = disk := by
  let host := Host.ofSchema []
  let knows : Library → Prop := options.compiler.Knows options.templateRoot
    options.templateExtension disk (Involved disk options)
  let loader := options.compiler.loader
    (.files options.templateRoot options.templateExtension)
  have answers : ∀ name, Calls disk options (.partialCall name) → ∀ library, knows library →
      (loader.load name library).1 =
          options.compiler.fileAnswer options.templateRoot options.templateExtension disk name ∧
        knows (loader.load name library).2 := by
    intro name allowed library known
    obtain ⟨caller, prior, call⟩ := allowed name rfl
    exact Compiler.load_of_knows calm silent apart
      (fun instructions spelled => prior.called call spelled) known
  have alike : Alike (Session.Alongside Eq Eq fun first second => knows first ∧ knows second)
      (Rendering.run host loader program scope) (Rendering.run host loader program scope) :=
    Rendering.execute_alikeFor Sink.takeAlike_eq
    (fun scope path => .of_eq (Scope.resolve host scope path)) (Calls disk options)
    (fun name allowed first second known => by
      obtain ⟨answer, kept⟩ := answers name allowed first known.1
      obtain ⟨otherAnswer, otherKept⟩ := answers name allowed second known.2
      exact ⟨answer.trans otherAnswer.symm, kept, otherKept⟩)
    (fun name allowed first _ called known answered => by
      obtain ⟨caller, prior, call⟩ := allowed name rfl
      rw [(answers name allowed first known.1).1] at answered
      exact only_calls (prior.called call (Compiler.spells_of_fileAnswer answered)))
    0 program (only_calls involved) 0 program.instructions.size scope
  obtain ⟨sameResult, sink, _, known, otherKnown⟩ := alike
    ⟨{}, {}, { workshop := ⟨cache, disk⟩ }⟩ ⟨{}, {}, { workshop := ⟨other, disk⟩ }⟩
    ⟨rfl, rfl, Compiler.knows_start faithful, Compiler.knows_start otherFaithful⟩
  exact ⟨Prod.ext sameResult sink, known.files, otherKnown.files⟩

section Delivery

variable {program : Program} (calm : console.disk.fault = none)
  (silent : options.debugDirectory = none)
  (apart : Instruction.Apart (Involved console.disk options) (Involved console.disk options))
  (involved : Involved console.disk options program.instructions.toList)
  (faithful : cache.FaithfulTo (Involved console.disk options))
  (otherFaithful : other.FaithfulTo (Involved console.disk options)) (scope : Scope)

include calm silent apart involved faithful otherFaithful

/-- Running a program into a sink with `renderTo` ends alike with faithful caches. -/
theorem renderTo_endAlike :
    EndAlike (fun left right after => after = console ∧ left.1 = right.1 ∧ left.2.1 = right.2.1)
      (renderTo options.engine cache program scope console)
      (renderTo options.engine other program scope console) := by
  obtain ⟨outcome, files, otherFiles⟩ := runWith_alike calm silent apart involved faithful
    otherFaithful scope
  rw [renderTo_apply, renderTo_apply]
  simp only [outcome, files, otherFiles]
  exact .succeeded ⟨rfl, rfl, rfl⟩

/-- Running a program to a text with `renderProgram` ends alike with faithful caches. -/
theorem renderProgram_endAlike :
    EndAlike (fun left right after => after = console ∧ left.1 = right.1)
      (renderProgram options.engine cache program scope console)
      (renderProgram options.engine other program scope console) := by
  obtain ⟨outcome, files, otherFiles⟩ := runWith_alike calm silent apart involved faithful
    otherFaithful scope
  rw [renderProgram_apply, renderProgram_apply]
  simp only [outcome, files, otherFiles]
  exact .succeeded ⟨rfl, rfl⟩

/-- What a program makes is handed on alike by `deliver` with faithful caches. -/
theorem deliver_endAlike :
    EndAlike (fun _ _ _ => True) (deliver options options.engine cache program scope console)
      (deliver options options.engine other program scope console) := by
  unfold deliver
  cases options.output with
  | some path =>
    refine (renderProgram_endAlike calm silent apart involved faithful otherFaithful scope).bind ?_
    rintro ⟨result, left⟩ ⟨_, right⟩ after ⟨rfl, rfl⟩
    cases result with
    | error error => exact .failed _ _
    | ok text =>
      refine (EndAlike.of_eq (fun _ => True) trivial).bind ?_
      exact fun _ _ after _ => .succeeded trivial
  | none =>
    refine (renderTo_endAlike calm silent apart involved faithful otherFaithful scope).bind ?_
    rintro ⟨result, sink, left⟩ ⟨_, _, right⟩ after ⟨rfl, rfl, rfl⟩
    refine (EndAlike.of_eq (fun _ => True) trivial).bind ?_
    intro _ _ after _
    cases result with
    | error error => exact .failed _ _
    | ok => exact .succeeded trivial

end Delivery

/-- Without a fault to come `renderFrom` ends alike with caches that are faithful to the templates
to which it may come (`Involved`). -/
theorem renderFrom_endAlike (calm : console.disk.fault = none)
    (silent : options.debugDirectory = none)
    (apart : Instruction.Apart (Involved console.disk options) (Involved console.disk options))
    (faithful : cache.FaithfulTo (Involved console.disk options))
    (otherFaithful : other.FaithfulTo (Involved console.disk options)) :
    EndAlike (fun _ _ _ => True) (renderFrom options cache console)
      (renderFrom options other console) := by
  refine (compileFile_endAlike calm silent apart (fun _ => .main) faithful otherFaithful).bind ?_
  rintro ⟨compiled, left⟩ ⟨otherCompiled, right⟩ after
    ⟨rfl, sameProgram, spelled, sameWarnings, leftFaithful, rightFaithful⟩
  simp only at sameProgram spelled sameWarnings leftFaithful rightFaithful ⊢
  rw [← sameWarnings, ← sameProgram]
  -- From here on the files are not touched until all is rendered.
  refine (EndAlike.of_eq (fun warned => warned.disk = after.disk) rfl).bind ?_
  rintro _ _ warned ⟨-, sameDisk⟩
  have calmWarned : warned.disk.fault = none := sameDisk ▸ calm
  refine (EndAlike.of_eq (fun read => read.disk = after.disk)
    ((disk_readData_of_calm calmWarned options).trans sameDisk)).bind ?_
  rintro document _ read ⟨rfl, sameDisk⟩
  rw [← sameDisk] at calm apart spelled leftFaithful rightFaithful
  exact deliver_endAlike calm silent apart (.main spelled) leftFaithful rightFaithful _

/-- Where `Storage.warm` succeeds `warmedCache` gives its cache and changes nothing. -/
theorem warmedCache_of_warm (calm : console.disk.fault = none) {root : String} {count : Nat}
    {after : Disk} (warmed : Storage.warm root (.empty, console.disk) = (.ok count, cache, after)) :
    warmedCache (some root) console = (.ok cache, console) := by
  have unchanged := Storage.warm_disk_of_calm calm root .empty
  rw [warmed] at unchanged
  cases unchanged
  rw [warmedCache, attempt_apply, warmed]

/-- Stored programs are loaded by `Storage.warm` into a cache that is faithful to what does not
collide with them. -/
theorem faithfulTo_of_warm {root : String} {count : Nat} {disk after : Disk}
    (warmed : Storage.warm root (.empty, disk) = (.ok count, cache, after))
    (apart : Instruction.Apart forms fun instructions => ∃ shared ∈ cache.programs,
      shared.program.instructions.toList = instructions) :
    cache.FaithfulTo forms := by
  obtain ⟨programs, entered⟩ := Storage.warm_enters root (.empty, disk)
  rw [warmed] at entered
  have kept := ProgramCache.Kept.empty.insertAll programs
  rw [← entered] at kept
  exact .of_keyed (fun hash shared => kept.hash_of_get?) apart

/-- Storing with `persist` prints nothing: it does what `Storage.persistAll` does to the files. -/
theorem persist_apply (now : Timestamp) (root : String) (cache : ProgramCache)
    (console : Console) :
    persist now root cache console =
      (((Storage.persistAll root now cache console.disk).1.mapError fun error =>
          ⟨s!"failed to persist artifacts to {root}", storageCauses error⟩),
        { console with disk := (Storage.persistAll root now cache console.disk).2 }) := by
  rw [persist, attempt_apply]
  rcases Storage.persistAll root now cache console.disk with ⟨_ | _, after⟩ <;> rfl

end Steps

/-- Let `Storage.warm` load the stored programs of a directory without an error, and let no lowered
form of a template to which the rendering may come (`Involved`) collide with another or with that of
a stored program. Then `render` with the stored programs prints what it prints without them, output
and warnings. If that fails, it fails in the same way; if it succeeds, it is followed by storing the
programs of some cache, and succeeds if that does. -/
theorem render_with_artifacts (now : Timestamp) (options : RenderOptions) (root : String)
    (console : Console) {count : Nat} {cache : ProgramCache} {after : Disk}
    (silent : options.debugDirectory = none) (calm : console.disk.fault = none)
    (warmed : Storage.warm root (.empty, console.disk) = (.ok count, cache, after))
    (apart : Instruction.Apart (Involved console.disk options) fun instructions =>
      Involved console.disk options instructions ∨
        ∃ shared ∈ cache.programs, shared.program.instructions.toList = instructions) :
    let plain := render now { options with artifacts := none } console
    let stored := render now { options with artifacts := some root } console
    stored.2.output = plain.2.output ∧ stored.2.errors = plain.2.errors ∧
      (∀ failure, plain.1 = .error failure → stored = plain) ∧
      ∃ last, (plain.1 = .ok () → stored = (do let _ ← persist now root last) plain.2) ∧
        ((plain.1 = .ok () →
            ∃ results, (Storage.persistAll root now last plain.2.disk).1 = .ok results) →
          stored.1 = plain.1) := by
  intro plain stored
  have templates : Instruction.Apart (Involved console.disk options)
      (Involved console.disk options) := fun first involved second other =>
    apart first involved second (.inl other)
  have faithful : cache.FaithfulTo (Involved console.disk options) :=
    faithfulTo_of_warm warmed fun first involved second member =>
      apart first involved second (.inr member)
  have rendered := renderFrom_endAlike calm silent templates faithful .empty
  have plainRun : plain = (renderFrom options .empty >>= fun _ => pure ()) console := by
    simp only [plain, render_eq]
    rfl
  have storedRun : stored = (renderFrom options cache >>= fun last => do
      let _ ← persist now root last) console := by
    simp only [stored, render_eq]
    rw [bind_apply, warmedCache_of_warm calm warmed]
    rfl
  rw [bind_apply] at plainRun storedRun
  generalize renderFrom options cache console = storedEnd at rendered storedRun
  generalize renderFrom options .empty console = plainEnd at rendered plainRun
  cases rendered with
  | failed failure between =>
    have same : stored = plain := storedRun.trans plainRun.symm
    have failed : plain.1 = .error failure := by rw [plainRun]
    rw [same]
    refine ⟨rfl, rfl, fun _ _ => rfl, .empty, ?_, fun _ => rfl⟩
    intro succeeded
    rw [failed] at succeeded
    cases succeeded
  | @succeeded last _ between _ =>
    have after : plain.2 = between := by
      rw [plainRun]
      rfl
    have succeeded : plain.1 = .ok () := by
      rw [plainRun]
      rfl
    have stores : stored = (do let _ ← persist now root last) plain.2 := by rw [storedRun, after]
    have ends := stores
    rw [bind_apply, persist_apply] at ends
    refine ⟨?_, ?_, ?_, last, fun _ => stores, ?_⟩
    · rw [ends]
      cases (Storage.persistAll root now last plain.2.disk).1 <;> rfl
    · rw [ends]
      cases (Storage.persistAll root now last plain.2.disk).1 <;> rfl
    · intro failure failed
      rw [succeeded] at failed
      cases failed
    · intro persisted
      obtain ⟨results, persisted⟩ := persisted succeeded
      rw [ends, persisted, succeeded]
      rfl

/-- A text file is a template with the instructions that its text comes to (`Compiler.Spells`). -/
theorem eq_of_spells {compiler : Compiler} {disk : Disk} {path source : String}
    {instructions other : List Instruction} (read : (Disk.readText path disk).1 = .ok source)
    (evaluated : (Template.parse compiler.delimiters source).toOption.map
      (fun template => Instruction.ofNodes template.nodes) = some instructions)
    (spelled : compiler.Spells disk path other) : other = instructions := by
  obtain ⟨otherSource, template, otherRead, parsed, rfl⟩ := spelled
  cases read.symm.trans otherRead
  rw [parsed] at evaluated
  exact Option.some.inj evaluated

/-- A template file that calls another one, beside which the program of the other one is stored. -/
def storedPartial : Console where
  disk := {
    root := .directory [
      ("t", .file "\x7b\x7b>p\x7d\x7d".toByteArray),
      ("p.mustache", .file "x".toByteArray),
      ("stache", .directory [("programs", .directory [Storage.shelved .epoch Storage.letter])])]
    workingDirectory := [] }

/-- The options with which it is rendered. -/
def storedPartialOptions : RenderOptions := ⟨"/t", none, none, [], none, none, none, none⟩

/-- The rendering comes to the template file and to the one that it calls. -/
theorem involved_storedPartial {instructions : List Instruction}
    (involved : Involved storedPartial.disk storedPartialOptions instructions) :
    instructions = [.partialCall "p"] ∨ instructions = [.literal "x"] := by
  have path : TemplateSource.filePath storedPartialOptions.templateRoot
      storedPartialOptions.templateExtension "p" = "/p.mustache" := by decide +kernel
  have caller : (Disk.readText "/t" storedPartial.disk).1 = .ok "\x7b\x7b>p\x7d\x7d" := by
    decide +kernel
  have callee : (Disk.readText "/p.mustache" storedPartial.disk).1 = .ok "x" := by decide +kernel
  induction involved with
  | main spelled => exact .inl (eq_of_spells caller (by decide +kernel) spelled)
  | @called _ _ name _ call spelled before =>
    rcases before with rfl | rfl
    · cases List.mem_singleton.1 call
      rw [path] at spelled
      exact .inr (eq_of_spells callee (by decide +kernel) spelled)
    · cases List.mem_singleton.1 call

/-- A template is rendered with the stored program of the other one that it calls as it is without
it. -/
theorem render_with_artifacts_partial :
    let cache := ProgramCache.empty.insertAll [Storage.letter]
    Storage.warm "/" (.empty, storedPartial.disk) = (.ok 1, cache, storedPartial.disk) ∧
      (Instruction.Apart (Involved storedPartial.disk storedPartialOptions) fun instructions =>
        Involved storedPartial.disk storedPartialOptions instructions ∨
          ∃ shared ∈ cache.programs, shared.program.instructions.toList = instructions) ∧
      let plain := render .epoch { storedPartialOptions with artifacts := none } storedPartial
      let stored := render .epoch { storedPartialOptions with artifacts := some "/" } storedPartial
      stored.2.output = plain.2.output ∧ stored.2.errors = plain.2.errors ∧
        (∀ failure, plain.1 = .error failure → stored = plain) ∧
        ∃ last, (plain.1 = .ok () → stored = (do let _ ← persist .epoch "/" last) plain.2) ∧
          ((plain.1 = .ok () →
              ∃ results, (Storage.persistAll "/" .epoch last plain.2.disk).1 = .ok results) →
            stored.1 = plain.1) := by
  intro cache
  have shelves : Storage.Shelves "/" .epoch [Storage.letter] storedPartial.disk := by
    refine ⟨rfl, .inl ⟨["stache", "programs"], [Storage.letter], .refl _, ?_⟩⟩
    have names : Path.names (Artifact.directory "/") = ["stache", "programs"] := by decide +kernel
    rw [Disk.DirectoryAt, names]
    simp [storedPartial, Disk.walk, Entry.find?, List.lookup_cons]
  have distinct : ([Storage.letter].map (·.hash)).Nodup := List.pairwise_singleton _ _
  obtain ⟨ordered, order, warmed⟩ :=
    Storage.warm_of_shelves Storage.fits_slash distinct shelves .empty
  rw [List.perm_singleton.1 order] at warmed
  have apart : Instruction.Apart (Involved storedPartial.disk storedPartialOptions)
      fun instructions => Involved storedPartial.disk storedPartialOptions instructions ∨
        ∃ shared ∈ cache.programs, shared.program.instructions.toList = instructions := by
    have differ : ContentHash.ofText (Instruction.lowered [.partialCall "p"]) ≠
        ContentHash.ofText (Instruction.lowered [.literal "x"]) := by decide +kernel
    have either : ∀ instructions, (Involved storedPartial.disk storedPartialOptions instructions ∨
        ∃ shared ∈ cache.programs, shared.program.instructions.toList = instructions) →
        instructions = [.partialCall "p"] ∨ instructions = [.literal "x"] := by
      rintro instructions (involved | ⟨shared, member, rfl⟩)
      · exact involved_storedPartial involved
      · have entered : cache.programs = [⟨0, Storage.letter⟩] := rfl
        rw [entered, List.mem_singleton] at member
        subst member
        exact .inr rfl
    intro first involved second member collide
    have same := (ContentHash.ofText_eq_ofText_iff _ _).2 (.inr collide)
    rcases involved_storedPartial involved with rfl | rfl <;>
      rcases either second member with rfl | rfl
    · exact collide.1 rfl
    · exact differ same
    · exact differ same.symm
    · exact collide.1 rfl
  have facts :=
    render_with_artifacts .epoch storedPartialOptions "/" storedPartial rfl rfl warmed apart
  refine ⟨warmed, apart, ?_⟩
  simp only at facts ⊢
  exact facts

end Mustache.CommandLine
