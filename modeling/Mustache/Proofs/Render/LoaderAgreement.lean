import Mustache.Proofs.Render.Alike
import Mustache.Proofs.Render.Loads

/-!
# Rendering from files and from memory

Two compilers that load the same templates, one from files and one from memory, keep in step while
a program runs: the names that are called come from templates that both have. So the runs write the
same, and differ in nothing but what is said about a name without a template
(`loaders_agree`).
-/

namespace Mustache

/-- An instruction that calls no templates but those of some names. -/
def Instruction.CallsOnly (called : String → Prop) (instruction : Instruction) : Prop :=
  ∀ name, instruction = .partialCall name → called name

/-- Errors are the same, or both say that one of some names has no template. The first is about the
file, which cannot be read, and the second about memory, where no text is under the name. Where the
file is not there the two differ in the path alone. -/
inductive RenderError.UpToPath (called : String → Prop) (root extension : String) (disk : Disk) :
    RenderError → RenderError → Prop where
  /-- The error is the same. -/
  | same (error : RenderError) : UpToPath called root extension disk error error
  /-- The file of a name cannot be read. -/
  | unopened {name : String} {cause : FileError} (isCalled : called name)
      (failed : (Disk.readText (TemplateSource.filePath root extension name) disk).1 =
        .error cause) :
      UpToPath called root extension disk
        (.unopened name (TemplateSource.filePath root extension name) cause)
        (.templateNotFound name name)

/-- Steps that answer alike up to errors that stand for each other compose, if each error stands
for itself. -/
theorem Composes.alikeUpTo {ε σ τ : Type} {errors : ε → ε → Prop} {states : σ → τ → Prop}
    (refl : ∀ error, errors error error) :
    Composes (AlikeUpTo errors states :
      ExceptT ε (StateM σ) Unit → ExceptT ε (StateM τ) Unit → Prop) :=
  ⟨(Alike.pure ()).upTo refl, fun first second => first.bind_of_result fun _ _ _ _ _ => second⟩

namespace Compiler

variable {compiler : Compiler} {disk : Disk} {root extension name : String}
  {templates : List (String × String)} {files memory library : Library} {workshop : Workshop}
  {cache : ProgramCache} {called : String → Prop} {program : Program}

/-- The names that are called when a program runs: by the program, by the template of a name that is
called, or by the program that a cache has for it. -/
inductive Called (compiler : Compiler) (templates : List (String × String)) (cache : ProgramCache)
    (program : Program) : String → Prop where
  /-- The program calls a name. -/
  | program {name : String} (member : .partialCall name ∈ program.instructions) :
      Called compiler templates cache program name
  /-- The template of a name calls another one. -/
  | template {caller name source : String} {template : Template}
      (before : Called compiler templates cache program caller)
      (text : templates.lookup caller = some source)
      (parsed : Template.parse compiler.delimiters source = .ok template)
      (member : .partialCall name ∈ Instruction.ofNodes template.nodes) :
      Called compiler templates cache program name
  /-- The program that the cache has for a name calls another one. -/
  | cached {caller name : String} {shared : SharedProgram}
      (before : Called compiler templates cache program caller)
      (has : compiler.Has templates cache caller shared)
      (member : .partialCall name ∈ shared.program.instructions) :
      Called compiler templates cache program name

/-- The templates of some names call only names among these. -/
def TemplatesCallOnly (compiler : Compiler) (templates : List (String × String))
    (called : String → Prop) : Prop :=
  ∀ caller, called caller → ∀ source template, templates.lookup caller = some source →
    Template.parse compiler.delimiters source = .ok template →
    ∀ instruction ∈ Instruction.ofNodes template.nodes, instruction.CallsOnly called

/-- The programs that a cache has for some names call only names among these. -/
def CacheCallsOnly (compiler : Compiler) (templates : List (String × String))
    (called : String → Prop) (cache : ProgramCache) : Prop :=
  ∀ caller, called caller → ∀ shared, compiler.Has templates cache caller shared →
    shared.program.Only (Instruction.CallsOnly called)

theorem templatesCallOnly_called (templates : List (String × String)) (cache : ProgramCache)
    (program : Program) :
    compiler.TemplatesCallOnly templates (compiler.Called templates cache program) := by
  rintro caller before source template text parsed _ member name rfl
  exact .template before text parsed member

theorem cacheCallsOnly_called (templates : List (String × String)) (cache : ProgramCache)
    (program : Program) :
    compiler.CacheCallsOnly templates (compiler.Called templates cache program) cache := by
  rintro caller before shared has _ member name rfl
  exact .cached before has member

/-- The names that are `Called` are the fewest: they are among any names that the program calls
only, and beyond which neither their templates nor their programs in the cache call. -/
theorem Called.of_closed {allowed : String → Prop}
    (own : program.Only (Instruction.CallsOnly allowed))
    (closed : compiler.TemplatesCallOnly templates allowed)
    (only : compiler.CacheCallsOnly templates allowed cache)
    (isCalled : compiler.Called templates cache program name) : allowed name := by
  induction isCalled with
  | program member => exact own _ member _ rfl
  | template _ text parsed member inductionHypothesis =>
    exact closed _ inductionHypothesis _ _ text parsed _ member _ rfl
  | cached _ has member inductionHypothesis =>
    exact only _ inductionHypothesis _ has _ member _ rfl

/-- A cache whose programs call only some names stays so (`CacheCallsOnly`) when the template of one
of these names is compiled. -/
theorem CacheCallsOnly.compile (only : compiler.CacheCallsOnly templates called workshop.cache)
    (closed : compiler.TemplatesCallOnly templates called) (isCalled : called name)
    {source : String} (text : templates.lookup name = some source) :
    compiler.CacheCallsOnly templates called (compiler.compile source workshop).2.cache := by
  rintro caller callerCalled shared ⟨own, template, ownText, parsed, known⟩
  rcases (compiler.compile_step source workshop).get?_or_about known with old | about
  · exact only caller callerCalled shared ⟨own, template, ownText, parsed, old⟩
  · -- The entry is new, so its program is that of the template.
    cases read : Template.parse compiler.delimiters source with
    | error =>
      rw [CacheCall.instructions?, read] at about
      cases about
    | ok template =>
      rw [CacheCall.instructions?, read] at about
      have same : Instruction.ofNodes template.nodes = shared.program.instructions.toList :=
        Option.some.inj about
      intro instruction member
      apply closed name isCalled source template text read
      rw [same]
      exact Array.mem_toList_iff.2 member

/-- Libraries that are `InStep`, with programs in their cache that call only some names. -/
structure Together (compiler : Compiler) (templates : List (String × String)) (disk : Disk)
    (called : String → Prop) (files memory : Library) : Prop where
  /-- The libraries are in step. -/
  inStep : compiler.InStep templates disk files memory
  /-- The programs in the cache call only the names. -/
  only : compiler.CacheCallsOnly templates called memory.workshop.cache

/-- Libraries stay together when one of the names is loaded, and answer it up to the path with a
program that calls only the names. -/
theorem loader_together (closed : compiler.TemplatesCallOnly templates called)
    (isCalled : called name) (mirrors : compiler.Mirrors root extension templates disk name)
    (together : compiler.Together templates disk called files memory) :
    ResultUpTo (RenderError.UpToPath called root extension disk)
        ((compiler.loader (.files root extension)).load name files).1
        ((compiler.loader (.memory templates)).load name memory).1 ∧
      compiler.Together templates disk called
        ((compiler.loader (.files root extension)).load name files).2
        ((compiler.loader (.memory templates)).load name memory).2 ∧
      ∀ program, ((compiler.loader (.memory templates)).load name memory).1 = .ok program →
        program.Only (Instruction.CallsOnly called) := by
  obtain ⟨answers, inStep⟩ := load_inStep mirrors together.inStep
  have only : compiler.CacheCallsOnly templates called
      (compiler.load (.memory templates) name memory).2.workshop.cache := by
    rw [load_memory]
    cases text : templates.lookup name with
    | none => exact together.only
    | some source => exact together.only.compile closed isCalled text
  rw [loader_apply, loader_apply]
  refine ⟨?_, ⟨inStep, only⟩, ?_⟩
  · apply ResultUpTo.map
    generalize (compiler.load (.files root extension) name files).1 = first at answers ⊢
    generalize (compiler.load (.memory templates) name memory).1 = second at answers ⊢
    cases answers with
    | compiled text result =>
      cases result with
      | error error => exact .error (.same _)
      | ok shared => exact .ok shared
    | unopened free failed => exact .error (.unopened isCalled failed)
  · intro program answered
    rcases loads : compiler.load (.memory templates) name memory with ⟨_ | shared, after⟩
    · rw [loads] at answered
      cases answered
    · rw [loads] at answered only
      cases answered
      exact only name isCalled shared (has_of_load_memory loads)

end Compiler

namespace Rendering

variable {σ : Type} {host : Host} {sinks : Sink → Sink → Prop} {states : σ → σ → Prop}

/-- From the same members that were found `resolve` names the same. -/
theorem resolve_alongside (host : Host) (scope : Scope) (path : String) :
    Alike (Session.Alongside sinks Eq states) (resolve host scope path)
      (resolve host scope path) := by
  intro first second start
  unfold resolve
  rw [start.accessors]
  rcases scope.resolve host path second.accessors with ⟨_ | _, accessors⟩
  · exact ⟨rfl, start.sink, rfl, start.loading⟩
  · exact ⟨rfl, start.sink, rfl, start.loading⟩

/-- From the same members that were found `interpolate` writes the same for a path. -/
theorem interpolate_alongside (takes : Sink.TakeAlike sinks) (host : Host) (path : String)
    (escaped : Bool) (scope : Scope) :
    Alike (Session.Alongside sinks Eq states) (interpolate host path escaped scope)
      (interpolate host path escaped scope) := by
  have shows : host.ShowsAlike (fun _ => True) Eq Eq Eq host :=
    Host.showsAlike_self (fun _ _ => Alike.of_eq _) _
  apply AlikeUnless.alike
  exact interpolate_alikeUnless takes shows trivial rfl

variable {compiler : Compiler} {disk : Disk} {root extension name : String}
  {templates : List (String × String)} {called : String → Prop}

/-- A block over one path (`overFrames`) is alike in both runs if its body is. -/
theorem overFrames_alikeUpTo {errors : RenderError → RenderError → Prop}
    (refl : ∀ error, errors error error) (kind : BlockKind) (path : String) (scope : Scope)
    {left right : Scope → Rendering σ Unit}
    (bodies : ∀ inner, AlikeUpTo errors (Session.Alongside sinks Eq states) (left inner)
      (right inner)) :
    AlikeUpTo errors (Session.Alongside sinks Eq states) (overFrames host kind path scope left)
      (overFrames host kind path scope right) := by
  apply ((resolve_alongside host scope path).upTo refl).bind_of_result
  intro _ _ resolved _ _
  have frames : List.Forall₂ Eq resolved.frameHosts resolved.frameHosts :=
    List.forall₂_same.2 fun _ _ => rfl
  apply (Composes.alikeUpTo refl).overHosts kind frames
  · rintro inner _ rfl
    exact bodies (scope.child inner)
  · exact bodies scope

/-- A program is loaded alike by `load` from files and from memory. -/
theorem load_alikeUpTo (closed : compiler.TemplatesCallOnly templates called)
    (isCalled : called name) (mirrors : compiler.Mirrors root extension templates disk name) :
    AlikeUpTo (RenderError.UpToPath called root extension disk)
      (Session.Alongside Eq Eq (compiler.Together templates disk called))
      (load (compiler.loader (.files root extension)) name)
      (load (compiler.loader (.memory templates)) name) := by
  intro first second start
  obtain ⟨results, together, _⟩ := Compiler.loader_together closed isCalled mirrors start.loading
  unfold load
  rcases leftRun : (compiler.loader (.files root extension)).load name first.loading with
    ⟨leftResult, leftAfter⟩
  rcases rightRun : (compiler.loader (.memory templates)).load name second.loading with
    ⟨rightResult, rightAfter⟩
  rw [leftRun, rightRun] at results together
  cases results with
  | ok program => exact ⟨.ok program, start.sink, start.accessors, together⟩
  | error same => exact ⟨.error same, start.sink, start.accessors, together⟩

/-- What the rendering `actions` do at an instruction is alike from files and from memory, if it
calls only names that stand for the same texts. -/
theorem actions_alikeUpTo (host : Host) (closed : compiler.TemplatesCallOnly templates called)
    (mirrors : ∀ name, called name → compiler.Mirrors root extension templates disk name) :
    Actions.RelatedFor (Instruction.CallsOnly called) Eq
      (AlikeUpTo (RenderError.UpToPath called root extension disk)
        (Session.Alongside Eq Eq (compiler.Together templates disk called)))
      (actions host (compiler.loader (.files root extension)))
      (actions host (compiler.loader (.memory templates))) where
  composes := Composes.alikeUpTo .same
  literal text _ := (write_alike Sink.takeAlike_eq text.toByteArray).upTo .same
  interpolation path escaped _ scope other same := by
    subst same
    exact (interpolate_alongside Sink.takeAlike_eq host path escaped scope).upTo .same
  block kind path _ scope other same body bodyRight bodies := by
    subst same
    exact overFrames_alikeUpTo .same kind path scope fun inner => bodies rfl
  call name permitted run runRight runs := by
    have isCalled := permitted name rfl
    apply (load_alikeUpTo closed isCalled (mirrors name isCalled)).bind_of_result
    intro first second program start answer
    apply runs program
    obtain ⟨results, _, only⟩ :=
      Compiler.loader_together closed isCalled (mirrors name isCalled) start.loading
    rw [result_load] at answer
    rw [answer] at results
    cases found : ((compiler.loader (.memory templates)).load name second.loading).1 with
    | error =>
      rw [found] at results
      cases results
    | ok other =>
      rw [found] at results
      cases results
      exact only program found
  fail error := (Alike.throw error).upTo .same

end Rendering

namespace Compiler

/-- Let some names stand for the same texts among the files and in memory. Whatever of them was
loaded before, one that has a readable file is answered from files with the instance, or the compile
error, with which it is answered from memory; one whose file is not there is found by neither. A
load that fails leaves no trace but on the disk, and a load that succeeds is answered with the same
instance ever after. So a program that runs in both ways, and calls only such names, writes the same
and ends in the same way up to the path in the error. -/
theorem loaders_agree (compiler : Compiler) (root extension : String)
    (templates : List (String × String)) (disk : Disk) (cache : ProgramCache) :
    let files := TemplateSource.files root extension
    let memory := TemplateSource.memory templates
    let start : Library := { workshop := ⟨cache, disk⟩ }
    let mirrored := compiler.Mirrors root extension templates disk
    (∀ names name, (∀ other ∈ name :: names, mirrored other) →
      let path := TemplateSource.filePath root extension name
      (∀ cause, (Disk.readText path disk).1 = .error cause → cause = .notFound) →
      let first := (compiler.load files name (compiler.loadAll files names start)).1
      let second := (compiler.load memory name (compiler.loadAll memory names start)).1
      (∃ source, ∃ result : Except CompileError SharedProgram,
        templates.lookup name = some source ∧ (Disk.readText path disk).1 = .ok source ∧
          first = result.mapError .uncompiled ∧ second = result.mapError .uncompiled) ∨
      (templates.lookup name = none ∧ (Disk.readText path disk).1 = .error .notFound ∧
        first = .error (.templateNotFound name path) ∧
        second = .error (.templateNotFound name name))) ∧
    (∀ source name library error after,
      compiler.load source name library = (.error error, after) →
      after = { library with
        workshop := { library.workshop with disk := after.workshop.disk } }) ∧
    (∀ source name library shared after,
      compiler.load source name library = (.ok shared, after) → ∀ names,
      compiler.load source name (compiler.loadAll source names after) =
        (.ok shared, compiler.loadAll source names after)) ∧
    ∀ names, (∀ other ∈ names, mirrored other) →
      let fromFiles := compiler.loadAll files names start
      let fromMemory := compiler.loadAll memory names start
      ∀ (host : Host) program scope sink accessors,
        let called := compiler.Called templates fromMemory.workshop.cache program
        (∀ name, called name → mirrored name) →
        let first :=
          Rendering.run host (compiler.loader files) program scope ⟨sink, accessors, fromFiles⟩
        let second :=
          Rendering.run host (compiler.loader memory) program scope ⟨sink, accessors, fromMemory⟩
        ResultUpTo (RenderError.UpToPath called root extension disk) first.1 second.1 ∧
          first.2.sink = second.2.sink ∧ first.2.accessors = second.2.accessors := by
  intro files memory start mirrored
  refine ⟨?_, ?_, ?_, ?_⟩
  · intro names name all path opens first second
    have mirrors := all name List.mem_cons_self
    have inStep : compiler.InStep templates disk (compiler.loadAll files names start)
        (compiler.loadAll memory names start) :=
      loadAll_inStep (fun other member => all other (List.mem_cons_of_mem _ member))
        (inStep_start cache)
    obtain ⟨answers, _⟩ := load_inStep mirrors inStep
    have text := mirrors.text
    change Answers root extension templates disk name first second at answers
    clear_value first second
    cases read : (Disk.readText path disk).1 with
    | ok source =>
      rw [read] at text
      cases answers with
      | compiled _ result => exact .inl ⟨source, result, text.symm, rfl, rfl, rfl⟩
      | unopened free => cases free.symm.trans text.symm
    | error cause =>
      rw [read] at text
      have missing := opens cause read
      subst missing
      cases answers with
      | compiled other => cases other.symm.trans text.symm
      | unopened _ failed =>
        cases read.symm.trans failed
        exact .inr ⟨text.symm, rfl, rfl, rfl⟩
  · intro source name library error after failed
    exact eq_of_load_error source failed
  · intro source name library shared after loads names
    exact load_again loads names
  · intro names all fromFiles fromMemory host program scope sink accessors called mirrors
    have together : compiler.Together templates disk called fromFiles fromMemory :=
      ⟨loadAll_inStep all (inStep_start cache), cacheCallsOnly_called _ _ _⟩
    have only : program.Only (Instruction.CallsOnly called) := by
      rintro _ member name rfl
      exact .program member
    obtain ⟨results, sessions⟩ := Rendering.execute_relatedFor
      (Rendering.actions_alikeUpTo host (templatesCallOnly_called _ _ _) mirrors) 0 program only 0
      program.instructions.size (Eq.refl scope) ⟨sink, accessors, fromFiles⟩
      ⟨sink, accessors, fromMemory⟩ ⟨rfl, rfl, together⟩
    exact ⟨results, sessions.sink, sessions.accessors⟩

/-- The program that calls one template. -/
def caller : Program := ⟨#[.partialCall "p"], #[none], _, rfl, rfl⟩

/-- Of three names one has a template, one a text that is none, and one nothing. -/
theorem loaders_agree_three :
    let calling := "x\x7b\x7b>q\x7d\x7d"
    let unclosed := "\x7b\x7b#a\x7d\x7d"
    let templates := [("p", calling), ("bad", unclosed)]
    let disk : Disk := ⟨.directory [("p.mustache", .file calling.toByteArray),
      ("bad.mustache", .file unclosed.toByteArray)], [], none⟩
    let compiler : Compiler := {}
    let files := TemplateSource.files "/" "mustache"
    let memory := TemplateSource.memory templates
    let start : Library := { workshop := ⟨.empty, disk⟩ }
    (∀ name ∈ ["p", "bad", "q"], compiler.Mirrors "/" "mustache" templates disk name) ∧
      (∃ shared after, compiler.load files "p" start = (.ok shared, after) ∧
        compiler.load files "p" (compiler.loadAll files ["bad", "q"] after) =
          (.ok shared, compiler.loadAll files ["bad", "q"] after) ∧
        (compiler.load memory "p" start).1 = .ok shared) ∧
      (compiler.load files "q" start).1 = .error (.templateNotFound "q" "/q.mustache") ∧
      (compiler.load files "q" start).2.loaded = [] ∧
      (compiler.load memory "q" start).1 = .error (.templateNotFound "q" "q") ∧
      ∀ host scope,
        ResultUpTo (RenderError.UpToPath (compiler.Called templates .empty caller) "/" "mustache" disk)
          (Rendering.run host (compiler.loader files) caller scope ⟨{}, {}, start⟩).1
          (Rendering.run host (compiler.loader memory) caller scope ⟨{}, {}, start⟩).1 := by
  intro calling unclosed templates disk compiler files memory start
  have mirrors : ∀ name ∈ ["p", "bad", "q"],
      compiler.Mirrors "/" "mustache" templates disk name := by
    intro name member
    apply Mirrors.of_silent rfl rfl
    revert name
    decide +kernel
  obtain ⟨loads, traces, again, renders⟩ :=
    loaders_agree compiler "/" "mustache" templates disk .empty
  have readP : (Disk.readText (TemplateSource.filePath "/" "mustache" "p") disk).1 =
      .ok calling := by decide +kernel
  have readQ : (Disk.readText (TemplateSource.filePath "/" "mustache" "q") disk).1 =
      .error .notFound := by decide +kernel
  have pathQ : TemplateSource.filePath "/" "mustache" "q" = "/q.mustache" := by decide +kernel
  have loadP := loads [] "p" (by simpa using mirrors "p" (by decide))
    (fun cause failed => nomatch readP.symm.trans failed)
  have loadQ := loads [] "q" (by simpa using mirrors "q" (by decide))
    (fun cause failed => (Except.error.inj (readQ.symm.trans failed)).symm)
  have okP : (compiler.load files "p" start).1.isOk = true := by decide +kernel
  have parseP : (Template.parse compiler.delimiters calling).toOption.map
      (fun template => Instruction.ofNodes template.nodes) =
        some [.literal "x", .partialCall "q"] := by decide +kernel
  have parseBad : (Template.parse compiler.delimiters unclosed).toOption.map
      (fun template => Instruction.ofNodes template.nodes) = none := by decide +kernel
  have own : caller.Only (Instruction.CallsOnly (· ∈ ["p", "bad", "q"])) := by
    rintro _ member name rfl
    cases List.mem_singleton.1 (Array.mem_toList_iff.2 member)
    decide
  have closed : compiler.TemplatesCallOnly templates (· ∈ ["p", "bad", "q"]) := by
    rintro name among source template text parsed _ member other rfl
    simp only [List.mem_cons, List.not_mem_nil, or_false] at among
    rcases among with rfl | rfl | rfl
    · cases text
      rw [parsed] at parseP
      have forms : Instruction.ofNodes template.nodes = [.literal "x", .partialCall "q"] :=
        Option.some.inj parseP
      rw [forms] at member
      simp only [List.mem_cons, List.not_mem_nil, or_false, reduceCtorEq, false_or,
        Instruction.partialCall.injEq] at member
      subst member
      decide
    · cases text
      rw [parsed] at parseBad
      cases parseBad
    · cases text
  have only : compiler.CacheCallsOnly templates (· ∈ ["p", "bad", "q"]) .empty := by
    rintro _ _ _ ⟨_, _, _, _, known⟩
    cases known
  refine ⟨mirrors, ?_, ?_, ?_, ?_, ?_⟩
  · rcases loadP with ⟨source, _ | shared, _, _, first, second⟩ | ⟨free, _⟩
    · rw [show (compiler.load files "p" start).1 = _ from first] at okP
      cases okP
    · have loaded : compiler.load files "p" start =
          (.ok shared, (compiler.load files "p" start).2) := Prod.ext first rfl
      exact ⟨shared, _, loaded, again files "p" start shared _ loaded ["bad", "q"], second⟩
    · cases free
  · rcases loadQ with ⟨_, _, text, _⟩ | ⟨_, _, first, _⟩
    · cases text
    · exact pathQ ▸ first
  · rcases loadQ with ⟨_, _, text, _⟩ | ⟨_, _, first, _⟩
    · cases text
    · exact congrArg Library.loaded
        (traces files "q" start _ (compiler.load files "q" start).2 (Prod.ext first rfl))
  · rcases loadQ with ⟨_, _, text, _⟩ | ⟨_, _, _, second⟩
    · cases text
    · exact second
  · intro host scope
    exact (renders [] (by simp) host caller scope {} {}
      fun name isCalled => mirrors name (isCalled.of_closed own closed only)).1

end Compiler

end Mustache
