import Mustache.Proofs.Compile.CacheHistory
import Mustache.Proofs.Render.FileTemplates

/-!
# Loading again and again

A load that fails leaves no trace in what a compiler remembers, and a load that succeeds is
answered with the same instance ever after. So it makes no difference whether templates are
remembered under their names, as those from files are, or compiled anew each time, as those from
memory are: the two ways of loading keep in step (`load_agrees`) as long as the texts in memory are
those of the files.
-/

namespace Mustache

/-- Why a template is not loaded whose file cannot be read. -/
def RenderError.unopened (name path : String) : FileError → RenderError
  | .notFound => .templateNotFound name path
  | cause => .unreadable path cause

namespace Compiler

variable {compiler : Compiler} {disk reached : Disk} {root extension name : String}
  {templates : List (String × String)} {files memory library after : Library}
  {workshop : Workshop} {cache : ProgramCache} {shared : SharedProgram}

/-- The library after `load` was asked for names one after another. -/
def loadAll (compiler : Compiler) (source : TemplateSource) (names : List String)
    (library : Library) : Library :=
  names.foldl (fun reached name => (compiler.load source name reached).2) library

/-- The disks that writing down the text forms of programs leads to. -/
inductive Reaches (compiler : Compiler) (disk : Disk) : Disk → Prop where
  /-- Nothing has been written down. -/
  | start : Reaches compiler disk disk
  /-- One more program is written down. -/
  | dump {reached : Disk} (program : Program) (before : Reaches compiler disk reached) :
      Reaches compiler disk (compiler.dump program reached).2

/-- A compiler that writes nothing down leads nowhere. -/
theorem Reaches.eq_of_silent (silent : compiler.dumpDirectory = none)
    (reaches : compiler.Reaches disk reached) : reached = disk := by
  induction reaches with
  | start => rfl
  | dump program _ inductionHypothesis =>
    rw [Compiler.dump, silent]
    exact inductionHypothesis

/-- Compiling with `Compiler.compile` writes down one program at most. -/
theorem Reaches.compile (reaches : compiler.Reaches disk workshop.disk) (source : String) :
    compiler.Reaches disk (compiler.compile source workshop).2.disk := by
  unfold Compiler.compile
  cases Template.parse compiler.delimiters source with
  | error => exact reaches
  | ok template =>
    simp only [ProgramCache.lookupOrBuildWith]
    cases workshop.cache.get? (ContentHash.ofText
        (Instruction.lowered (Instruction.ofNodes template.nodes))) with
    | some => exact reaches
    | none =>
      cases Program.ofInstructions (Instruction.ofNodes template.nodes) with
      | error => exact reaches
      | ok program =>
        have dumped := reaches.dump program
        simp only
        revert dumped
        rcases compiler.dump program workshop.disk with ⟨_ | _, _⟩ <;> exact fun dumped => dumped

/-- A name stands for the same text in memory and among the files, also when text forms of programs
have been written down. -/
structure Mirrors (compiler : Compiler) (root extension : String)
    (templates : List (String × String)) (disk : Disk) (name : String) : Prop where
  /-- The text in memory is that of the file, and there is none if the file cannot be read. -/
  text : (Disk.readText (TemplateSource.filePath root extension name) disk).1.toOption =
    templates.lookup name
  /-- The file stays as it is, and reading it changes nothing. -/
  stays : ∀ reached, compiler.Reaches disk reached →
    Disk.readText (TemplateSource.filePath root extension name) reached =
      ((Disk.readText (TemplateSource.filePath root extension name) disk).1, reached)

/-- Without a fault to come files stay as they are if nothing is written down. -/
theorem Mirrors.of_silent (silent : compiler.dumpDirectory = none) (calm : disk.fault = none)
    (text : (Disk.readText (TemplateSource.filePath root extension name) disk).1.toOption =
      templates.lookup name) : compiler.Mirrors root extension templates disk name := by
  refine ⟨text, ?_⟩
  intro reached reaches
  have same := reaches.eq_of_silent silent
  subst same
  exact Prod.ext rfl (Disk.readText_disk_of_calm calm _)

/-- A cache has an instance for the template of a name (`ProgramCache.get?`). -/
def Has (compiler : Compiler) (templates : List (String × String)) (cache : ProgramCache)
    (name : String) (shared : SharedProgram) : Prop :=
  ∃ source template, templates.lookup name = some source ∧
    Template.parse compiler.delimiters source = .ok template ∧
    cache.get? (Instruction.hash (Instruction.ofNodes template.nodes)) = some shared

/-- What `Compiler.compile` does to the cache is a `CacheCall.Step`. -/
theorem compile_step (compiler : Compiler) (source : String) (workshop : Workshop) :
    CacheCall.Step (.compile compiler source) workshop.cache
      (compiler.compile source workshop).2.cache
      ((compiler.compile source workshop).1.map (·.shared)) :=
  CacheCall.perform_step (.compile compiler source) workshop

/-- Compiling loses no instance that a cache `Has` for a name. -/
theorem Has.compile (has : compiler.Has templates workshop.cache name shared) (source : String) :
    compiler.Has templates (compiler.compile source workshop).2.cache name shared := by
  obtain ⟨own, template, text, parsed, known⟩ := has
  exact ⟨own, template, text, parsed, (compiler.compile_step source workshop).get?_of_get? known⟩

/-- The instance that `Compiler.compile` answers a template with is there for its name (`Has`). -/
theorem has_of_compile {source : String} {compiled : Compiled}
    (text : templates.lookup name = some source)
    (compiles : (compiler.compile source workshop).1 = .ok compiled) :
    compiler.Has templates (compiler.compile source workshop).2.cache name compiled.shared := by
  have answered : ((CacheCall.compile compiler source).perform workshop).1 =
      .ok compiled.shared :=
    congrArg (Except.map Compiled.shared) compiles
  obtain ⟨template, parsed, about⟩ := CacheCall.exists_about_of_compile answered
  exact ⟨source, template, text, parsed,
    (compiler.compile_step source workshop).get?_of_about about answered⟩

/-- An instance that is there for a name (`Has`) is what `load` answers it with from memory. -/
theorem load_memory_of_has (has : compiler.Has templates library.workshop.cache name shared) :
    compiler.load (.memory templates) name library = (.ok shared, library) := by
  obtain ⟨source, template, text, parsed, known⟩ := has
  rw [load_memory, text]
  simp only [compile_of_known parsed known]
  rfl

/-- What `load` answers a name with from memory is there for it (`Has`). -/
theorem has_of_load_memory
    (loads : compiler.load (.memory templates) name library = (.ok shared, after)) :
    compiler.Has templates after.workshop.cache name shared := by
  rw [load_memory] at loads
  cases text : templates.lookup name with
  | none =>
    rw [text] at loads
    cases loads
  | some source =>
    simp only [text] at loads
    cases compiles : (compiler.compile source library.workshop).1 with
    | error =>
      rw [compiles] at loads
      cases loads
    | ok compiled =>
      rw [compiles] at loads
      cases loads
      exact has_of_compile text compiles

/-- A name that was loaded is answered by `load` with the instance that is remembered. -/
theorem load_files_of_loaded (found : library.loaded.lookup name = some shared) :
    compiler.load (.files root extension) name library = (.ok shared, library) := by
  rw [load_files, found]

/-- A name that was not loaded is answered by `load` with what compiling the text of its file gives,
and is remembered if that succeeds. -/
theorem load_files_of_free (free : library.loaded.lookup name = none) :
    compiler.load (.files root extension) name library =
      match Disk.readText (TemplateSource.filePath root extension name) library.workshop.disk with
      | (.error cause, disk) =>
        (.error (.unopened name (TemplateSource.filePath root extension name) cause),
          { library with workshop := { library.workshop with disk := disk } })
      | (.ok source, disk) =>
        match compiler.compile source { library.workshop with disk := disk } with
        | (.error error, last) => (.error (.uncompiled error), { library with workshop := last })
        | (.ok compiled, last) =>
          (.ok compiled.shared,
            { workshop := last, loaded := (name, compiled.shared) :: library.loaded }) := by
  rw [load_files, free]
  simp only [readToLoad, compileToLoad]
  rcases Disk.readText (TemplateSource.filePath root extension name) library.workshop.disk with
    ⟨cause | source, disk⟩
  · cases cause <;> rfl
  · simp only
    rcases compiler.compile source { library.workshop with disk := disk } with ⟨_ | _, _⟩ <;> rfl

section Traces

/-- A template that `Compiler.compile` refuses leaves no trace but on the disk. -/
theorem eq_of_compile_error {source : String} {error : CompileError} {last : Workshop}
    (failed : compiler.compile source workshop = (.error error, last)) :
    last = { workshop with disk := last.disk } := by
  have step := compiler.compile_step source workshop
  rw [failed] at step
  rw [← show last.cache = workshop.cache from step.eq_of_error rfl]

/-- Loading a template with `load` fails only because there is none, or its file cannot be read, or
its text does not compile. -/
theorem load_eq_error {source : TemplateSource} {error : RenderError}
    (failed : (compiler.load source name library).1 = .error error) :
    (∃ path, error = .templateNotFound name path) ∨ (∃ path cause, error = .unreadable path cause) ∨
      ∃ cause, error = .uncompiled cause ∧
        ∃ text workshop, (compiler.compile text workshop).1 = .error cause := by
  cases source with
  | memory templates =>
    rw [load_memory] at failed
    cases text : templates.lookup name with
    | none =>
      rw [text] at failed
      cases failed
      exact .inl ⟨name, rfl⟩
    | some source =>
      simp only [text] at failed
      cases compiles : (compiler.compile source library.workshop).1 with
      | error cause =>
        rw [compiles] at failed
        cases failed
        exact .inr (.inr ⟨cause, rfl, source, library.workshop, compiles⟩)
      | ok =>
        rw [compiles] at failed
        cases failed
  | files root extension =>
    cases found : library.loaded.lookup name with
    | some =>
      rw [load_files_of_loaded found] at failed
      cases failed
    | none =>
      rw [load_files_of_free found] at failed
      rcases read : Disk.readText (TemplateSource.filePath root extension name)
        library.workshop.disk with ⟨cause | source, disk⟩
      · rw [read] at failed
        cases failed
        cases cause with
        | notFound => exact .inl ⟨_, rfl⟩
        | _ => exact .inr (.inl ⟨_, _, rfl⟩)
      · simp only [read] at failed
        rcases compiles : compiler.compile source { library.workshop with disk := disk } with
          ⟨cause | _, _⟩
        · rw [compiles] at failed
          cases failed
          exact .inr (.inr ⟨cause, rfl, source, _, congrArg Prod.fst compiles⟩)
        · rw [compiles] at failed
          cases failed

/-- A `load` that fails leaves no trace but on the disk. -/
theorem eq_of_load_error (source : TemplateSource) {error : RenderError}
    (failed : compiler.load source name library = (.error error, after)) :
    after = { library with workshop := { library.workshop with disk := after.workshop.disk } } := by
  cases source with
  | memory templates =>
    rw [load_memory] at failed
    cases text : templates.lookup name with
    | none =>
      rw [text] at failed
      cases failed
      rfl
    | some source =>
      simp only [text] at failed
      rcases compiles : compiler.compile source library.workshop with ⟨_ | _, last⟩
      · rw [compiles] at failed
        cases failed
        exact congrArg (fun kept => { library with workshop := kept })
          (eq_of_compile_error compiles)
      · rw [compiles] at failed
        cases failed
  | files root extension =>
    cases found : library.loaded.lookup name with
    | some =>
      rw [load_files_of_loaded found] at failed
      cases failed
    | none =>
      rw [load_files_of_free found] at failed
      rcases read : Disk.readText (TemplateSource.filePath root extension name)
        library.workshop.disk with ⟨cause | source, disk⟩
      · rw [read] at failed
        cases failed
        rfl
      · simp only [read] at failed
        rcases compiles : compiler.compile source { library.workshop with disk := disk } with
          ⟨_ | _, last⟩
        · rw [compiles] at failed
          cases failed
          exact congrArg (fun kept => { library with workshop := kept })
            (eq_of_compile_error compiles)
        · rw [compiles] at failed
          cases failed

/-- A name is remembered by the file loader, or its instance is in the cache for memory. -/
def Remembers (compiler : Compiler) (source : TemplateSource) (library : Library) (name : String)
    (shared : SharedProgram) : Prop :=
  match source with
  | .memory templates => compiler.Has templates library.workshop.cache name shared
  | .files _ _ => library.loaded.lookup name = some shared

/-- What a library `Remembers` is what `load` answers, and nothing changes. -/
theorem Remembers.load {source : TemplateSource}
    (remembers : compiler.Remembers source library name shared) :
    compiler.load source name library = (.ok shared, library) := by
  cases source with
  | memory templates => exact load_memory_of_has remembers
  | files root extension => exact load_files_of_loaded remembers

/-- What `load` has answered the library `Remembers`. -/
theorem remembers_of_load {source : TemplateSource}
    (loads : compiler.load source name library = (.ok shared, after)) :
    compiler.Remembers source after name shared := by
  cases source with
  | memory templates => exact has_of_load_memory loads
  | files root extension =>
    cases found : library.loaded.lookup name with
    | some known =>
      rw [load_files_of_loaded found] at loads
      cases loads
      exact found
    | none =>
      rw [load_files_of_free found] at loads
      rcases read : Disk.readText (TemplateSource.filePath root extension name)
        library.workshop.disk with ⟨_ | source, disk⟩
      · rw [read] at loads
        cases loads
      · simp only [read] at loads
        rcases compiles : compiler.compile source { library.workshop with disk := disk } with
          ⟨_ | compiled, last⟩
        · rw [compiles] at loads
          cases loads
        · rw [compiles] at loads
          cases loads
          exact List.lookup_cons_self

/-- What a library `Remembers` it remembers after any `load`, and as the same instance. -/
theorem Remembers.after_load {source : TemplateSource}
    (remembers : compiler.Remembers source library name shared) (other : String) :
    compiler.Remembers source (compiler.load source other library).2 name shared := by
  cases source with
  | memory templates =>
    rw [load_memory]
    cases templates.lookup other with
    | none => exact remembers
    | some source => exact Has.compile remembers source
  | files root extension =>
    by_cases same : other = name
    · rw [same, Remembers.load remembers]
      exact remembers
    · have kept : ∀ last : Library, last.loaded = library.loaded →
          compiler.Remembers (.files root extension) last name shared := by
        intro last unchanged
        rw [Remembers, unchanged]
        exact remembers
      cases found : library.loaded.lookup other with
      | some known =>
        rw [load_files_of_loaded found]
        exact remembers
      | none =>
        rw [load_files_of_free found]
        rcases Disk.readText (TemplateSource.filePath root extension other)
          library.workshop.disk with ⟨_ | source, disk⟩
        · exact kept _ rfl
        · simp only
          rcases compiler.compile source { library.workshop with disk := disk } with
            ⟨_ | compiled, last⟩
          · exact kept _ rfl
          · change List.lookup name ((other, compiled.shared) :: library.loaded) = some shared
            rw [List.lookup_cons, beq_eq_false_iff_ne.2 (Ne.symm same)]
            exact remembers

/-- A name that was loaded is answered by `load` with the same instance after any further loads, and
nothing changes then. -/
theorem load_again {source : TemplateSource}
    (loads : compiler.load source name library = (.ok shared, after)) (names : List String) :
    compiler.load source name (compiler.loadAll source names after) =
      (.ok shared, compiler.loadAll source names after) := by
  apply Remembers.load
  have remembers := remembers_of_load loads
  clear loads
  induction names generalizing after with
  | nil => exact remembers
  | cons other rest inductionHypothesis => exact inductionHypothesis (remembers.after_load other)

end Traces

section Agreement

/-- A library that loads templates from files and one that loads them from memory are in step: they
have the same programs and the same files, and what was loaded from files is in the cache for the
texts in memory. -/
structure InStep (compiler : Compiler) (templates : List (String × String)) (disk : Disk)
    (files memory : Library) : Prop where
  /-- The programs and the files are the same. -/
  workshop : files.workshop = memory.workshop
  /-- No files have changed but for what has been written down. -/
  reaches : compiler.Reaches disk files.workshop.disk
  /-- What was loaded is there for the texts in memory. -/
  loaded : ∀ name shared, files.loaded.lookup name = some shared →
    compiler.Has templates files.workshop.cache name shared

/-- Two libraries that have loaded nothing are in step. -/
theorem inStep_start (cache : ProgramCache) :
    compiler.InStep templates disk { workshop := ⟨cache, disk⟩ } { workshop := ⟨cache, disk⟩ } :=
  ⟨rfl, .start, fun _ _ found => nomatch found⟩

/-- What a name is answered with from files, and what it is answered with from memory. -/
inductive Answers (root extension : String) (templates : List (String × String)) (disk : Disk)
    (name : String) : Except RenderError SharedProgram → Except RenderError SharedProgram → Prop
    where
  /-- The program of the template, or why it does not compile. -/
  | compiled {source : String} (text : templates.lookup name = some source)
      (result : Except CompileError SharedProgram) :
      Answers root extension templates disk name (result.mapError .uncompiled)
        (result.mapError .uncompiled)
  /-- There is no text in memory, and the file cannot be read. -/
  | unopened {cause : FileError} (free : templates.lookup name = none)
      (failed : (Disk.readText (TemplateSource.filePath root extension name) disk).1 =
        .error cause) :
      Answers root extension templates disk name
        (.error (.unopened name (TemplateSource.filePath root extension name) cause))
        (.error (.templateNotFound name name))

/-- Libraries that are in step answer a name alike if it stands for the same text, and stay in
step. -/
theorem load_inStep (mirrors : compiler.Mirrors root extension templates disk name)
    (inStep : compiler.InStep templates disk files memory) :
    Answers root extension templates disk name
        (compiler.load (.files root extension) name files).1
        (compiler.load (.memory templates) name memory).1 ∧
      compiler.InStep templates disk (compiler.load (.files root extension) name files).2
        (compiler.load (.memory templates) name memory).2 := by
  cases found : files.loaded.lookup name with
  | some shared =>
    have has := inStep.loaded name shared found
    rw [load_files_of_loaded found, load_memory_of_has (inStep.workshop ▸ has)]
    obtain ⟨source, _, text, _⟩ := has
    exact ⟨.compiled text (.ok shared), inStep⟩
  | none =>
    have text := mirrors.text
    rw [load_files_of_free found, load_memory, mirrors.stays _ inStep.reaches]
    cases read : (Disk.readText (TemplateSource.filePath root extension name) disk).1 with
    | error cause =>
      rw [read] at text
      rw [← text]
      exact ⟨.unopened text.symm read, inStep⟩
    | ok source =>
      rw [read] at text
      simp only [← text, Except.toOption, ← inStep.workshop]
      have reaches := inStep.reaches.compile source
      have kept := fun other shared entry => (inStep.loaded other shared entry).compile source
      have entered := fun compiled => @has_of_compile compiler name templates files.workshop source
        compiled text.symm
      rcases compiles : compiler.compile source files.workshop with ⟨error | compiled, last⟩
      · rw [compiles] at reaches kept
        exact ⟨.compiled text.symm (.error error), rfl, reaches, kept⟩
      · rw [compiles] at reaches kept entered
        refine ⟨.compiled text.symm (.ok compiled.shared), rfl, reaches, ?_⟩
        intro other shared entry
        rw [List.lookup_cons] at entry
        split at entry
        · next same =>
          cases entry
          rw [eq_of_beq same]
          exact entered compiled rfl
        · exact kept other shared entry

/-- Libraries that are `InStep` stay so when names are loaded that stand for the same texts. -/
theorem loadAll_inStep {names : List String}
    (mirrors : ∀ name ∈ names, compiler.Mirrors root extension templates disk name)
    (inStep : compiler.InStep templates disk files memory) :
    compiler.InStep templates disk (compiler.loadAll (.files root extension) names files)
      (compiler.loadAll (.memory templates) names memory) := by
  induction names generalizing files memory with
  | nil => exact inStep
  | cons name rest inductionHypothesis =>
    exact inductionHypothesis (fun other member => mirrors other (List.mem_cons_of_mem _ member))
      (load_inStep (mirrors name List.mem_cons_self) inStep).2

end Agreement

end Compiler

end Mustache
