import Mustache.Proofs.CommandLine.StoredPrograms
import Mustache.Proofs.Storage.StoredAgain

/-!
# Programs are stored once

Storing what is stored writes nothing, for a cache as for the templates of a command. The command
compiles its templates into an empty cache; what a template comes to depends on the cache and on
the template's text alone (`compileAll_repeats`), so that the command has the same programs to store
when it is run again, and finds them (`stored_again`).
-/

namespace Mustache

/-- What `Disk.readText` reads is the text of the bytes that `Disk.entry` finds. -/
theorem Disk.entry_of_readText {disk : Disk} {path text : String}
    (read : (readText path disk).1 = .ok text) :
    disk.entry path = .ok (.file text.toByteArray) := by
  rcases run : readText path disk with ⟨result, after⟩
  rw [run] at read
  cases read
  obtain ⟨content, found, isText⟩ := readText_eq_ok run
  rw [found]
  unfold String.fromUTF8? at isText
  split at isText <;> cases isText
  rfl

namespace CommandLine

variable {console after : Console} {compiler : Compiler} {template : String}
  {cache made : ProgramCache} {compiled : Compiled}

/-- Compiling a template file with `compileFile`, if it succeeds, leaves the files as they are,
prints nothing, and comes to the same wherever the file is the same and no fault is to come. -/
theorem compileFile_repeats (silent : compiler.dumpDirectory = none) (kept : cache.Kept)
    (done : compileFile compiler cache template console = (.ok (compiled, made), after)) :
    made.Kept ∧ after.output = console.output ∧ console.disk.SameFiles after.disk ∧
      ∀ other : Console, other.disk.fault = none →
        other.disk.entry template = console.disk.entry template →
        compileFile compiler cache template other = (.ok (compiled, made), other) := by
  have same := Disk.sameFiles_readText template console.disk
  rw [compileFile_apply] at done
  rcases read : Disk.readText template console.disk with ⟨error | source, counted⟩
  · rw [read] at done
    cases done
  · rw [read] at done same
    simp only at done
    obtain ⟨content, found, isText⟩ := Disk.readText_eq_ok read
    obtain ⟨result, last, compiles⟩ := Compiler.exists_compile_eq silent source cache
    have step := (CacheCall.compile compiler source).perform_step ⟨cache, counted⟩
    rw [compiles] at done
    cases result with
    | error => cases done
    | ok =>
      cases done
      refine ⟨?_, rfl, same, fun other calm unchanged => ?_⟩
      · simp only [CacheCall.perform, compiles] at step
        exact step.kept kept
      · rw [compileFile_apply, Disk.readText_of_calm calm (unchanged.trans found) isText]
        simp only
        rw [compiles]

/-- Compiles template files with `compileFile` one after another. -/
def compileAll (templates : List String) (cache : ProgramCache) : CommandAction ProgramCache :=
  templates.foldlM (fun cache template => do return (← compileFile {} cache template).2) cache

/-- Compiling template files with `compileAll`, if it succeeds, leaves the files as they are, prints
nothing, and comes to the same wherever the files are the same and no fault is to come. -/
theorem compileAll_repeats {templates : List String} (kept : cache.Kept)
    (done : compileAll templates cache console = (.ok made, after)) :
    made.Kept ∧ after.output = console.output ∧ console.disk.SameFiles after.disk ∧
      ∀ other : Console, other.disk.fault = none →
        (∀ template ∈ templates,
          other.disk.entry template = console.disk.entry template) →
        compileAll templates cache other = (.ok made, other) := by
  induction templates generalizing cache console with
  | nil =>
    cases done
    exact ⟨kept, rfl, .refl _, fun _ _ _ => rfl⟩
  | cons template rest inductionHypothesis =>
    rw [compileAll, List.foldlM_cons, bind_apply, bind_apply] at done
    rcases first : compileFile {} cache template console with ⟨error | ⟨compiled, next⟩, between⟩
    · rw [first] at done
      cases done
    · rw [first] at done
      obtain ⟨keptNext, output, same, repeats⟩ := compileFile_repeats rfl kept first
      obtain ⟨keptLast, outputLast, sameLast, repeatsLast⟩ := inductionHypothesis keptNext done
      refine ⟨keptLast, outputLast.trans output, same.trans sameLast, ?_⟩
      intro other calm unchanged
      rw [compileAll, List.foldlM_cons, bind_apply, bind_apply,
        repeats other calm (unchanged template List.mem_cons_self)]
      refine repeatsLast other calm fun later member => ?_
      rw [same.entry_eq]
      exact unchanged later (List.mem_cons_of_mem _ member)

/-- Stores the programs of template files as `warm` does, in an order of its own. -/
def warmIn (arrange : ProgramCache → ProgramCache) (now : Timestamp) (options : WarmOptions) :
    CommandAction Unit := do
  let cache ← compileAll options.templates .empty
  let results ← persist now options.artifacts (arrange cache)
  .printText (String.join (results.map storedLine) ++ storedSummary results)

/-- The command `warm` stores the programs in the order of the cache. -/
theorem warm_eq_warmIn : warm = warmIn id := rfl

/-- What `storedLine` and `storedSummary` print where all programs were found. -/
theorem report_unchanged (paths : List String) :
    String.join ((paths.map Stored.unchanged).map storedLine) ++
        storedSummary (paths.map Stored.unchanged) =
      String.join (paths.map fun path => "unchanged " ++ path ++ "\n") ++
        s!"{paths.length} program(s), 0 written, {paths.length} unchanged\n" := by
  have none : (paths.map Stored.unchanged).countP Stored.isWritten = 0 := by
    rw [List.countP_map, List.countP_eq_zero]
    exact fun _ _ => Bool.false_ne_true
  have middle : toString " program(s), 0 written, " =
      toString " program(s), " ++ toString 0 ++ toString " written, " := by decide
  simp only [storedSummary, none, List.map_map, List.length_map, middle, ← String.append_assoc]
  rfl

/-- Let a cache have come about by any `StoreCall`s. If its programs are stored, in whatever order,
storing them once more, in whatever order, finds every one and changes no file. And if the command
`warm` stores the programs of some templates, running it again where the templates are the same
finds as many programs as there were, writes none, and changes no file. -/
theorem stored_again :
    (∀ (calls : List StoreCall) (start : Disk) (first second : ProgramCache),
      let cache := (StoreCall.performAll calls (.ofDisk start)).cache
      first.entries.Perm cache.entries → second.entries.Perm cache.entries →
      ∀ root now later disk results after,
        Storage.persistAll root now first disk = (.ok results, after) → after.fault = none →
        Storage.persistAll root later second after =
          (.ok ((Storage.paths root second).map .unchanged), after)) ∧
    warm = warmIn id ∧
    ∀ arrange rearrange : ProgramCache → ProgramCache,
      (∀ cache, (arrange cache).entries.Perm cache.entries) →
      (∀ cache, (rearrange cache).entries.Perm cache.entries) →
      ∀ now later options console after,
        warmIn arrange now options console = (.ok (), after) → after.disk.fault = none →
        (∀ template ∈ options.templates,
          after.disk.entry template = console.disk.entry template) →
        ∃ (results : List Stored) (paths : List String),
          after.output = console.output ++
            (String.join (results.map storedLine) ++ storedSummary results).toByteArray ∧
          paths.Perm (results.map Stored.path) ∧
          ∀ again : Console, again.disk = after.disk →
            warmIn rearrange later options again = (.ok (), { again with
              output := again.output ++
                (String.join (paths.map fun path => "unchanged " ++ path ++ "\n") ++
                  s!"{paths.length} program(s), 0 written, {paths.length} unchanged\n").toByteArray
              }) := by
  refine ⟨?_, warm_eq_warmIn, ?_⟩
  · intro calls start first second cache firstOrder secondOrder root now later disk results after
      persisted calm
    have kept : cache.Kept := StoreCall.performAll_kept calls ProgramCache.Kept.empty
    exact (Storage.persistAll_again kept firstOrder secondOrder persisted calm later).2
  · intro arrange rearrange ordered reordered now later options console after done calm unchanged
    rw [warmIn, bind_apply] at done
    rcases compiles : compileAll options.templates .empty console with ⟨error | cache, between⟩
    · rw [compiles] at done
      cases done
    · rw [compiles] at done
      obtain ⟨kept, output, same, repeats⟩ := compileAll_repeats ProgramCache.Kept.empty compiles
      simp only at done
      rw [bind_apply, persist_apply] at done
      rcases persisted : Storage.persistAll options.artifacts now (arrange cache) between.disk with
        ⟨error | results, last⟩
      · rw [persisted] at done
        cases done
      · rw [persisted] at done
        cases done
        obtain ⟨named, found⟩ := Storage.persistAll_again kept (ordered cache) (reordered cache)
          persisted calm later
        refine ⟨results, Storage.paths options.artifacts (rearrange cache), ?_, ?_, ?_⟩
        · rw [← output]
        · rw [named]
          exact ((((reordered cache).trans (ordered cache).symm).map _).map _).map _
        · intro again sameDisk
          have compilesAgain := repeats again (sameDisk ▸ calm) (sameDisk ▸ unchanged)
          rw [← report_unchanged, warmIn, bind_apply, compilesAgain]
          simp only
          rw [bind_apply, persist_apply, sameDisk, found]
          rfl

/-- Two templates that come to the same program. -/
def twoTemplates : Console where
  disk := {
    root := .directory [("a", .file "x".toByteArray), ("b", .file "x\x7b\x7b! \x7d\x7d".toByteArray)]
    workingDirectory := [] }

/-- The options with which they are stored, one of them twice. -/
def twoTemplatesOptions : WarmOptions := ⟨"/", ["/a", "/b", "/a"]⟩

/-- Two programs are stored in one order and found in the other, and templates that come to one
program are stored again. -/
theorem stored_again_two :
    (let cache := (StoreCall.performAll [.use (.insert Storage.letter), .use (.insert Storage.tag)]
        (.ofDisk default)).cache
      let reversed := { cache with entries := cache.entries.reverse }
      reversed.entries.Perm cache.entries ∧
      ∃ results after,
        Storage.persistAll "/" .epoch cache ⟨.directory [], [], none⟩ = (.ok results, after) ∧
        after.fault = none ∧
        Storage.persistAll "/" .epoch reversed after =
          (.ok ((Storage.paths "/" reversed).map .unchanged), after)) ∧
    let (result, after) := warmIn id .epoch twoTemplatesOptions twoTemplates
    result = .ok () ∧ after.disk.fault = none ∧
      (∀ template ∈ twoTemplatesOptions.templates,
        after.disk.entry template = twoTemplates.disk.entry template) ∧
      ∃ paths : List String, warmIn id .epoch twoTemplatesOptions { after with output := .empty } =
        (.ok (), { after with
          output := ByteArray.empty ++
            (String.join (paths.map fun path => "unchanged " ++ path ++ "\n") ++
              s!"{paths.length} program(s), 0 written, {paths.length} unchanged\n").toByteArray }) := by
  refine ⟨?_, ?_⟩
  · have kept := @StoreCall.performAll_kept
      [.use (.insert Storage.letter), .use (.insert Storage.tag)] (.ofDisk default)
      ProgramCache.Kept.empty
    have again := stored_again.1 [.use (.insert Storage.letter), .use (.insert Storage.tag)] default
    revert kept again
    generalize (StoreCall.performAll _ (.ofDisk default)).cache = cache
    intro kept again _ reversed
    have reordered : reversed.entries.Perm cache.entries := List.reverse_perm cache.entries
    have fresh : Storage.Fresh "/" ⟨.directory [], [], none⟩ := .of_forward (by decide +kernel)
      Storage.fits_slash rfl (by decide +kernel) (by decide +kernel)
    obtain ⟨after, stored, shelves⟩ :=
      Storage.mapM_persist_of_fresh .epoch fresh (Storage.nodup_hashes_of_kept kept)
    rw [← Storage.persistAll_eq_mapM] at stored
    exact ⟨reordered, _, after, stored, shelves.calm,
      again cache reversed (.refl _) reordered "/" .epoch .epoch _ _ after stored shelves.calm⟩
  · have evaluated :
        let after := warmIn id .epoch twoTemplatesOptions twoTemplates
        after.1.isOk ∧ after.2.disk.fault = none ∧
          (Disk.readText "/a" after.2.disk).1 = .ok "x" ∧
          (Disk.readText "/b" after.2.disk).1 = .ok "x\x7b\x7b! \x7d\x7d" := by
      decide +kernel
    revert evaluated
    rcases run : warmIn id .epoch twoTemplatesOptions twoTemplates with ⟨_ | _, after⟩
    · rintro ⟨failed, _⟩
      cases failed
    · rintro ⟨_, calm, first, second⟩
      have before : (Disk.readText "/a" twoTemplates.disk).1 = .ok "x" ∧
          (Disk.readText "/b" twoTemplates.disk).1 = .ok "x\x7b\x7b! \x7d\x7d" := by
        decide +kernel
      have unchanged : ∀ template ∈ twoTemplatesOptions.templates,
          after.disk.entry template = twoTemplates.disk.entry template := by
        have a := (Disk.entry_of_readText first).trans (Disk.entry_of_readText before.1).symm
        have b := (Disk.entry_of_readText second).trans (Disk.entry_of_readText before.2).symm
        simp [twoTemplatesOptions, a, b]
      obtain ⟨_, paths, _, _, again⟩ := stored_again.2.2 id id (fun _ => .refl _) (fun _ => .refl _)
        .epoch .epoch _ _ _ run calm unchanged
      exact ⟨rfl, calm, unchanged, paths, again { after with output := .empty } rfl⟩

end CommandLine

end Mustache
