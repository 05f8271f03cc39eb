import Mustache.Proofs.Render.Alike
import Mustache.Proofs.Render.Counting
import Mustache.Proofs.Render.InertOutput
import Mustache.Proofs.Render.InnerScopes

/-!
# How deep calls are

A run that counts calls comes to an end, whatever templates call each other, and it ends as the run
that is told how deep it is (`Setting.execute_counts`). Before and after every call the same number
of calls is active, so a call fails for being too deep only at the end of a chain of calls that is
longer than the greatest depth, and it fails then (`run_counts`).
-/

namespace Mustache

/-- A program calls a template. -/
def Program.Calls (program : Program) (name : String) : Prop :=
  .partialCall name ∈ program.instructions

namespace Loader

variable {σ : Type}

/-- A loader can answer a name with a program, now or after it was asked for other names
(`Reaches`). -/
def CanAnswer (loader : Loader σ) (loading : σ) (name : String) (called : Program) : Prop :=
  ∃ state, loader.Reaches loading state ∧ (loader.load name state).1 = .ok called

/-- A loader can answer with an error, now or after it was asked for other names (`Reaches`). -/
def Refuses (loader : Loader σ) (loading : σ) (error : RenderError) : Prop :=
  ∃ state name, loader.Reaches loading state ∧ (loader.load name state).1 = .error error

/-- Names of templates of which the first is called from somewhere, and each other one by the
template before it. -/
inductive Chain (loader : Loader σ) (loading : σ) : (String → Prop) → List String → Prop where
  /-- One call. -/
  | single {callable : String → Prop} {name : String} (call : callable name) :
      Chain loader loading callable [name]
  /-- A call of a template that calls the next one. -/
  | through {callable : String → Prop} {name : String} {called : Program} {names : List String}
      (call : callable name) (answer : loader.CanAnswer loading name called)
      (rest : Chain loader loading called.Calls names) :
      Chain loader loading callable (name :: names)

end Loader

open Rendering

/-- What a run is given besides its program. -/
structure Setting (σ : Type) where
  /-- The data. -/
  host : Host
  /-- The loader. -/
  loader : Loader σ
  /-- The state of the loader at the start. -/
  loading : σ
  /-- The scope. -/
  scope : Scope

namespace Setting

variable {σ α β : Type} (setting : Setting σ)

/-- The session is one that can come up in a run. -/
structure Ready (session : Session σ) : Prop where
  /-- The loader was asked for some names. -/
  reached : setting.loader.Reaches setting.loading session.loading
  /-- Members were found that the types of objects have. -/
  sound : session.accessors.Sound setting.host.schema

/-- Something is run in this scope when it is inside of some blocks. -/
def Inside (inner : Scope) : Prop :=
  ∃ blocks, setting.scope.Inside setting.host blocks inner

/-- An error with which a run may end though its calls are not too deep. -/
inductive Mishap : RenderError → Prop where
  /-- The loader answers with an error. -/
  | refused {error : RenderError} (refuses : setting.loader.Refuses setting.loading error) :
      Mishap error
  /-- The output does not fit. -/
  | full : Mishap .sinkFull
  /-- A block has no end. -/
  | endless (index : Nat) : Mishap (.uncompiled (.endless index))
  /-- A path does not come to name anything. -/
  | unnamed {inner : Scope} {path : String} {stall : Stall} (inside : setting.Inside inner)
      (stalls : (inner.resolve setting.host path).answer = .error stall) : Mishap (.stalled stall)
  /-- What a path names does not come to have a text. -/
  | untold {inner : Scope} {path : String} {value : Value} {stall : Stall}
      (inside : setting.Inside inner)
      (named : (inner.resolve setting.host path).answer = .ok (.value value))
      (stalls : setting.host.text value = .error stall) : Mishap (.stalled stall)

/-- A step without calls, after which the session can come up in a run, and which fails only by a
mishap. -/
def Proper (step : Rendering σ α) : Prop :=
  ∀ session, setting.Ready session → setting.Ready (step session).2 ∧
    ∀ error, (step session).1 = .error error → setting.Mishap error

variable {setting}

theorem proper_write (bytes : ByteArray) : setting.Proper (write bytes) := by
  intro session ready
  unfold write
  rcases session.sink.write bytes with ⟨_ | _, after⟩
  · refine ⟨⟨ready.reached, ready.sound⟩, fun error failed => ?_⟩
    cases failed
    exact .full
  · exact ⟨⟨ready.reached, ready.sound⟩, fun error failed => nomatch failed⟩

theorem proper_load (name : String) : setting.Proper (load setting.loader name) := by
  intro session ready
  have reached := ready.reached.load name
  unfold load
  rcases answer : setting.loader.load name session.loading with ⟨error | program, after⟩
  · rw [answer] at reached
    refine ⟨⟨reached, ready.sound⟩, fun other failed => ?_⟩
    cases failed
    exact .refused ⟨session.loading, name, ready.reached, by rw [answer]⟩
  · rw [answer] at reached
    exact ⟨⟨reached, ready.sound⟩, fun other failed => nomatch failed⟩

theorem proper_resolve {inner : Scope} (inside : setting.Inside inner) (path : String) :
    setting.Proper (resolve setting.host inner path) := by
  intro session ready
  rw [resolve_of_sound ready.sound]
  refine ⟨⟨ready.reached, ready.sound.lookUpAll _⟩, fun error failed => ?_⟩
  cases answered : (inner.resolve setting.host path).answer with
  | ok resolved =>
    rw [answered] at failed
    cases failed
  | error stall =>
    rw [answered] at failed
    cases failed
    exact .unnamed inside answered

/-- What a path names in a run (`resolve`) it names when no member was found before. -/
theorem answer_of_resolve {session : Session σ} (ready : setting.Ready session) {inner : Scope}
    {path : String} {resolved : Resolved}
    (answered : (resolve setting.host inner path session).1 = .ok resolved) :
    (inner.resolve setting.host path).answer = .ok resolved := by
  rw [resolve_of_sound ready.sound] at answered
  cases named : (inner.resolve setting.host path).answer with
  | error =>
    rw [named] at answered
    cases answered
  | ok =>
    rw [named] at answered
    cases answered
    rfl

theorem proper_emit {inner : Scope} (inside : setting.Inside inner) {path : String} {value : Value}
    (named : (inner.resolve setting.host path).answer = .ok (.value value)) (escaped : Bool) :
    setting.Proper (emit setting.host value escaped) := by
  rw [emit_eq_write]
  cases written : setting.host.text value with
  | ok text => exact proper_write _
  | error stall =>
    refine fun session ready => ⟨ready, fun error failed => ?_⟩
    cases failed
    exact .untold inside named written

/-- Steps that are `Proper` may follow each other, and what follows may rely on what the first step
answers. -/
theorem Proper.bind {step : Rendering σ α} {next : α → Rendering σ β} (first : setting.Proper step)
    (second : ∀ session value, setting.Ready session → (step session).1 = .ok value →
      setting.Proper (next value)) : setting.Proper (step >>= next) := by
  intro session ready
  obtain ⟨readyAfter, mishap⟩ := first session ready
  have following := second session
  rw [bind_apply]
  rcases ran : step session with ⟨error | value, after⟩
  · rw [ran] at readyAfter mishap
    refine ⟨readyAfter, fun other failed => ?_⟩
    cases failed
    exact mishap error rfl
  · rw [ran] at readyAfter following
    exact following value ready rfl after readyAfter

theorem proper_interpolate {inner : Scope} (inside : setting.Inside inner) (path : String)
    (escaped : Bool) : setting.Proper (interpolate setting.host path escaped inner) := by
  refine (proper_resolve inside path).bind fun session resolved ready answered => ?_
  cases resolved with
  | value value => exact proper_emit inside (answer_of_resolve ready answered) escaped
  | empty | absent => exact fun _ ready => ⟨ready, fun _ failed => nomatch failed⟩

/-- Calls that were tried in a step inside of `depth` calls, where some templates can be called, and
how the step ended. -/
structure Accounted (setting : Setting σ) (depth : Nat) (callable : String → Prop)
    (attempts : List Attempt) (result : Except RenderError α) : Prop where
  /-- A call was tried at the end of a chain of calls, all but the last of which were active. -/
  chained : ∀ attempt ∈ attempts, ∃ names,
    setting.loader.Chain setting.loading callable (names ++ [attempt.name]) ∧
      attempt.active = depth + names.length
  /-- No more calls were active than may be. -/
  bounded : ∀ attempt ∈ attempts, attempt.active ≤ max depth maxDepth
  /-- With a call that was tried when enough calls were active the step ended. -/
  deep : ∀ attempt ∈ attempts, maxDepth ≤ attempt.active →
    result = .error (.tooDeep attempt.name attempt.active)
  /-- It did not fail without such a call or a mishap. -/
  cause : ∀ error, result = .error error → setting.Mishap error ∨
    ∃ attempt ∈ attempts, maxDepth ≤ attempt.active ∧
      error = .tooDeep attempt.name attempt.active

namespace Accounted

variable {depth : Nat} {callable : String → Prop} {attempts further : List Attempt}

/-- Where no call is tried a step fails only by a mishap. -/
theorem nil {result : Except RenderError α}
    (mishap : ∀ error, result = .error error → setting.Mishap error) :
    setting.Accounted depth callable [] result where
  chained _ member := (List.not_mem_nil member).elim
  bounded _ member := (List.not_mem_nil member).elim
  deep _ member := (List.not_mem_nil member).elim
  cause error failed := .inl (mishap error failed)

/-- A step that failed is `Accounted` for as if another one followed it. -/
theorem of_error {error : RenderError}
    (accounted : setting.Accounted depth callable attempts (.error error : Except RenderError α)) :
    setting.Accounted depth callable attempts (.error error : Except RenderError β) where
  chained := accounted.chained
  bounded := accounted.bounded
  deep attempt member active := by
    cases accounted.deep attempt member active
    rfl
  cause other failed := by
    cases failed
    exact accounted.cause error rfl

/-- The calls of two steps, of which the first did not fail, are `Accounted` for together. -/
theorem append {value : α} {result : Except RenderError β}
    (first : setting.Accounted depth callable attempts (.ok value))
    (second : setting.Accounted depth callable further result) :
    setting.Accounted depth callable (attempts ++ further) result where
  chained attempt member := by
    rcases List.mem_append.1 member with member | member
    · exact first.chained attempt member
    · exact second.chained attempt member
  bounded attempt member := by
    rcases List.mem_append.1 member with member | member
    · exact first.bounded attempt member
    · exact second.bounded attempt member
  deep attempt member active := by
    rcases List.mem_append.1 member with member | member
    · cases first.deep attempt member active
    · exact second.deep attempt member active
  cause error failed := by
    obtain mishap | ⟨attempt, member, tooDeep⟩ := second.cause error failed
    · exact .inl mishap
    · exact .inr ⟨attempt, List.mem_append_right _ member, tooDeep⟩

/-- A single call that is tried, and which fails if enough calls are active, is `Accounted` for. -/
theorem single {name : String} {result : Except RenderError α} (call : callable name)
    (deep : maxDepth ≤ depth → result = .error (.tooDeep name depth))
    (cause : ∀ error, result = .error error → maxDepth ≤ depth ∧ error = .tooDeep name depth) :
    setting.Accounted depth callable [⟨name, depth⟩] result where
  chained attempt member := by
    obtain rfl := List.mem_singleton.1 member
    exact ⟨[], .single call, rfl⟩
  bounded attempt member := by
    obtain rfl := List.mem_singleton.1 member
    exact Nat.le_max_left depth maxDepth
  deep attempt member active := by
    obtain rfl := List.mem_singleton.1 member
    exact deep active
  cause error failed := .inr ⟨_, List.mem_singleton_self _, cause error failed⟩

/-- What is tried inside of a call is `Accounted` for as tried inside of one call less, after the
call itself. -/
theorem nested {name : String} {program : Program} {result : Except RenderError α}
    (inside : setting.Accounted (depth + 1) program.Calls attempts result) (call : callable name)
    (shallow : depth < maxDepth)
    (answer : setting.loader.CanAnswer setting.loading name program) :
    setting.Accounted depth callable attempts result where
  chained attempt member := by
    obtain ⟨names, chain, active⟩ := inside.chained attempt member
    refine ⟨name :: names, .through call answer chain, ?_⟩
    rw [active, List.length_cons, Nat.add_assoc, Nat.add_comm 1]
  bounded attempt member := by
    have bound := inside.bounded attempt member
    rw [Nat.max_eq_right (Nat.succ_le_of_lt shallow)] at bound
    exact bound.trans (Nat.le_max_right depth maxDepth)
  deep := inside.deep
  cause := inside.cause

end Accounted

/-- From every tally with `depth` active calls a step that counts calls comes to its end, as the
step that is told `depth` does, with as many active calls as before; and the calls that were tried
are accounted for. -/
def Counts (setting : Setting σ) (depth : Nat) (callable : String → Prop)
    (step : Nat → Counting σ α) (plain : Rendering σ α) : Prop :=
  ∀ tally : Tally σ, tally.active = depth → setting.Ready tally.session → ∃ attempts,
    Counting.Ends step tally ((plain tally.session).1,
      ⟨(plain tally.session).2, depth, tally.attempts ++ attempts⟩) ∧
    setting.Ready (plain tally.session).2 ∧
    setting.Accounted depth callable attempts (plain tally.session).1

namespace Counts

variable {depth : Nat} {callable : String → Prop}

/-- A `Proper` step tries no calls. -/
theorem ofRendering {step : Rendering σ α} (proper : setting.Proper step) :
    setting.Counts depth callable (fun _ => Counting.ofRendering step) step := by
  rintro tally rfl ready
  obtain ⟨readyAfter, mishap⟩ := proper tally.session ready
  refine ⟨[], .of_eq ?_, readyAfter, .nil mishap⟩
  rw [List.append_nil]
  rfl

theorem pure (value : α) :
    setting.Counts depth callable (fun _ => Pure.pure value) (Pure.pure value) := by
  have proper : setting.Proper (Pure.pure value : Rendering σ α) :=
    fun _ ready => ⟨ready, fun _ failed => nomatch failed⟩
  exact ofRendering proper

/-- A block without an end is a mishap. -/
theorem endless (index : Nat) :
    setting.Counts depth callable (fun _ => throw (.uncompiled (.endless index)))
      (throw (.uncompiled (.endless index)) : Rendering σ α) := by
  have proper : setting.Proper (throw (.uncompiled (.endless index)) : Rendering σ α) := by
    refine fun _ ready => ⟨ready, fun error failed => ?_⟩
    cases failed
    exact .endless index
  exact ofRendering proper

/-- It does not matter if one piece of fuel is used up at once. -/
theorem of_succ {step : Nat → Counting σ α} {plain : Rendering σ α}
    (counts : setting.Counts depth callable (fun fuel => step (fuel + 1)) plain) :
    setting.Counts depth callable step plain := by
  intro tally active ready
  obtain ⟨attempts, ends, rest⟩ := counts tally active ready
  exact ⟨attempts, ends.of_succ, rest⟩

/-- Steps that count calls may follow each other, and what follows may rely on what the first step
answers. -/
theorem bind {step : Nat → Counting σ α} {plain : Rendering σ α} {next : Nat → α → Counting σ β}
    {plainNext : α → Rendering σ β} (first : setting.Counts depth callable step plain)
    (second : ∀ session value, setting.Ready session → (plain session).1 = .ok value →
      setting.Counts depth callable (fun fuel => next fuel value) (plainNext value)) :
    setting.Counts depth callable (fun fuel => step fuel >>= next fuel) (plain >>= plainNext) := by
  intro tally active ready
  obtain ⟨attempts, ran, readyAfter, accounted⟩ := first tally active ready
  have following := second tally.session
  rw [Mustache.bind_apply]
  rcases plainRun : plain tally.session with ⟨error | value, after⟩
  · rw [plainRun] at ran readyAfter accounted
    exact ⟨attempts, ran.bind_error, readyAfter, accounted.of_error⟩
  · rw [plainRun] at ran readyAfter accounted following
    obtain ⟨further, ranNext, readyEnd, accountedNext⟩ := following value ready rfl
      ⟨after, depth, tally.attempts ++ attempts⟩ rfl readyAfter
    rw [List.append_assoc] at ranNext
    exact ⟨attempts ++ further, ran.bind_ok ranNext, readyEnd, accounted.append accountedNext⟩

/-- Steps that count calls may be repeated for each of some items. -/
theorem forM {γ : Type} {step : Nat → γ → Counting σ PUnit} {plain : γ → Rendering σ PUnit}
    {items : List γ}
    (each : ∀ item ∈ items,
      setting.Counts depth callable (fun fuel => step fuel item) (plain item)) :
    setting.Counts depth callable (fun fuel => items.forM (step fuel)) (items.forM plain) := by
  induction items with
  | nil => exact pure ()
  | cons item rest inductionHypothesis =>
    obtain ⟨first, others⟩ := List.forall_mem_cons.1 each
    exact first.bind fun _ _ _ _ => inductionHypothesis others

/-- That a call is tried is noted. -/
theorem attempt {name : String} (call : callable name) (shallow : depth < maxDepth) :
    setting.Counts depth callable (fun _ => Counting.attempt name) (Pure.pure depth) := by
  rintro tally rfl ready
  exact ⟨[⟨name, tally.active⟩], .of_eq rfl, ready,
    .single call (fun deep => absurd shallow (Nat.not_lt.2 deep)) fun _ failed => nomatch failed⟩

/-- What is run inside of one more call leaves as many calls active as before, however it ends. -/
theorem nested {name : String} {program : Program} {step : Nat → Counting σ α}
    {plain : Rendering σ α} (inside : setting.Counts (depth + 1) program.Calls step plain)
    (call : callable name) (shallow : depth < maxDepth)
    (answer : setting.loader.CanAnswer setting.loading name program) :
    setting.Counts depth callable (fun fuel => Counting.nested (step fuel)) plain := by
  rintro tally rfl ready
  obtain ⟨attempts, ran, readyAfter, accounted⟩ :=
    inside { tally with active := tally.active + 1 } rfl ready
  exact ⟨attempts, ran.nested, readyAfter, accounted.nested call shallow answer⟩

/-- A call `Counts` calls if what is run inside of it does. -/
theorem invoke {name : String} (inner : Scope) (call : callable name)
    (bodies : depth < maxDepth → ∀ program : Program,
      setting.Counts (depth + 1) program.Calls
        (fun fuel => Counting.execute setting.host setting.loader fuel program 0
          program.instructions.size inner)
        (Rendering.execute setting.host setting.loader (depth + 1) program 0
          program.instructions.size inner)) :
    setting.Counts depth callable
      (fun fuel => Counting.invoke setting.loader name fun called =>
        Counting.execute setting.host setting.loader fuel called 0 called.instructions.size inner)
      (Rendering.invoke setting.host setting.loader depth name inner) := by
  simp only [Counting.invoke]
  rw [Rendering.invoke]
  by_cases shallow : depth < maxDepth
  · rw [if_pos shallow, ← pure_bind depth fun _ => load setting.loader name >>= fun called =>
      Rendering.execute setting.host setting.loader (depth + 1) called 0 called.instructions.size
        inner]
    refine (attempt call shallow).bind fun _ active _ told => ?_
    obtain rfl : depth = active := Except.ok.inj told
    simp only [if_pos shallow]
    refine (ofRendering (proper_load name)).bind fun session program ready answered => ?_
    rw [result_load] at answered
    exact (bodies shallow program).nested call shallow
      ⟨session.loading, ready.reached, answered⟩
  · rw [if_neg shallow]
    rintro tally rfl ready
    refine ⟨[⟨name, tally.active⟩], ⟨0, fun fuel _ => ?_⟩, ready, .single call (fun _ => rfl)
      fun error failed => ?_⟩
    · refine (Counting.bind_apply _ _ tally).trans ?_
      simp only [Counting.attempt, if_neg shallow]
      rfl
    · cases failed
      exact ⟨Nat.not_lt.1 shallow, rfl⟩

end Counts

/-- A run that counts calls (`Counting.execute`) is a run, in which the calls that were tried are
accounted for. -/
theorem execute_counts (setting : Setting σ) (depth : Nat) (program : Program) (start stop : Nat)
    {inner : Scope} (inside : setting.Inside inner) :
    setting.Counts depth program.Calls
      (fun fuel => Counting.execute setting.host setting.loader fuel program start stop inner)
      (Rendering.execute setting.host setting.loader depth program start stop inner) := by
  refine .of_succ ?_
  by_cases within : start < stop
  swap
  · simp only [Counting.execute, if_neg within]
    rw [Rendering.execute, dif_neg fun inside => within inside.1]
    exact .pure ()
  simp only [Counting.execute, if_pos within]
  cases present : program.instructions[start]? with
  | none =>
    have outside : ¬ (start < stop ∧ start < program.instructions.size) :=
      fun inside => Nat.not_lt.2 (Array.getElem?_eq_none_iff.1 present) inside.2
    rw [Rendering.execute, dif_neg outside]
    exact .pure ()
  | some instruction =>
    obtain ⟨fits, -⟩ := Array.getElem?_eq_some_iff.1 present
    have following := execute_counts setting depth program (start + 1) stop inside
    cases instruction with
    | literal text =>
      rw [execute_literal within present]
      exact (Counts.ofRendering (proper_write _)).bind fun _ _ _ _ => following
    | interpolation path escaped =>
      rw [execute_interpolation within present]
      exact (Counts.ofRendering (proper_interpolate inside path escaped)).bind
        fun _ _ _ _ => following
    | openBlock kind path =>
      simp only
      split
      · next missing =>
        rw [execute_endless within present missing]
        exact .endless start
      · next close found =>
        have later := Program.lt_of_endOf? found
        have afterwards := execute_counts setting depth program (close + 1) stop inside
        rw [execute_openBlock within present found, overFrames, bind_assoc]
        refine (Counts.ofRendering (proper_resolve inside path)).bind
          fun session resolved ready answered => ?_
        have named := answer_of_resolve ready answered
        obtain ⟨blocks, outer⟩ := inside
        cases kind with
        | iterable =>
          refine (Counts.forM fun content member => ?_).bind fun _ _ _ _ => afterwards
          exact execute_counts setting depth program (start + 1) close
            ⟨_, .iterable outer named member⟩
        | inverted =>
          by_cases nothing : resolved.frameHosts = []
          · simp only [nothing, List.isEmpty_nil, if_true]
            exact (execute_counts setting depth program (start + 1) close
              ⟨_, .inverted outer named nothing⟩).bind fun _ _ _ _ => afterwards
          · simp only [List.isEmpty_iff, nothing, if_false]
            exact (Counts.pure ()).bind fun _ _ _ _ => afterwards
    | closeBlock =>
      rw [execute_closeBlock within present]
      exact following
    | partialCall name =>
      rw [execute_partialCall within present]
      have call : program.Calls name := Array.mem_of_getElem? present
      exact (Counts.invoke inner call fun shallow called =>
        execute_counts setting (depth + 1) called 0 called.instructions.size inside).bind
        fun _ _ _ _ => following
  termination_by (maxDepth - depth, program.instructions.size - start)

/-- In complete data (`Completes`) nothing stalls but the loader. -/
theorem Mishap.refuses_of_completes {stall : Stall} (mishap : setting.Mishap (.stalled stall))
    (complete : setting.scope.Everywhere setting.host (setting.scope.Completes setting.host)) :
    setting.loader.Refuses setting.loading (.stalled stall) := by
  cases mishap with
  | refused refuses => exact refuses
  | unnamed inside stalls =>
    obtain ⟨blocks, inside⟩ := inside
    obtain ⟨resolved, named⟩ := inside.exists_resolve complete _
    cases named.symm.trans stalls
  | untold inside named stalls =>
    obtain ⟨blocks, inside⟩ := inside
    have everywhere := inside.everywhere Scope.completes_of_isPlain complete
    have value := (everywhere.resolved Scope.completes_of_isPlain named _ rfl).here
    obtain ⟨text, written⟩ := value.exists_text
    cases written.symm.trans stalls

end Setting

/-- Every run that counts calls (`Counting.run`) comes to its end, and it is the run that is told
how deep it is. At no time more than 64 calls are active, and the run fails for calls that are too
deep, naming the template and 64, exactly when a call is tried while 64 are active, unless the
loader itself answers so. This does not happen where no chain of calls is longer than 64. In
complete data nothing stalls but perhaps the loader. And after every call, successful or failed, as
many calls are active as before. -/
theorem run_counts {σ : Type} (host : Host) (loader : Loader σ) (program : Program) (scope : Scope)
    (session : Session σ) (sound : session.accessors.Sound host.schema) :
    (∃ attempts : List Attempt,
      Counting.Ends (fun fuel => Counting.run host loader fuel program scope) ⟨session, 0, []⟩
        ((Rendering.run host loader program scope session).1,
          ⟨(Rendering.run host loader program scope session).2, 0, attempts⟩) ∧
      (∀ attempt ∈ attempts, attempt.active ≤ 64) ∧
      (∀ name, ⟨name, 64⟩ ∈ attempts →
        (Rendering.run host loader program scope session).1 = .error (.tooDeep name 64)) ∧
      ∀ name depth, (Rendering.run host loader program scope session).1 =
          .error (.tooDeep name depth) →
        (depth = 64 ∧ ⟨name, 64⟩ ∈ attempts) ∨
          loader.Refuses session.loading (.tooDeep name depth)) ∧
    ((∀ names, loader.Chain session.loading program.Calls names → names.length ≤ 64) →
      ∀ name depth, (Rendering.run host loader program scope session).1 =
          .error (.tooDeep name depth) →
        loader.Refuses session.loading (.tooDeep name depth)) ∧
    (scope.Everywhere host (scope.Completes host) →
      ∀ stall, (Rendering.run host loader program scope session).1 = .error (.stalled stall) →
        loader.Refuses session.loading (.stalled stall)) ∧
    ∀ (name : String) (inner : Scope) (tally : Tally σ),
      tally.session.accessors.Sound host.schema →
      ∃ result after,
        Counting.Ends (fun fuel => Counting.invoke loader name fun called =>
          Counting.execute host loader fuel called 0 called.instructions.size inner) tally
          (result, after) ∧
        after.active = tally.active := by
  let setting : Setting σ := ⟨host, loader, session.loading, scope⟩
  obtain ⟨attempts, ran, -, accounted⟩ := setting.execute_counts 0 program 0
    program.instructions.size ⟨[], .here⟩ ⟨session, 0, []⟩ rfl ⟨.refl, sound⟩
  have tooDeep : ∀ name depth,
      (Rendering.run host loader program scope session).1 = .error (.tooDeep name depth) →
      (depth = 64 ∧ ⟨name, 64⟩ ∈ attempts) ∨
        loader.Refuses session.loading (.tooDeep name depth) := by
    intro name depth failed
    obtain mishap | ⟨⟨called, active⟩, member, deep, same⟩ := accounted.cause _ failed
    · cases mishap with
      | refused refuses => exact .inr refuses
    · rw [RenderError.tooDeep.injEq] at same
      obtain ⟨rfl, rfl⟩ := same
      obtain rfl : depth = 64 := Nat.le_antisymm (accounted.bounded _ member) deep
      exact .inl ⟨rfl, member⟩
  have fails : ∀ name, ⟨name, 64⟩ ∈ attempts →
      (Rendering.run host loader program scope session).1 = .error (.tooDeep name 64) :=
    fun name member => accounted.deep _ member (Nat.le_refl 64)
  refine ⟨⟨attempts, ran, accounted.bounded, fails, tooDeep⟩, ?_, ?_, ?_⟩
  · intro short name depth failed
    obtain ⟨rfl, member⟩ | refuses := tooDeep name depth failed
    · obtain ⟨names, chain, active⟩ := accounted.chained _ member
      have bound := short _ chain
      rw [List.length_append, List.length_singleton] at bound
      rw [Nat.zero_add] at active
      simp only at active
      omega
    · exact refuses
  · intro complete stall failed
    obtain mishap | ⟨attempt, member, active, same⟩ := accounted.cause _ failed
    · exact mishap.refuses_of_completes complete
    · cases same
  · intro name inner tally tallySound
    let setting : Setting σ := ⟨host, loader, tally.session.loading, inner⟩
    have counts : setting.Counts tally.active (· = name)
        (fun fuel => Counting.invoke loader name fun called =>
          Counting.execute host loader fuel called 0 called.instructions.size inner)
        (Rendering.invoke host loader tally.active name inner) :=
      .invoke inner rfl fun _ called => setting.execute_counts (tally.active + 1) called 0
        called.instructions.size ⟨[], .here⟩
    obtain ⟨attempts, invoked, -, -⟩ := counts tally rfl ⟨.refl, tallySound⟩
    exact ⟨_, _, invoked, rfl⟩

/-- A template that is called for each item of a list, of which one is behind a slot. -/
theorem run_counts_each :
    let called : Program := ⟨#[.interpolation "." true], #[none], _, rfl, rfl⟩
    let program : Program :=
      ⟨#[.openBlock .iterable "xs", .partialCall "item", .closeBlock], #[some 2, none, none], _,
        rfl, rfl⟩
    let loader : Loader Unit :=
      ⟨fun name => if name = "item" then pure called else throw (.templateNotFound name name)⟩
    let host : Host := ⟨[], #[], #[.ready (.str "&")]⟩
    let scope := Scope.root (.ofHost (.map [("xs", .list [.deferred 0, .str "2"])]))
    let session : Session Unit := ⟨{}, {}, ()⟩
    session.accessors.Sound host.schema ∧
      (∀ names, loader.Chain () program.Calls names → names.length ≤ 64) ∧
      scope.Everywhere host (scope.Completes host) ∧
      (∃ attempts : List Attempt,
        Counting.Ends (fun fuel => Counting.run host loader fuel program scope) ⟨session, 0, []⟩
          ((Rendering.run host loader program scope session).1,
            ⟨(Rendering.run host loader program scope session).2, 0, attempts⟩)) ∧
      (∀ name depth, (Rendering.run host loader program scope session).1 ≠
        .error (.tooDeep name depth)) ∧
      ∀ stall, (Rendering.run host loader program scope session).1 ≠ .error (.stalled stall) := by
  intro called program loader host scope session
  have sound : session.accessors.Sound host.schema := AccessorCache.sound_empty _
  have answers : ∀ name other, loader.CanAnswer () name other → other = called := by
    rintro name other ⟨state, -, answer⟩
    simp only [loader] at answer
    split at answer <;> cases answer
    rfl
  have refuses : ∀ error, loader.Refuses () error →
      ∃ name, error = .templateNotFound name name := by
    rintro error ⟨state, name, -, answer⟩
    simp only [loader] at answer
    split at answer <;> cases answer
    exact ⟨name, rfl⟩
  have short : ∀ names, loader.Chain () program.Calls names → names.length ≤ 64 := by
    rintro _ (call | ⟨call, answer, rest⟩)
    · exact Nat.succ_le_succ (Nat.zero_le 63)
    · obtain rfl := answers _ _ answer
      have none : ∀ name, ¬ called.Calls name := by
        intro name call
        simp [Program.Calls, called] at call
      cases rest with
      | single call => exact absurd call (none _)
      | through call => exact absurd call (none _)
  have complete : scope.Everywhere host (scope.Completes host) := by
    have text : ∀ text, host.Everywhere (scope.Completes host) (.str text) :=
      fun text => Host.everywhere_of_isSimple Scope.completes_of_isPlain trivial
    have slot : host.Everywhere (scope.Completes host) (.deferred 0) := by
      refine Host.everywhere_of_holds ⟨⟨1, .waited rfl (.arrived fun _ => nofun)⟩, nofun⟩ ?_
      intro part holds
      cases holds with
      | content filled =>
        cases filled
        exact text "&"
    have list : host.Everywhere (scope.Completes host) (.list [.deferred 0, .str "2"]) := by
      refine Host.everywhere_list Scope.completes_of_isPlain fun item member => ?_
      rcases List.mem_cons.1 member with rfl | member
      · exact slot
      · obtain rfl := List.mem_singleton.1 member
        exact text "2"
    refine fun frame member => ⟨fun value held => ?_, fun entry bound => ?_⟩
    · obtain rfl := List.mem_singleton.1 member
      cases held
      refine Host.everywhere_of_holds (Scope.completes_of_isPlain _ trivial) fun part holds => ?_
      cases holds with
      | entry member =>
        obtain ⟨rfl, rfl⟩ := Prod.mk.inj (List.mem_singleton.1 member)
        exact list
    · obtain rfl := List.mem_singleton.1 member
      cases bound
  obtain ⟨⟨attempts, ran, -⟩, acyclic, completes, -⟩ :=
    run_counts host loader program scope session sound
  refine ⟨sound, short, complete, ⟨attempts, ran⟩, fun name depth failed => ?_,
    fun stall failed => ?_⟩
  · obtain ⟨_, same⟩ := refuses _ (acyclic short name depth failed)
    cases same
  · obtain ⟨_, same⟩ := refuses _ (completes complete stall failed)
    cases same

end Mustache
