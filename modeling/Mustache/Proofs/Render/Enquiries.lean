import Mustache.Proofs.Render.Lockstep
import Mustache.Proofs.Scope.Lookups

/-!
# Enquiries of a run

All that a run learns of its data it learns by resolving paths. `Rendering.enquiries` lists the
paths that a run resolves, each with the scope from which it is resolved, what for, and what came
of it. The list is kept by going through the program with steps that write it down and otherwise
do what rendering does: `Traced.records_run`. What a run does to the members that were found is
what its enquiries do.
-/

namespace Mustache

/-- A path that a run resolves. -/
structure Enquiry where
  /-- The scope from which the path is resolved. -/
  scope : Scope
  /-- The path. -/
  path : String
  /-- Whether what the path names is to be written; otherwise a block is run over it. -/
  isOutput : Bool
  /-- What the path names. -/
  answer : Except Stall Resolved

/-- The members that are looked up for an enquiry. -/
def Enquiry.lookups (host : Host) (enquiry : Enquiry) : List (Nat × String) :=
  enquiry.scope.lookups host enquiry.path

/-- What `resolve` in a run does to the members that were found is what `Scope.resolve` does. -/
theorem Rendering.resolve_accessors {σ : Type} (host : Host) (scope : Scope) (path : String)
    (session : Session σ) :
    (resolve host scope path session).2.accessors =
      (scope.resolve host path session.accessors).2 := by
  unfold resolve
  rcases scope.resolve host path session.accessors with ⟨_ | _, _⟩ <;> rfl

/-- A step of running a program during which the enquiries are listed. -/
abbrev Traced (σ : Type) := ExceptT RenderError (StateM (Session σ × List Enquiry))

namespace Traced

variable {σ α β : Type}

/-- A step of rendering that makes no enquiry. -/
def ofRendering (step : Rendering σ α) : Traced σ α := fun (session, trace) =>
  ((step session).1, ((step session).2, trace))

/-- Resolves a path as `Rendering.resolve` does and lists the enquiry. -/
def enquire (host : Host) (scope : Scope) (path : String) (isOutput : Bool) : Traced σ Resolved :=
  fun (session, trace) =>
    let enquiry := ⟨scope, path, isOutput, (scope.resolve host path session.accessors).1⟩
    ofRendering (Rendering.resolve host scope path) (session, trace ++ [enquiry])

/-- What is done at the single instructions when the enquiries are listed (`Actions`). -/
def actions (host : Host) (loader : Loader σ) : Actions (Traced σ) where
  literal text := ofRendering (Rendering.write text.toByteArray)
  interpolation path escaped scope := do
    match ← enquire host scope path true with
    | .value value => ofRendering (Rendering.emit host value escaped)
    | .empty | .absent => pure ()
  block kind path scope body := do
    let hosts := (← enquire host scope path false).frameHosts
    match kind with
    | .iterable => hosts.forM fun inner => body (scope.child inner)
    | .inverted => if hosts.isEmpty then body scope else pure ()
  call name run := do
    let called ← ofRendering (Rendering.load loader name)
    run called
  fail error := throw error

/-- Runs a whole program as `Rendering.run` does and lists its enquiries. -/
def run (host : Host) (loader : Loader σ) (program : Program) (scope : Scope) : Traced σ Unit :=
  (actions host loader).perform 0 program 0 program.instructions.size scope

/-- A step that does what a step of rendering does, lists what it asks, and leaves of the members
that were found what looking up those for its enquiries leaves. -/
def Records (host : Host) (traced : Traced σ α) (plain : Rendering σ α) : Prop :=
  ∀ session trace, ∃ asked,
    traced (session, trace) = ((plain session).1, ((plain session).2, trace ++ asked)) ∧
      (session.accessors.Sound host.schema → (plain session).2.accessors =
        session.accessors.lookUpAll host.schema (asked.flatMap (Enquiry.lookups host)))

namespace Records

variable {host : Host}

/-- A step that leaves the members alone `Records` no enquiry. -/
theorem ofRendering {step : Rendering σ α}
    (keeps : ∀ session, (step session).2.accessors = session.accessors) :
    Records host (Traced.ofRendering step) step := by
  intro session trace
  refine ⟨[], ?_, fun _ => keeps session⟩
  rw [List.append_nil]
  rfl

theorem pure (value : α) :
    Records host (Pure.pure value : Traced σ α) (Pure.pure value) :=
  fun _ _ => ⟨[], by rw [List.append_nil]; rfl, fun _ => rfl⟩

theorem throw (error : RenderError) :
    Records host (MonadExcept.throw error : Traced σ α) (MonadExcept.throw error) :=
  fun _ _ => ⟨[], by rw [List.append_nil]; rfl, fun _ => rfl⟩

/-- To `enquire` for a path is one enquiry. -/
theorem enquire (scope : Scope) (path : String) (isOutput : Bool) :
    Records host (Traced.enquire host scope path isOutput : Traced σ Resolved)
      (Rendering.resolve host scope path) := by
  intro session trace
  refine ⟨[⟨scope, path, isOutput, (scope.resolve host path session.accessors).1⟩], rfl, ?_⟩
  intro sound
  rw [List.flatMap_singleton, Enquiry.lookups, Rendering.resolve_accessors,
    scope.resolve_looksUp host path session.accessors sound]

/-- Steps of which one `Records` what the other asks may follow each other. -/
theorem bind {traced : Traced σ α} {plain : Rendering σ α} {next : α → Traced σ β}
    {nextPlain : α → Rendering σ β} (first : Records host traced plain)
    (second : ∀ value, Records host (next value) (nextPlain value)) :
    Records host (traced >>= next) (plain >>= nextPlain) := by
  intro session trace
  obtain ⟨asked, ran, lookedUp⟩ := first session trace
  rw [bind_apply, bind_apply, ran]
  rcases plainRan : plain session with ⟨error | value, after⟩
  · rw [plainRan] at lookedUp
    exact ⟨asked, rfl, lookedUp⟩
  · rw [plainRan] at lookedUp
    obtain ⟨more, ranOn, lookedUpOn⟩ := second value after (trace ++ asked)
    refine ⟨asked ++ more, ?_, fun sound => ?_⟩
    · rw [← List.append_assoc]
      exact ranOn
    · have reached : after.accessors = _ := lookedUp sound
      have kept := sound.lookUpAll (asked.flatMap (Enquiry.lookups host))
      rw [List.flatMap_append, AccessorCache.lookUpAll_append, ← reached]
      exact lookedUpOn (reached ▸ kept)

/-- Steps of which one `Records` what the other asks compose. -/
theorem composes :
    Composes (Records host : Traced σ Unit → Rendering σ Unit → Prop) :=
  ⟨pure (), fun first second => first.bind fun _ => second⟩

/-- What is done at an instruction `Records` its enquiries if what happens inside of it does. -/
theorem related (loader : Loader σ) :
    Actions.Related Eq (Records host) (actions host loader) (Rendering.actions host loader) where
  done := composes.done
  andThen := composes.andThen
  literal text := ofRendering (Rendering.write_keeps _)
  interpolation path escaped scope _ same := by
    cases same
    refine (enquire scope path true).bind fun resolved => ?_
    cases resolved with
    | value value => exact ofRendering (Rendering.emit_keeps host value escaped)
    | empty | absent => exact pure ()
  block kind path scope _ same _ _ bodies := by
    cases same
    refine (enquire scope path false).bind fun resolved => ?_
    refine composes.overHosts kind (@List.forall₂_refl _ Eq _ _) ?_ (bodies rfl)
    rintro inner _ rfl
    exact bodies rfl
  call name _ _ runs := (ofRendering (Rendering.load_keeps loader name)).bind runs
  fail error := throw error

end Records

/-- Running a program while its enquiries are listed (`Traced.run`) is running it. -/
theorem records_run (host : Host) (loader : Loader σ) (program : Program) (scope : Scope) :
    Records host (run host loader program scope) (Rendering.run host loader program scope) := by
  rw [Rendering.run, Rendering.execute_eq_perform]
  exact (Records.related loader).perform 0 program 0 program.instructions.size rfl

end Traced

namespace Rendering

variable {σ : Type} (host : Host) (loader : Loader σ) (program : Program) (scope : Scope)
  (session : Session σ)

/-- The paths that a run resolves, in their order. -/
def enquiries : List Enquiry :=
  (Traced.run host loader program scope (session, [])).2.2

/-- Running a program while its `enquiries` are listed, from the start. -/
theorem traced_run_eq :
    Traced.run host loader program scope (session, []) =
      ((run host loader program scope session).1,
        ((run host loader program scope session).2,
          enquiries host loader program scope session)) := by
  obtain ⟨asked, ran, _⟩ := Traced.records_run host loader program scope session []
  rw [enquiries, ran]

/-- The members that were found after a run are those after looking up what its `enquiries` do. -/
theorem accessors_run (sound : session.accessors.Sound host.schema) :
    (run host loader program scope session).2.accessors =
      session.accessors.lookUpAll host.schema
        ((enquiries host loader program scope session).flatMap (Enquiry.lookups host)) := by
  obtain ⟨asked, ran, lookedUp⟩ := Traced.records_run host loader program scope session []
  rw [enquiries, ran]
  exact lookedUp sound

end Rendering

end Mustache
