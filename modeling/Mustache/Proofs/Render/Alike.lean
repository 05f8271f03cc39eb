import Mustache.Proofs.Render.Lockstep
import Mustache.Proofs.Scope.Agreement

/-!
# Runs from related sessions

A program that runs in two sessions behaves alike in both if the sinks take the same, paths name
what shows in the same way, and the loaders answer alike; then the sessions stay related in all
three respects. It may run in different scopes, and even with the data of different hosts, as long
as what paths name there shows alike (`Host.ShowsAlike`): `Rendering.actions_alikeUnless`. From one
scope this is `Rendering.execute_alike`.
-/

namespace Mustache

/-- Two sessions that are related in each of their parts: the `Sink`, the `AccessorCache` and the
state of the loader. -/
structure Session.Alongside {σ : Type} (sinks : Sink → Sink → Prop)
    (caches : AccessorCache → AccessorCache → Prop) (states : σ → σ → Prop)
    (first second : Session σ) : Prop where
  /-- The sinks are related. -/
  sink : sinks first.sink second.sink
  /-- The members of objects that were found are related. -/
  accessors : caches first.accessors second.accessors
  /-- The states of the loader are related. -/
  loading : states first.loading second.loading

/-- Related sinks take the same, and are related after it. -/
def Sink.TakeAlike (sinks : Sink → Sink → Prop) : Prop :=
  ∀ {first second}, sinks first second → ∀ bytes,
    (first.write bytes).1 = (second.write bytes).1 ∧
      sinks (first.write bytes).2 (second.write bytes).2

/-- A sink takes the same as itself. -/
theorem Sink.takeAlike_eq : TakeAlike Eq := by
  rintro first _ rfl bytes
  exact ⟨rfl, rfl⟩

/-- The path that an instruction resolves. -/
def Instruction.path? : Instruction → Option String
  | .interpolation path _ | .openBlock _ path => some path
  | .literal _ | .closeBlock | .partialCall _ => none

/-- In scopes that are related, the paths of allowed instructions name values that correspond: these
have the same text, and blocks over them are run in scopes that are related again. -/
structure Host.ShowsAlike (allowed : Instruction → Prop) (scopes : Scope → Scope → Prop)
    (caches : AccessorCache → AccessorCache → Prop) (heads : Value → Value → Prop)
    (host other : Host) : Prop where
  /-- Paths name what corresponds. -/
  resolves : ∀ {instruction path}, allowed instruction → instruction.path? = some path →
    ∀ {scope inner}, scopes scope inner → ∀ {first second}, caches first second →
      Resolution.Results True (Resolved.Corresponds True heads) (scope.resolve host path first).1
          (inner.resolve other path second).1 ∧
        caches (scope.resolve host path first).2 (inner.resolve other path second).2
  /-- What corresponds has the same text. -/
  text_eq : ∀ {left right}, heads left right → host.text left = other.text right
  /-- What corresponds makes frames that lead to related scopes. -/
  children : ∀ {scope inner}, scopes scope inner → ∀ {left right : Resolved},
    left.Corresponds True heads right →
    List.Forall₂ (fun first second => scopes (scope.child first) (inner.child second))
      left.frameHosts right.frameHosts

/-- One scope shows alike from related caches if its paths name the same from these. -/
theorem Host.showsAlike_self {host : Host} {caches : AccessorCache → AccessorCache → Prop}
    (resolves : ∀ scope path, Alike caches (Scope.resolve host scope path)
      (Scope.resolve host scope path)) (allowed : Instruction → Prop) :
    host.ShowsAlike allowed Eq caches Eq host where
  resolves _ _ scope _ same first second start := by
    subst same
    obtain ⟨sameResult, related⟩ := resolves scope _ first second start
    refine ⟨?_, related⟩
    rw [sameResult]
    rcases (scope.resolve host _ second).1 with stall | value | _ | _
    · exact .stalled trivial stall
    · exact .ok (.value rfl)
    · exact .ok (.empty trivial)
    · exact .ok .absent
  text_eq same := congrArg host.text same
  children {scope inner} same {left right} named := by
    have sameNamed : left = right := by
      rcases named with rfl | _ | _ <;> rfl
    subst same sameNamed
    exact List.forall₂_same.2 fun _ _ => rfl

/-- The same cache, which is `Sound`. -/
def AccessorCache.SameSound (schema : Schema) (first second : AccessorCache) : Prop :=
  first = second ∧ first.Sound schema

/-- Sessions that are `Alongside` each other with the same sinks, the same sound caches and the same
states of the loader are the same. -/
theorem Session.Alongside.eq {σ : Type} {schema : Schema} {states : σ → σ → Prop}
    {first second : Session σ}
    (alongside : Alongside Eq (AccessorCache.SameSound schema) states first second)
    (equal : ∀ {left right}, states left right → left = right) : first = second := by
  obtain ⟨sink, ⟨accessors, _⟩, loading⟩ := alongside
  have loading := equal loading
  cases first
  cases second
  simp only at sink accessors loading
  rw [sink, accessors, loading]

/-- Steps that are `Alike` from the same session with a sound cache do the same from it. -/
theorem Alike.eq_of_sound {σ α : Type} {schema : Schema} {states : σ → σ → Prop}
    {left right : Rendering σ α}
    (steps : Alike (Session.Alongside Eq (AccessorCache.SameSound schema) states) left right)
    (equal : ∀ {first second}, states first second → first = second) {session : Session σ}
    (sound : session.accessors.Sound schema) (start : states session.loading session.loading) :
    left session = right session := by
  obtain ⟨sameResult, after⟩ := steps session session ⟨rfl, ⟨rfl, sound⟩, start⟩
  exact Prod.ext sameResult (after.eq equal)

/-- What two steps that `Agree` answer from the same sound cache. -/
theorem Resolution.Agree.results {α β : Type} {schema : Schema} {stalls : Prop}
    {answers : α → β → Prop} {left : Resolution α} {right : Resolution β}
    (steps : Agree schema stalls answers left right) {first second : AccessorCache}
    (start : first.SameSound schema second) :
    Results stalls answers (left first).1 (right second).1 ∧
      (left first).2.SameSound schema (right second).2 := by
  obtain ⟨rfl, sound⟩ := start
  obtain ⟨_, _, after, leftRun, rightRun, results, afterSound⟩ := steps first sound
  rw [leftRun, rightRun]
  exact ⟨results, rfl, afterSound⟩

/-- What two steps that `Agree` answer from caches that are both sound. -/
theorem Resolution.Agree.results_of_bothSound {α β : Type} {schema : Schema} {stalls : Prop}
    {answers : α → β → Prop} {left : Resolution α} {right : Resolution β}
    {leftKeys rightKeys : List (Nat × String)} (steps : Agree schema stalls answers left right)
    (leftLooksUp : left.LooksUp schema leftKeys) (rightLooksUp : right.LooksUp schema rightKeys)
    {first second : AccessorCache} (start : first.BothSound schema second) :
    Results stalls answers (left first).1 (right second).1 ∧
      (left first).2.BothSound schema (right second).2 := by
  obtain ⟨_, _, after, leftRun, rightRun, results, _⟩ :=
    steps {} (AccessorCache.sound_empty schema)
  rw [leftLooksUp first start.1, rightLooksUp second start.2, answer, answer, leftRun, rightRun]
  exact ⟨results, start.1.lookUpAll leftKeys, start.2.lookUpAll rightKeys⟩

namespace Rendering

variable {σ : Type} {host other : Host} {loader : Loader σ} {sinks : Sink → Sink → Prop}
  {caches : AccessorCache → AccessorCache → Prop} {states : σ → σ → Prop}
  (takes : Sink.TakeAlike sinks)

include takes in
theorem write_alike (bytes : ByteArray) :
    Alike (Session.Alongside sinks caches states) (write bytes) (write bytes) := by
  intro first second start
  obtain ⟨sameResult, related⟩ := takes start.sink bytes
  unfold write
  rcases firstRun : first.sink.write bytes with ⟨firstTaken, firstAfter⟩
  rcases secondRun : second.sink.write bytes with ⟨secondTaken, secondAfter⟩
  rw [firstRun, secondRun] at sameResult related
  simp only at sameResult related
  subst sameResult
  cases firstTaken with
  | false => exact ⟨rfl, related, start.accessors, start.loading⟩
  | true => exact ⟨rfl, related, start.accessors, start.loading⟩

include takes in
theorem emit_alike (value : Value) (escaped : Bool) :
    Alike (Session.Alongside sinks caches states) (emit host value escaped)
      (emit host value escaped) := by
  rw [emit_eq_write]
  split
  · exact .throw _
  · exact write_alike takes _

/-- From a sound cache `resolve` names what a path names when no member was found before. -/
theorem resolve_of_sound {session : Session σ} (sound : session.accessors.Sound host.schema)
    (scope : Scope) (path : String) :
    resolve host scope path session =
      ((scope.resolve host path).answer.mapError .stalled,
        { session with
          accessors := session.accessors.lookUpAll host.schema (scope.lookups host path) }) := by
  unfold resolve
  rw [scope.resolve_looksUp host path session.accessors sound]
  cases (scope.resolve host path).answer <;> rfl

/-- A program is loaded alike by `load` if the loader answers alike. -/
theorem load_alike {name : String} (loads : Alike states (loader.load name) (loader.load name)) :
    Alike (Session.Alongside sinks caches states) (load loader name) (load loader name) := by
  intro first second start
  obtain ⟨sameResult, related⟩ := loads _ _ start.loading
  unfold load
  rcases firstRun : loader.load name first.loading with ⟨firstResult, firstAfter⟩
  rcases secondRun : loader.load name second.loading with ⟨secondResult, secondAfter⟩
  rw [firstRun, secondRun] at sameResult related
  simp only at sameResult related
  subst sameResult
  cases firstResult with
  | error => exact ⟨rfl, start.sink, start.accessors, related⟩
  | ok => exact ⟨rfl, start.sink, start.accessors, related⟩

/-- What `load` loads is what the loader answers. -/
theorem result_load (loader : Loader σ) (name : String) (session : Session σ) :
    (load loader name session).1 = (loader.load name session.loading).1 := by
  unfold load
  rcases loader.load name session.loading with ⟨_ | _, _⟩ <;> rfl

section

variable {allowed : Instruction → Prop} {scopes : Scope → Scope → Prop}
  {heads : Value → Value → Prop} {excused : RenderError → Prop}

section

variable (shows : host.ShowsAlike allowed scopes caches heads other)

include shows

/-- What is done with what `resolve` names answers alike if it does so for what corresponds. It may
rely on the path naming this from some cache. -/
theorem resolve_bind_alikeUnless {α : Type} {instruction : Instruction} {path : String}
    (permitted : allowed instruction) (named : instruction.path? = some path)
    {scope inner : Scope} (same : scopes scope inner) {left right : Resolved → Rendering σ α}
    (next : ∀ cache further, caches cache further → ∀ first second,
      (scope.resolve host path cache).1 = .ok first → first.Corresponds True heads second →
      AlikeUnless excused (Session.Alongside sinks caches states) (left first) (right second)) :
    AlikeUnless excused (Session.Alongside sinks caches states) (resolve host scope path >>= left)
      (resolve other inner path >>= right) := by
  intro first second start
  obtain ⟨results, related⟩ := shows.resolves permitted named same start.accessors
  have following := next _ _ start.accessors
  rw [bind_apply, bind_apply]
  unfold resolve
  rcases leftRun : scope.resolve host path first.accessors with ⟨leftResult, leftAfter⟩
  rcases rightRun : inner.resolve other path second.accessors with ⟨rightResult, rightAfter⟩
  rw [leftRun] at following
  rw [leftRun, rightRun] at results related
  cases results with
  | ok corresponds =>
    exact following _ _ rfl corresponds _ _ ⟨start.sink, related, start.loading⟩
  | stalled => exact .inr ⟨rfl, start.sink, related, start.loading⟩

include takes in
theorem interpolate_alikeUnless {path : String} {escaped : Bool}
    (permitted : allowed (.interpolation path escaped)) {scope inner : Scope}
    (same : scopes scope inner) :
    AlikeUnless excused (Session.Alongside sinks caches states)
      (interpolate host path escaped scope) (interpolate other path escaped inner) := by
  refine resolve_bind_alikeUnless shows permitted rfl same ?_
  rintro _ _ _ _ _ _ (@⟨left, right, found⟩ | _ | _)
  · have sameEmit : (emit other right escaped : Rendering σ Unit) = emit host left escaped := by
      rw [emit, emit, shows.text_eq found]
    simp only [sameEmit]
    exact (emit_alike takes _ escaped).unless
  · exact (Alike.pure ()).unless
  · exact (Alike.pure ()).unless

theorem overFrames_alikeUnless {kind : BlockKind} {path : String}
    (permitted : allowed (.openBlock kind path)) {scope inner : Scope} (same : scopes scope inner)
    {left right : Scope → Rendering σ Unit}
    (bodies : ∀ {first second}, scopes first second →
      AlikeUnless excused (Session.Alongside sinks caches states) (left first) (right second)) :
    AlikeUnless excused (Session.Alongside sinks caches states)
      (overFrames host kind path scope left) (overFrames other kind path inner right) := by
  refine resolve_bind_alikeUnless shows permitted rfl same ?_
  intro _ _ _ _ _ _ corresponds
  exact Composes.alikeUnless.overHosts kind (shows.children same corresponds)
    (fun _ _ inside => bodies inside) (bodies same)

end

variable (loads : ∀ name, allowed (.partialCall name) →
    Alike states (loader.load name) (loader.load name))
  (answers : ∀ name, allowed (.partialCall name) → ∀ first second program, states first second →
    (loader.load name first).1 = .ok program → program.Only allowed)

include takes loads answers

/-- What the rendering `actions` do at an instruction is alike in related sessions and scopes if
what happens inside of it is. Where only some instructions are allowed this is asked of the loader
for the names that these call, and it answers them with programs of allowed instructions. -/
theorem actions_alikeUnless (shows : host.ShowsAlike allowed scopes caches heads other) :
    Actions.RelatedFor allowed scopes
      (AlikeUnless excused (Session.Alongside sinks caches states))
      (actions host loader) (actions other loader) where
  composes := Composes.alikeUnless
  literal _ _ := (write_alike takes _).unless
  interpolation path escaped permitted _ _ same :=
    interpolate_alikeUnless takes shows permitted same
  block kind path permitted _ _ same _ _ bodies :=
    overFrames_alikeUnless shows permitted same bodies
  call name permitted _ _ runs := by
    refine (load_alike (loads name permitted)).unless.bind_of_result ?_
    intro first second called start answer
    rw [result_load] at answer
    exact runs called (answers name permitted _ _ called start.loading answer)
  fail error := (Alike.throw error).unless

/-- Runs of a program of allowed instructions in related sessions and scopes (`ShowsAlike`) are
alike. -/
theorem execute_showsAlike (shows : host.ShowsAlike allowed scopes caches heads other) (depth : Nat)
    (program : Program) (only : program.Only allowed) (start stop : Nat) {scope inner : Scope}
    (same : scopes scope inner) :
    Alike (Session.Alongside sinks caches states)
      (execute host loader depth program start stop scope)
      (execute other loader depth program start stop inner) :=
  AlikeUnless.alike (execute_relatedFor (actions_alikeUnless takes loads answers shows) depth
    program only start stop same)

end

section

variable (resolves : ∀ scope path, Alike caches (Scope.resolve host scope path)
  (Scope.resolve host scope path))

include takes resolves

/-- Runs (`execute`) of a program of allowed instructions in related sessions are alike. -/
theorem execute_alikeFor (allowed : Instruction → Prop)
    (loads : ∀ name, allowed (.partialCall name) →
      Alike states (loader.load name) (loader.load name))
    (answers : ∀ name, allowed (.partialCall name) → ∀ first second program, states first second →
      (loader.load name first).1 = .ok program → program.Only allowed)
    (depth : Nat) (program : Program) (only : program.Only allowed) (start stop : Nat)
    (scope : Scope) :
    Alike (Session.Alongside sinks caches states)
      (execute host loader depth program start stop scope)
      (execute host loader depth program start stop scope) :=
  execute_showsAlike takes loads answers (Host.showsAlike_self resolves allowed) depth program only
    start stop rfl

/-- Runs (`execute`) of a program in related sessions are alike. -/
theorem execute_alike (loads : ∀ name, Alike states (loader.load name) (loader.load name))
    (depth : Nat) (program : Program) (start stop : Nat) (scope : Scope) :
    Alike (Session.Alongside sinks caches states)
      (execute host loader depth program start stop scope)
      (execute host loader depth program start stop scope) :=
  execute_alikeFor takes resolves (fun _ => True) (fun name _ => loads name)
    (fun _ _ _ _ _ _ _ _ _ => trivial) depth program (fun _ _ => trivial) start stop scope

end

end Rendering

end Mustache
