import Mustache.Proofs.Render.Context
import Mustache.Proofs.Render.InnerScopes
import Mustache.Proofs.Scope.Padding

/-!
# Rendering with frames without content

Where objects have no methods that are given a frame, frames without content do not show: a run from
a padded scope is the run from the scope itself. A block over the truth value true only adds such a
frame around its body, so its body may stand without it. `run_eq_of_padded` states both.
-/

namespace Mustache

/-- Whether what a path names is the truth value true. -/
def Resolved.IsTrue (resolved : Resolved) : Prop :=
  resolved = .value (.bool true) ∨ resolved = .value (.document (.bool true))

/-- A block over the truth value true has one frame, without content (`frameHosts`). -/
theorem Resolved.IsTrue.frameHosts_eq {resolved : Resolved} (isTrue : resolved.IsTrue) :
    resolved.frameHosts = [none] := by
  obtain rfl | rfl := isTrue <;> rfl

/-- A scope whose objects have no methods that are given a frame (`Host.IsUncontextual`), and a
`Padded` one. -/
structure Scope.PaddedPlain (host : Host) (scope other : Scope) : Prop where
  /-- No object has a method that is given a frame. -/
  uncontextual : scope.Everywhere host host.IsUncontextual
  /-- The other scope has more frames, which have no content. -/
  padded : scope.Padded other

/-- Padding does not show, from whatever caches paths that agree answer alike. -/
theorem Host.showsAlike_padded (host : Host) {caches : AccessorCache → AccessorCache → Prop}
    (resolves : ∀ {scope other : Scope}, scope.PaddedPlain host other → ∀ path {first second},
      caches first second →
      Resolution.Results True
          (Resolved.Corresponds True (host.SameEverywhere host.IsUncontextual))
          (scope.resolve host path first).1 (other.resolve host path second).1 ∧
        caches (scope.resolve host path first).2 (other.resolve host path second).2) :
    host.ShowsAlike (fun _ => True) (Scope.PaddedPlain host) caches
      (host.SameEverywhere host.IsUncontextual) host where
  resolves _ _ _ _ same _ _ start := resolves same _ start
  text_eq same := congrArg host.text same.1
  children same _ _ named := by
    refine (named.frameHosts_same host.isUncontextual_of_isPlain).imp ?_
    rintro content _ ⟨rfl, inside⟩
    exact ⟨same.uncontextual.child inside, same.padded.child content⟩

namespace Rendering

variable {σ : Type} {host : Host} {loader : Loader σ}

/-- A `run` from a padded scope is the run from the scope itself. -/
theorem run_padded {scope other : Scope} (same : scope.PaddedPlain host other) (program : Program)
    {session : Session σ} (sound : session.accessors.Sound host.schema) :
    run host loader program scope session = run host loader program other session := by
  have runs : Alike (Session.Alongside Eq (AccessorCache.SameSound host.schema) Eq)
      (run host loader program scope) (run host loader program other) :=
    execute_showsAlike Sink.takeAlike_eq (fun name _ => .of_eq (loader.load name))
      (fun _ _ _ _ _ _ _ _ _ => trivial)
      (host.showsAlike_padded fun same path => (same.padded.resolve_agree same.uncontextual
        path).results)
      0 program (fun _ _ => trivial) 0 program.instructions.size same
  exact runs.eq_of_sound id sound rfl

/-- What the rendering `actions` do at an instruction in a padded scope is alike from sound caches.
-/
theorem actions_padded :
    Actions.RelatedFor (fun _ => True) (Scope.PaddedPlain host)
      (AlikeUnless (fun _ => False)
        (Session.Alongside Eq (AccessorCache.BothSound host.schema) Eq))
      (actions host loader) (actions host loader) :=
  actions_alikeUnless Sink.takeAlike_eq (fun name _ => .of_eq (loader.load name))
    (fun _ _ _ _ _ _ _ _ _ => trivial)
    (host.showsAlike_padded fun same path => (same.padded.resolve_agree same.uncontextual
      path).results_of_bothSound (Scope.resolve_looksUp host _ path)
      (Scope.resolve_looksUp host _ path))

/-- A body does the same by itself and in a block (`overFrames`) over a path that names the truth
value true. -/
theorem overFrames_alike_of_isTrue {path : String} {scope : Scope} {resolved : Resolved}
    (uncontextual : scope.Everywhere host host.IsUncontextual)
    (named : (scope.resolve host path).answer = .ok resolved) (isTrue : resolved.IsTrue)
    (depth : Nat) (body : Routine) :
    AlikeUnless (fun _ => False) (Session.Alongside Eq (AccessorCache.BothSound host.schema) Eq)
      (runRoutine host loader depth body scope)
      (overFrames host .iterable path scope (runRoutine host loader depth body)) := by
  intro first second start
  have sound := start.accessors.2.lookUpAll (scope.lookups host path)
  have padded : scope.PaddedPlain host (scope.child none) :=
    ⟨uncontextual, scope.padded_child_none⟩
  have bodies : AlikeUnless (fun _ => False)
      (Session.Alongside Eq (AccessorCache.BothSound host.schema) Eq)
      (runRoutine host loader depth body scope)
      (runRoutine host loader depth body (scope.child none)) :=
    runRoutine_relatedFor actions_padded depth body padded
  have inBlock : overFrames host .iterable path scope (runRoutine host loader depth body) second =
      runRoutine host loader depth body (scope.child none) { second with
        accessors := second.accessors.lookUpAll host.schema (scope.lookups host path) } := by
    unfold overFrames
    rw [bind_apply, resolve_of_sound start.accessors.2, named]
    simp only [Except.mapError, isTrue.frameHosts_eq]
    change (runRoutine host loader depth body (scope.child none) >>= fun _ => pure ()) _ = _
    rw [bind_pure_unit]
  rw [inBlock]
  exact bodies _ _ ⟨start.sink, ⟨start.accessors.1, sound⟩, start.loading⟩

/-- A body and the block around it do the same in a place of a program (`Context.fill`), if wherever
this place may be run the path of the block names the truth value true. -/
theorem fill_alike_of_isTrue {scope : Scope}
    (uncontextual : scope.Everywhere host host.IsUncontextual) (context : Routine.Context)
    {path : String}
    (truths : ∀ inner, scope.Inside host (Instruction.openAfter [] context.leading) inner →
      ∃ resolved, (inner.resolve host path).answer = .ok resolved ∧ resolved.IsTrue)
    (depth : Nat) (body next : Routine) :
    Alike (Session.Alongside Eq (AccessorCache.BothSound host.schema) Eq)
      (runRoutine host loader depth (context.fill (body.append next)) scope)
      (runRoutine host loader depth (context.fill (.block .iterable path body next)) scope) := by
  have answers : ∀ {inner : Scope} {path cache further resolved},
      AccessorCache.BothSound host.schema cache further →
      (inner.resolve host path cache).1 = .ok resolved →
      (inner.resolve host path).answer = .ok resolved := by
    intro inner path cache further resolved start answered
    rw [inner.resolve_looksUp host path cache start.1] at answered
    exact answered
  refine AlikeUnless.alike (runRoutine_fill_alikeUnless Sink.takeAlike_eq (Scope.resolve_alike host)
    (fun name => .of_eq (loader.load name)) (scope.Inside host)
    (fun outer start answered member => .iterable outer (answers start answered) member)
    (fun outer start answered nothing => .inverted outer (answers start answered) nothing)
    depth context [] .here fun inner inside => ?_)
  obtain ⟨resolved, named, isTrue⟩ := truths inner inside
  have everywhere := inside.everywhere host.isUncontextual_of_isPlain uncontextual
  rw [runRoutine_append, runRoutine]
  exact (overFrames_alike_of_isTrue everywhere named isTrue depth body).bind_of_result
    fun _ _ _ _ _ => runRoutine_relatedFor actions_padded depth next ⟨everywhere, .refl _⟩

end Rendering

/-- In a scope whose objects have no methods that are given a frame, any number of frames without
content may be put in anywhere (`Scope.Padded`): paths name the same, and runs do the same. And if a
path of a program names the truth value true wherever a block over it may be run, the body of the
block may stand without it. -/
theorem run_eq_of_padded {host : Host} {scope : Scope}
    (uncontextual : scope.Everywhere host host.IsUncontextual) :
    (∀ other : Scope, scope.Padded other →
      (∀ path (cache : AccessorCache), cache.Sound host.schema →
        other.resolve host path cache = scope.resolve host path cache) ∧
      ∀ {σ : Type} (loader : Loader σ) (program : Program) (session : Session σ),
        session.accessors.Sound host.schema →
        Rendering.run host loader program other session =
          Rendering.run host loader program scope session) ∧
    ∀ (program : Program) (before body after : List Instruction) (path : String),
      program.instructions.toList =
        before ++ .openBlock .iterable path :: (body ++ .closeBlock :: after) →
      program.endOf? before.length = some (before.length + 1 + body.length) →
      (∀ inner, scope.Inside host (Instruction.openAfter [] before) inner →
        ∃ resolved, (inner.resolve host path).answer = .ok resolved ∧ resolved.IsTrue) →
      ∃ replaced : Program, Program.make (before ++ body ++ after) = .ok replaced ∧
        ∀ {σ : Type} (loader : Loader σ) (session : Session σ),
          session.accessors.Sound host.schema →
          (Rendering.run host loader replaced scope session).1 =
              (Rendering.run host loader program scope session).1 ∧
            (Rendering.run host loader replaced scope session).2.sink =
              (Rendering.run host loader program scope session).2.sink := by
  refine ⟨fun other padded => ⟨fun path cache sound => ?_, fun loader program session sound => ?_⟩,
    fun program before body after path laidOut ends truths => ?_⟩
  · obtain ⟨_, _, _, leftRun, rightRun, results, _⟩ :=
      padded.resolve_agree uncontextual path cache sound
    rw [leftRun, rightRun]
    rcases results with corresponds | _
    · rw [corresponds.eq_of_same]
    · rfl
  · exact (Rendering.run_padded ⟨uncontextual, padded⟩ program sound).symm
  · obtain ⟨context, inner, next, whole, rfl, rfl, rfl⟩ := program.exists_fill_block laidOut ends
    obtain ⟨replaced, made, replacedLaidOut⟩ :=
      Program.exists_make_flatten (context.fill (inner.append next))
    refine ⟨replaced, ?_, fun loader session sound => ?_⟩
    · rw [← made, context.flatten_fill, Routine.flatten_append]
      simp only [List.append_assoc]
    · have runs : Alike (Session.Alongside Eq (AccessorCache.BothSound host.schema) Eq)
          (Rendering.runRoutine host loader 0 (context.fill (inner.append next)) scope)
          (Rendering.runRoutine host loader 0 (context.fill (.block .iterable path inner next))
            scope) :=
        Rendering.fill_alike_of_isTrue uncontextual context truths 0 inner next
      rw [← Rendering.execute_eq_runRoutine _ whole,
        ← Rendering.execute_eq_runRoutine _ replacedLaidOut] at runs
      obtain ⟨sameResult, ended⟩ := runs session session ⟨rfl, ⟨sound, sound⟩, rfl⟩
      exact ⟨sameResult, ended.sink⟩

/-- Two frames put in below an object with a field, and a block over an item of a list that is true.
-/
theorem run_eq_of_padded_object :
    let schema : Schema := [[.member ⟨"name", .field "name", .required⟩]]
    let host : Host := ⟨schema, #[⟨0, none, [("name", .str "A")], []⟩], #[]⟩
    let scope := Scope.root (.ofHost (.map [("o", .object 0), ("xs", .list [.bool true])]))
    let other := (scope.child none).child none
    let program : Program :=
      ⟨#[.openBlock .iterable "xs", .openBlock .iterable ".", .interpolation "o.name" true,
          .closeBlock, .closeBlock], #[some 4, some 3, none, none, none], _, rfl, rfl⟩
    let session : Session Unit := ⟨{}, {}, ()⟩
    scope.Everywhere host host.IsUncontextual ∧ scope.Padded other ∧
      session.accessors.Sound schema ∧
      (∀ loader : Loader Unit, Rendering.run host loader program other session =
        Rendering.run host loader program scope session) ∧
      program.instructions.toList = [.openBlock .iterable "xs"] ++ .openBlock .iterable "." ::
        ([.interpolation "o.name" true] ++ .closeBlock :: [.closeBlock]) ∧
      program.endOf? 1 = some 3 ∧
      (∀ inner, scope.Inside host [(.iterable, "xs")] inner →
        ∃ resolved, (inner.resolve host ".").answer = .ok resolved ∧ resolved.IsTrue) ∧
      ∃ replaced : Program,
        Program.make ([.openBlock .iterable "xs"] ++ [.interpolation "o.name" true] ++
          [.closeBlock]) = .ok replaced ∧
        ∀ loader : Loader Unit,
          (Rendering.run host loader replaced scope session).1 =
              (Rendering.run host loader program scope session).1 ∧
            (Rendering.run host loader replaced scope session).2.sink =
              (Rendering.run host loader program scope session).2.sink := by
  intro schema host scope other program session
  have uncontextual : scope.Everywhere host host.IsUncontextual := by
    refine Scope.everywhere_of_forall (Host.isUncontextual_of_flatten fun member declared => ?_) _ _
    cases List.mem_singleton.1 declared
    exact nofun
  have padded : scope.Padded other := .insert (.insert (.refl _))
  have sound : session.accessors.Sound schema := AccessorCache.sound_empty _
  have truths : ∀ inner, scope.Inside host [(.iterable, "xs")] inner →
      ∃ resolved, (inner.resolve host ".").answer = .ok resolved ∧ resolved.IsTrue := by
    rintro _ (_ | ⟨⟨⟩, named, member⟩)
    have list : (scope.resolve host "xs").answer = .ok (.value (.list [.bool true])) := rfl
    obtain rfl := Except.ok.inj (list.symm.trans named)
    obtain rfl := List.mem_singleton.1 member
    exact ⟨.value (.bool true), rfl, .inl rfl⟩
  obtain ⟨transparent, replaces⟩ := run_eq_of_padded uncontextual
  obtain ⟨replaced, made, same⟩ := replaces program [.openBlock .iterable "xs"]
    [.interpolation "o.name" true] [.closeBlock] "." rfl rfl truths
  exact ⟨uncontextual, padded, sound,
    fun loader => (transparent other padded).2 loader program session sound, rfl, rfl, truths,
    replaced, made, fun loader => same loader session sound⟩

end Mustache
