import Mustache.Proofs.Render.Lockstep
import Mustache.Proofs.Render.Sink
import Mustache.Proofs.Scope.Alike

/-!
# Sinks that become full

What a run writes does not depend on the sink it writes to, as long as there is room. A step
`HandsOver` an output if it does to every sink what one write of that output does, and ends as it
would without a limit or, where the output does not fit, with the error of a full sink. This is
kept when steps follow each other, so it holds of whole runs: `run_limited_eq_prefix`.
-/

namespace Mustache

namespace Rendering

variable {σ α β : Type}

/-- A step that from some found members and some state of the loader writes an output and then
ends in one way, whatever the sink, unless the output does not fit. -/
structure HandsOver (step : Rendering σ α) (accessors : AccessorCache) (loading : σ)
    (output : ByteArray) (ended : Except RenderError α) (accessorsAfter : AccessorCache)
    (loadingAfter : σ) : Prop where
  /-- Where the output fits the step ends as it does without a limit. -/
  fits : ∀ {sink after : Sink}, sink.write output = (true, after) →
    step ⟨sink, accessors, loading⟩ = (ended, ⟨after, accessorsAfter, loadingAfter⟩)
  /-- Where the output does not fit as much of it is written as there is room for. -/
  overflows : ∀ {sink after : Sink}, sink.write output = (false, after) →
    ∃ session, step ⟨sink, accessors, loading⟩ = (.error .sinkFull, session) ∧
      session.sink = after

/-- A step that hands over some output from wherever it is taken. -/
def Streams (step : Rendering σ α) : Prop :=
  ∀ accessors loading, ∃ output ended accessorsAfter loadingAfter,
    step.HandsOver accessors loading output ended accessorsAfter loadingAfter

namespace HandsOver

variable {accessors accessorsAfter : AccessorCache} {loading loadingAfter : σ}

/-- A step that leaves every sink alone hands over no output. -/
theorem of_silent {step : Rendering σ α} {ended : Except RenderError α}
    (silent : ∀ sink, step ⟨sink, accessors, loading⟩ =
      (ended, ⟨sink, accessorsAfter, loadingAfter⟩)) :
    step.HandsOver accessors loading .empty ended accessorsAfter loadingAfter := by
  constructor
  · intro sink after written
    rw [Sink.write_empty] at written
    cases written
    exact silent sink
  · intro sink after written
    rw [Sink.write_empty] at written
    cases written

/-- After a step that failed a step `HandsOver` nothing more. -/
theorem bind_error {step : Rendering σ α} {next : α → Rendering σ β} {output : ByteArray}
    {error : RenderError}
    (first : step.HandsOver accessors loading output (.error error) accessorsAfter loadingAfter) :
    (step >>= next).HandsOver accessors loading output (.error error) accessorsAfter
      loadingAfter := by
  constructor
  · intro sink after written
    rw [bind_apply, first.fits written]
  · intro sink after written
    obtain ⟨session, ran, sinkAfter⟩ := first.overflows written
    exact ⟨session, by rw [bind_apply, ran], sinkAfter⟩

/-- Two steps one after the other hand over (`HandsOver`) the output of the first and then that of
the second. -/
theorem bind_ok {step : Rendering σ α} {next : α → Rendering σ β} {output rest : ByteArray}
    {value : α} {ended : Except RenderError β} {accessorsLast : AccessorCache} {loadingLast : σ}
    (first : step.HandsOver accessors loading output (.ok value) accessorsAfter loadingAfter)
    (second : (next value).HandsOver accessorsAfter loadingAfter rest ended accessorsLast
      loadingLast) :
    (step >>= next).HandsOver accessors loading (output ++ rest) ended accessorsLast
      loadingLast := by
  -- Whether both outputs fit is asked of the sink as it is after the first one.
  constructor
  · intro sink after written
    rcases cut : sink.write output with ⟨_ | _, middle⟩
    · rw [Sink.write_append_of_fails cut] at written
      cases written
    · rw [Sink.write_append_of_fits cut] at written
      rw [bind_apply, first.fits cut]
      exact second.fits written
  · intro sink after written
    rcases cut : sink.write output with ⟨_ | _, middle⟩
    · rw [Sink.write_append_of_fails cut] at written
      cases written
      obtain ⟨session, ran, sinkAfter⟩ := first.overflows cut
      exact ⟨session, by rw [bind_apply, ran], sinkAfter⟩
    · rw [Sink.write_append_of_fits cut] at written
      rw [bind_apply, first.fits cut]
      exact second.overflows written

end HandsOver

namespace Streams

/-- A step that answers in one way whatever the sink and leaves it alone `Streams`. -/
theorem of_silent {step : Rendering σ α}
    (silent : ∀ accessors loading, ∃ ended accessorsAfter loadingAfter, ∀ sink,
      step ⟨sink, accessors, loading⟩ = (ended, ⟨sink, accessorsAfter, loadingAfter⟩)) :
    step.Streams := by
  intro accessors loading
  obtain ⟨ended, accessorsAfter, loadingAfter, alone⟩ := silent accessors loading
  exact ⟨.empty, ended, accessorsAfter, loadingAfter, .of_silent alone⟩

theorem pure (value : α) : (Pure.pure value : Rendering σ α).Streams :=
  of_silent fun accessors loading => ⟨.ok value, accessors, loading, fun _ => rfl⟩

theorem throw (error : RenderError) : (MonadExcept.throw error : Rendering σ α).Streams :=
  of_silent fun accessors loading => ⟨.error error, accessors, loading, fun _ => rfl⟩

theorem write (bytes : ByteArray) : (Rendering.write bytes : Rendering σ Unit).Streams := by
  intro accessors loading
  refine ⟨bytes, .ok (), accessors, loading, ?_, ?_⟩
  · intro sink after written
    rw [Rendering.write, written]
  · intro sink after written
    exact ⟨⟨after, accessors, loading⟩, by rw [Rendering.write, written], rfl⟩

/-- Steps of which each `Streams` may follow each other. -/
theorem bind {step : Rendering σ α} {next : α → Rendering σ β} (first : step.Streams)
    (second : ∀ value, (next value).Streams) : (step >>= next).Streams := by
  intro accessors loading
  obtain ⟨output, ended, accessorsAfter, loadingAfter, handsOver⟩ := first accessors loading
  cases ended with
  | error error => exact ⟨output, .error error, accessorsAfter, loadingAfter, handsOver.bind_error⟩
  | ok value =>
    obtain ⟨rest, last, accessorsLast, loadingLast, handsOverRest⟩ :=
      second value accessorsAfter loadingAfter
    exact ⟨output ++ rest, last, accessorsLast, loadingLast, handsOver.bind_ok handsOverRest⟩

/-- A step that `Streams` may be repeated for each of some items. -/
theorem forM {γ : Type} {step : γ → Rendering σ PUnit} (items : List γ)
    (each : ∀ item, (step item).Streams) : Streams (items.forM step) := by
  induction items with
  | nil => exact pure ()
  | cons item rest inductionHypothesis => exact (each item).bind fun _ => inductionHypothesis

variable (host : Host)

theorem resolve (scope : Scope) (path : String) :
    (Rendering.resolve host scope path : Rendering σ Resolved).Streams := by
  refine of_silent fun accessors loading => ?_
  rcases found : scope.resolve host path accessors with ⟨stall | resolved, after⟩
  · exact ⟨.error (.stalled stall), after, loading, fun _ => by rw [Rendering.resolve, found]⟩
  · exact ⟨.ok resolved, after, loading, fun _ => by rw [Rendering.resolve, found]⟩

theorem load (loader : Loader σ) (name : String) : (Rendering.load loader name).Streams := by
  refine of_silent fun accessors loading => ?_
  rcases found : loader.load name loading with ⟨error | program, after⟩
  · exact ⟨.error error, accessors, after, fun _ => by rw [Rendering.load, found]⟩
  · exact ⟨.ok program, accessors, after, fun _ => by rw [Rendering.load, found]⟩

theorem emit (value : Value) (escaped : Bool) :
    (Rendering.emit host value escaped : Rendering σ Unit).Streams := by
  rw [emit_eq_write]
  split
  · exact throw _
  · exact write _

/-- What is done at an instruction `Streams` if the bodies of blocks and the programs that are
called do. -/
theorem related (loader : Loader σ) :
    Actions.Related Eq (fun step _ => step.Streams) (actions host loader)
      (actions host loader) where
  done := pure ()
  andThen first second := first.bind fun _ => second
  literal text := write text.toByteArray
  interpolation path escaped scope _ _ := by
    refine (resolve host scope path).bind fun resolved => ?_
    cases resolved with
    | value value => exact emit host value escaped
    | empty | absent => exact pure ()
  block kind path scope _ _ body _ bodies := by
    refine (resolve host scope path).bind fun resolved => ?_
    cases kind with
    | iterable => exact forM _ fun inner => @bodies (scope.child inner) _ rfl
    | inverted =>
      simp only
      split
      · exact @bodies scope _ rfl
      · exact pure ()
  call name _ _ runs := (load loader name).bind runs
  fail error := throw error

/-- Every run `Streams`. -/
theorem execute (loader : Loader σ) (depth : Nat) (program : Program) (start stop : Nat)
    (scope : Scope) : (Rendering.execute host loader depth program start stop scope).Streams :=
  execute_related (related host loader) depth program start stop rfl

end Streams

/-- A sink with room for `limit` bytes holds, after `Rendering.run` into it, exactly the first
`limit` bytes of what the run writes into a sink without a limit, and all of them if there are no
more. The run ends as it does there if all bytes fit, and else because the sink is full. -/
theorem run_limited_eq_prefix (host : Host) (loader : Loader σ) (program : Program)
    (scope : Scope) (accessors : AccessorCache) (loading : σ) (limit : Nat) :
    let whole := run host loader program scope ⟨{}, accessors, loading⟩
    let limited := run host loader program scope ⟨{ room := some limit }, accessors, loading⟩
    let output := whole.2.sink.written
    limited.2.sink.written = output.extract 0 (min limit output.size) ∧
      limited.1 = if output.size ≤ limit then whole.1 else .error .sinkFull := by
  intro whole limited output
  obtain ⟨bytes, ended, accessorsAfter, loadingAfter, handsOver⟩ :=
    Streams.execute host loader 0 program 0 program.instructions.size scope accessors loading
  have unlimited : whole = (ended, ⟨⟨.empty ++ bytes, none⟩, accessorsAfter, loadingAfter⟩) :=
    handsOver.fits (Sink.write_of_unlimited rfl bytes)
  have written : output = bytes := by
    change whole.2.sink.written = bytes
    rw [unlimited]
    exact ByteArray.empty_append
  have firstBytes : output.extract 0 (min limit output.size) = .empty ++ bytes.extract 0 limit := by
    rw [written, ByteArray.empty_append, ByteArray.ext_iff]
    simp [Array.extract_eq_extract_right]
  rw [firstBytes, written, unlimited]
  by_cases enough : bytes.size ≤ limit
  · have fits : Sink.write { room := some limit } bytes =
        (true, ⟨.empty ++ bytes.extract 0 limit, some (limit - bytes.size)⟩) := by
      simp [Sink.write, enough]
    have ran : limited = _ := handsOver.fits fits
    rw [ran, if_pos enough]
    exact ⟨rfl, rfl⟩
  · have overflows : Sink.write { room := some limit } bytes =
        (false, ⟨.empty ++ bytes.extract 0 limit, some (limit - bytes.size)⟩) := by
      simp [Sink.write, enough]
    obtain ⟨session, ran, sinkAfter⟩ := handsOver.overflows overflows
    have ended : limited = _ := ran
    rw [ended, if_neg enough, sinkAfter]
    exact ⟨rfl, rfl⟩

end Rendering

end Mustache
