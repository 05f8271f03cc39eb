import Mustache.Proofs.Scope.Alike

/-!
# Steps that take notes

What a step does on its way does not show in what it answers. To speak of it, the step is gone
through by another one, which does the same and takes notes. `Noted.Follows` says that this is so,
that every note is as it should be, and in what states and with what errors the step may end. It is
closed under putting steps together, so it holds of whole runs as soon as it holds of their single
steps.
-/

namespace Mustache

/-- A step that takes notes. -/
abbrev Noted (ε σ ν : Type) := ExceptT ε (StateM (σ × List ν))

namespace Noted

variable {ε σ ν α β : Type}

/-- Does what a plain step does and notes nothing. -/
def of (step : ExceptT ε (StateM σ) α) : Noted ε σ ν α := fun (state, notes) =>
  ((step state).1, ((step state).2, notes))

/-- Takes a note. -/
def note (entry : ν) : Noted ε σ ν Unit := fun (state, notes) =>
  (.ok (), (state, notes ++ [entry]))

/-- What is to be true of steps. -/
structure Terms (ε σ ν : Type) where
  /-- What holds of the state before a step, and then also after it. -/
  state : σ → Prop
  /-- What holds of every note that is taken. -/
  entry : ν → Prop
  /-- What holds of an error with which a step fails. -/
  error : ε → Prop

/-- A plain step, taken in a state of which the terms hold, ends in such a state, and if it fails
they hold of the error. -/
def Terms.Kept (terms : Terms ε σ ν) (step : ExceptT ε (StateM σ) α) : Prop :=
  ∀ state, terms.state state → terms.state (step state).2 ∧
    ∀ error, (step state).1 = .error error → terms.error error

/-- A step that takes notes does what a plain step does, and the terms are kept. -/
structure Follows (terms : Terms ε σ ν) (noted : Noted ε σ ν α) (plain : ExceptT ε (StateM σ) α) :
    Prop where
  /-- The plain step keeps the terms. -/
  kept : terms.Kept plain
  /-- Both do the same, and the terms hold of what is noted. -/
  notes : ∀ state before, terms.state state → ∃ further,
    noted (state, before) = ((plain state).1, ((plain state).2, before ++ further)) ∧
      ∀ entry ∈ further, terms.entry entry

variable {terms : Terms ε σ ν} {noted : Noted ε σ ν α} {plain : ExceptT ε (StateM σ) α}

namespace Terms.Kept

theorem pure (value : α) : terms.Kept (Pure.pure value : ExceptT ε (StateM σ) α) :=
  fun _ holds => ⟨holds, fun _ failed => nomatch failed⟩

theorem throw {error : ε} (possible : terms.error error) :
    terms.Kept (MonadExcept.throw error : ExceptT ε (StateM σ) α) := by
  refine fun state holds => ⟨holds, fun other failed => ?_⟩
  cases failed
  exact possible

/-- Steps that keep the terms may follow each other. -/
theorem bind {next : α → ExceptT ε (StateM σ) β} (first : terms.Kept plain)
    (second : ∀ value, terms.Kept (next value)) : terms.Kept (plain >>= next) := by
  intro state holds
  obtain ⟨after, errors⟩ := first state holds
  rw [bind_apply]
  rcases ran : plain state with ⟨error | value, reached⟩
  · rw [ran] at after errors
    refine ⟨after, fun other failed => ?_⟩
    cases failed
    exact errors error rfl
  · rw [ran] at after
    exact second value reached after

end Terms.Kept

namespace Follows

/-- A plain step that keeps the terms (`Kept`) may be taken without a note. -/
theorem of (kept : terms.Kept plain) : Follows terms (Noted.of plain) plain := by
  refine ⟨kept, fun state before _ => ⟨[], ?_, fun _ member => (List.not_mem_nil member).elim⟩⟩
  rw [List.append_nil]
  rfl

theorem pure (value : α) :
    Follows terms (Pure.pure value) (Pure.pure value : ExceptT ε (StateM σ) α) :=
  of (.pure value)

theorem throw {error : ε} (possible : terms.error error) :
    Follows terms (MonadExcept.throw error)
      (MonadExcept.throw error : ExceptT ε (StateM σ) α) :=
  of (.throw possible)

/-- A note may be taken where a plain step does nothing. -/
theorem note {entry : ν} (right : terms.entry entry) :
    Follows terms (Noted.note entry) (Pure.pure () : ExceptT ε (StateM σ) Unit) :=
  ⟨.pure (), fun _ _ _ => ⟨[entry], rfl, List.forall_mem_singleton.2 right⟩⟩

/-- Steps that go on as plain ones (`Follows`) may follow each other. -/
theorem bind {next : α → Noted ε σ ν β} {plainNext : α → ExceptT ε (StateM σ) β}
    (first : Follows terms noted plain)
    (second : ∀ value, Follows terms (next value) (plainNext value)) :
    Follows terms (noted >>= next) (plain >>= plainNext) := by
  refine ⟨first.kept.bind fun value => (second value).kept, fun state before holds => ?_⟩
  obtain ⟨further, ran, entries⟩ := first.notes state before holds
  have after := (first.kept state holds).1
  rw [bind_apply, bind_apply, ran]
  rcases plainRan : plain state with ⟨error | value, reached⟩
  · exact ⟨further, rfl, entries⟩
  · rw [plainRan] at after
    obtain ⟨more, ranOn, moreEntries⟩ := (second value).notes reached (before ++ further) after
    refine ⟨further ++ more, ?_, List.forall_mem_append.2 ⟨entries, moreEntries⟩⟩
    rw [← List.append_assoc]
    exact ranOn

/-- A note may be taken before a step. -/
theorem noting {entry : ν} (right : terms.entry entry) (follows : Follows terms noted plain) :
    Follows terms (Noted.note entry >>= fun _ => noted) plain := by
  rw [← pure_bind () fun _ => plain]
  exact (note right).bind fun _ => follows

/-- A step that goes on as a plain one (`Follows`) may be repeated for each of some items. -/
theorem forM {γ : Type} {noted : γ → Noted ε σ ν PUnit} {plain : γ → ExceptT ε (StateM σ) PUnit}
    (items : List γ) (each : ∀ item, Follows terms (noted item) (plain item)) :
    Follows terms (items.forM noted) (items.forM plain) := by
  induction items with
  | nil => exact pure ()
  | cons item rest inductionHypothesis => exact (each item).bind fun _ => inductionHypothesis

end Follows

end Noted

end Mustache
