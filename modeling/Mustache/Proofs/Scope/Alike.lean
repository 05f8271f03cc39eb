import Mustache.Scope.Resolve

/-!
# Steps that answer alike

What is remembered between two steps should not show in their answers. `Alike` compares two runs
from related states: the results are the same, and the states after them are related again.
`AlikeUnless` does not ask this where the first run ends in an error that excuses it, and
`AlikeUpTo` only asks that errors stand for each other. All are closed under putting steps together,
so whole runs are alike as soon as their single steps are.

What is remembered of objects is the members that were found. A cache is sound if it knows what the
types declare and nothing else, and it stays so when a member is resolved.
-/

namespace Mustache

/-- A step after another is taken from the state in which the other one ended, if that did not
fail. -/
theorem bind_apply {ε σ α β : Type} (step : ExceptT ε (StateM σ) α)
    (next : α → ExceptT ε (StateM σ) β) (start : σ) :
    (step >>= next) start =
      match step start with
      | (.error error, after) => (.error error, after)
      | (.ok value, after) => next value after := by
  simp only [bind, ExceptT.bind, ExceptT.mk, StateT.bind]
  rcases step start with ⟨_ | _, _⟩ <;> rfl

/-- Asking for the state leaves it as it is. -/
theorem get_apply {ε σ : Type} (start : σ) :
    (get : ExceptT ε (StateM σ) σ) start = (.ok start, start) :=
  rfl

/-- Two steps from related states have the same result and leave related states. -/
def Alike {ε σ τ α : Type} (related : σ → τ → Prop) (left : ExceptT ε (StateM σ) α)
    (right : ExceptT ε (StateM τ) α) : Prop :=
  ∀ first second, related first second →
    (left first).1 = (right second).1 ∧ related (left first).2 (right second).2

namespace Alike

variable {ε σ τ α β : Type} {related : σ → τ → Prop}

/-- A step answers `Alike` with itself from the same state. -/
theorem of_eq (step : ExceptT ε (StateM σ) α) : Alike Eq step step := by
  rintro first _ rfl
  exact ⟨rfl, rfl⟩

theorem pure (value : α) :
    Alike related (Pure.pure value : ExceptT ε (StateM σ) α) (Pure.pure value) :=
  fun _ _ start => ⟨rfl, start⟩

theorem throw (error : ε) :
    Alike related (MonadExcept.throw error : ExceptT ε (StateM σ) α)
      (MonadExcept.throw error) :=
  fun _ _ start => ⟨rfl, start⟩

end Alike

/-- Two steps from related states have the same result and leave related states, or the first one
ends in an error that is `excused`. -/
def AlikeUnless {ε σ τ α : Type} (excused : ε → Prop) (related : σ → τ → Prop)
    (left : ExceptT ε (StateM σ) α) (right : ExceptT ε (StateM τ) α) : Prop :=
  ∀ first second, related first second →
    (∃ error, excused error ∧ (left first).1 = .error error) ∨
    (left first).1 = (right second).1 ∧ related (left first).2 (right second).2

section Unless

variable {ε σ τ α β : Type} {related : σ → τ → Prop} {excused : ε → Prop}

/-- Steps that answer `Alike` do so whatever is excused. -/
theorem Alike.unless {left : ExceptT ε (StateM σ) α} {right : ExceptT ε (StateM τ) α}
    (steps : Alike related left right) : AlikeUnless excused related left right :=
  fun first second start => .inr (steps first second start)

namespace AlikeUnless

/-- Where nothing is excused steps answer `Alike`. -/
theorem alike {left : ExceptT ε (StateM σ) α} {right : ExceptT ε (StateM τ) α}
    (steps : AlikeUnless (fun _ => False) related left right) : Alike related left right := by
  intro first second start
  obtain ⟨_, never, _⟩ | same := steps first second start
  · exact never.elim
  · exact same

/-- An error that is excused excuses everything. -/
theorem throw {error : ε} (possible : excused error) (right : ExceptT ε (StateM τ) α) :
    AlikeUnless excused related (MonadExcept.throw error : ExceptT ε (StateM σ) α) right :=
  fun _ _ _ => .inl ⟨error, possible, rfl⟩

/-- Steps that are `AlikeUnless` may follow each other, and what follows may rely on what the first
step answers. -/
theorem bind_of_result {left : ExceptT ε (StateM σ) α} {right : ExceptT ε (StateM τ) α}
    {leftNext : α → ExceptT ε (StateM σ) β} {rightNext : α → ExceptT ε (StateM τ) β}
    (steps : AlikeUnless excused related left right)
    (next : ∀ first second value, related first second → (left first).1 = .ok value →
      AlikeUnless excused related (leftNext value) (rightNext value)) :
    AlikeUnless excused related (left >>= leftNext) (right >>= rightNext) := by
  intro first second start
  have following := next first second
  rw [bind_apply, bind_apply]
  obtain ⟨error, possible, failed⟩ | ⟨sameResult, after⟩ := steps first second start
  · refine .inl ⟨error, possible, ?_⟩
    rcases leftRun : left first with ⟨_ | _, _⟩
    · rw [leftRun] at failed
      cases failed
      rfl
    · rw [leftRun] at failed
      cases failed
  · rcases leftRun : left first with ⟨leftResult, leftAfter⟩
    rcases rightRun : right second with ⟨rightResult, rightAfter⟩
    rw [leftRun] at following
    rw [leftRun, rightRun] at sameResult after
    simp only at sameResult after
    subst sameResult
    cases leftResult with
    | error => exact .inr ⟨rfl, after⟩
    | ok value => exact following value start rfl leftAfter rightAfter after

end AlikeUnless

namespace Alike

/-- Steps that answer `Alike` may follow each other. -/
theorem bind {left : ExceptT ε (StateM σ) α} {right : ExceptT ε (StateM τ) α}
    {leftNext : α → ExceptT ε (StateM σ) β} {rightNext : α → ExceptT ε (StateM τ) β}
    (steps : Alike related left right)
    (next : ∀ value, Alike related (leftNext value) (rightNext value)) :
    Alike related (left >>= leftNext) (right >>= rightNext) :=
  AlikeUnless.alike (steps.unless.bind_of_result fun _ _ value _ _ => (next value).unless)

/-- Steps that answer `Alike` do so when they are repeated for each of some items. -/
theorem mapM {left : α → ExceptT ε (StateM σ) β} {right : α → ExceptT ε (StateM τ) β}
    (each : ∀ item, Alike related (left item) (right item)) (items : List α) :
    Alike related (items.mapM left) (items.mapM right) := by
  induction items with
  | nil => exact Alike.pure []
  | cons item rest inductionHypothesis =>
    rw [List.mapM_cons, List.mapM_cons]
    exact (each item).bind fun _ => inductionHypothesis.bind fun _ => Alike.pure _

end Alike

end Unless

/-- Two results are the same, or errors that stand for each other. -/
inductive ResultUpTo {ε α : Type} (errors : ε → ε → Prop) : Except ε α → Except ε α → Prop where
  /-- The value is the same. -/
  | ok (value : α) : ResultUpTo errors (.ok value) (.ok value)
  /-- The errors stand for each other. -/
  | error {first second : ε} (same : errors first second) :
      ResultUpTo errors (.error first) (.error second)

/-- What is made of the values is the same if the values are. -/
theorem ResultUpTo.map {ε α β : Type} {errors : ε → ε → Prop} {left right : Except ε α}
    (results : ResultUpTo errors left right) (change : α → β) :
    ResultUpTo errors (left.map change) (right.map change) := by
  cases results with
  | ok value => exact .ok (change value)
  | error same => exact .error same

/-- Two steps from related states have the same result, but for errors that stand for each other,
and leave related states. -/
def AlikeUpTo {ε σ τ α : Type} (errors : ε → ε → Prop) (related : σ → τ → Prop)
    (left : ExceptT ε (StateM σ) α) (right : ExceptT ε (StateM τ) α) : Prop :=
  ∀ first second, related first second →
    ResultUpTo errors (left first).1 (right second).1 ∧ related (left first).2 (right second).2

section UpTo

variable {ε σ τ α β : Type} {errors : ε → ε → Prop} {related : σ → τ → Prop}
  {left : ExceptT ε (StateM σ) α} {right : ExceptT ε (StateM τ) α}

/-- Steps that answer `Alike` do so whatever errors stand for each other, if each does for itself.
-/
theorem Alike.upTo (steps : Alike related left right) (refl : ∀ error, errors error error) :
    AlikeUpTo errors related left right := by
  intro first second start
  obtain ⟨sameResult, after⟩ := steps first second start
  refine ⟨?_, after⟩
  rw [sameResult]
  cases (right second).1 with
  | ok value => exact .ok value
  | error error => exact .error (refl error)

/-- Steps that are `AlikeUpTo` some errors may follow each other, and what follows may rely on what
the first step answers. -/
theorem AlikeUpTo.bind_of_result {leftNext : α → ExceptT ε (StateM σ) β}
    {rightNext : α → ExceptT ε (StateM τ) β} (steps : AlikeUpTo errors related left right)
    (next : ∀ first second value, related first second → (left first).1 = .ok value →
      AlikeUpTo errors related (leftNext value) (rightNext value)) :
    AlikeUpTo errors related (left >>= leftNext) (right >>= rightNext) := by
  intro first second start
  have following := next first second
  obtain ⟨results, after⟩ := steps first second start
  rw [bind_apply, bind_apply]
  rcases leftRun : left first with ⟨leftResult, leftAfter⟩
  rcases rightRun : right second with ⟨rightResult, rightAfter⟩
  rw [leftRun] at following
  rw [leftRun, rightRun] at results after
  cases results with
  | error same => exact ⟨.error same, after⟩
  | ok value => exact following value start rfl leftAfter rightAfter after

end UpTo

namespace AccessorCache

/-- A cache is sound if the members it holds are those that the types have by `Schema.find?`. -/
def Sound (schema : Schema) (cache : AccessorCache) : Prop :=
  ∀ type name accessor, cache.entries.lookup (type, name) = some accessor →
    schema.find? type name = some accessor

/-- A cache that holds nothing is `Sound`. -/
theorem sound_empty (schema : Schema) : Sound schema {} := by
  intro type name accessor found
  cases found

/-- From a `Sound` cache a member is resolved to what `Schema.find?` finds, and the cache stays
sound. -/
theorem Sound.resolve {schema : Schema} {cache : AccessorCache} (sound : cache.Sound schema)
    (type : Nat) (name : String) :
    (AccessorCache.resolve schema type name cache).1 = schema.find? type name ∧
      (AccessorCache.resolve schema type name cache).2.Sound schema := by
  unfold AccessorCache.resolve
  cases known : cache.entries.lookup (type, name) with
  | some accessor => exact ⟨(sound type name accessor known).symm, sound⟩
  | none =>
    cases declared : schema.find? type name with
    | none => exact ⟨rfl, sound⟩
    | some accessor =>
      refine ⟨rfl, ?_⟩
      intro otherType otherName other found
      rw [List.lookup_append] at found
      cases before : cache.entries.lookup (otherType, otherName) with
      | some earlier =>
        rw [before, Option.some_or] at found
        exact sound otherType otherName other (found ▸ before)
      | none =>
        rw [before, Option.none_or, List.lookup_cons] at found
        split at found
        · next same =>
          cases eq_of_beq same
          cases found
          exact declared
        · cases found

/-- Two caches that are both `Sound`. -/
def BothSound (schema : Schema) (first second : AccessorCache) : Prop :=
  first.Sound schema ∧ second.Sound schema

end AccessorCache

end Mustache
