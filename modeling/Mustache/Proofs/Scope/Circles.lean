import Mustache.Proofs.Host.Circles
import Mustache.Proofs.Scope.NestedMethods

/-!
# Lookups after all values have come

What a name names in a deferred value is what it names in the value that this settles to, and paths
come to name something once everything settles that they can get at. With what is known about
circles this says when waiting, settling, writing and looking something up come to an end after any
calls which leave nothing pending: `HandleCall.settling_ends_iff`.
-/

namespace Mustache

open Resolution

namespace Host

variable {host : Host} {value : Value}

/-- The `Host.text` of a value is the text of what it settles to, and nothing if that is not there.
-/
theorem text_eq_of_settle {last : Option Value} (settles : host.settle value = .ok last) :
    host.text value = last.elim (.ok "") host.text := by
  cases last with
  | none => rw [text, settles]; rfl
  | some concrete =>
    have again : host.settle concrete = _ := settle_of_isConcrete (isConcrete_of_settle settles)
    rw [Option.elim_some, text, text, settles, again]

theorem text_of_settle_error {stall : Stall} (stalls : host.settle value = .error stall) :
    host.text value = .error stall := by
  rw [text, stalls]

end Host

namespace Scope

variable {host : Host} {scope : Scope}

section Find

variable (resolve : String → Resolution Resolved) (origin : Scope) {value : Value} (name : String)

/-- A name is for `find` in a value what it is in the one to which `Host.settle` takes it, and is
not known if there is none. -/
theorem find_eq_of_settle {last : Option Value} (settles : host.settle value = .ok last) :
    find resolve host origin value name =
      last.elim (pure .unknown) fun concrete => find resolve host origin concrete name := by
  cases last with
  | none => rw [find, settles]; rfl
  | some concrete =>
    have again : host.settle concrete = _ :=
      Host.settle_of_isConcrete (Host.isConcrete_of_settle settles)
    rw [Option.elim_some, find, find, settles, again]

theorem find_of_settle_error {stall : Stall} (stalls : host.settle value = .error stall) :
    find resolve host origin value name = stalled stall := by
  rw [find, stalls]
  rfl

end Find

/-- If everything that can be got at from a scope `Settles`, and the paths that methods resolve
(`resolvedPaths`) come to name something, every path does. -/
theorem exists_resolve_of_settles (settles : scope.Everywhere host host.Settles)
    (methods : ∀ path ∈ host.schema.resolvedPaths,
      ∃ resolved, (scope.resolve host path).answer = .ok resolved) (path : String) :
    ∃ resolved, (scope.resolve host path).answer = .ok resolved := by
  have plain : ∀ value : Value, value.IsPlain → host.Settles value := by
    refine fun value plain => ⟨_, Host.settle_of_isConcrete ?_⟩
    rintro slot rfl
    cases plain
  have never : ∀ value stall, host.Settles value → host.settle value = .error stall → False := by
    rintro value stall ⟨settled, ended⟩ stuck
    rw [ended] at stuck
    cases stuck
  have inner : ∀ path ∈ host.schema.resolvedPaths, AgreeUnless False host.schema False
      (Resolved.Corresponds True (host.SameEverywhere host.Settles)) (scope.resolve host path)
      (scope.resolve host path) := by
    intro path declared
    obtain ⟨resolved, answered⟩ := methods path declared
    exact ((resolve_sameEverywhere plain settles path).of_answer
      (resolve_looksUp host scope path) answered).unless
  obtain ⟨first, _, after, run, _, results, _⟩ :=
    (resolveUsing_sameEverywhere plain never settles inner path).agree {}
      (AccessorCache.sound_empty _)
  cases results with
  | ok => exact ⟨_, (resolve_extends path).answer_eq (congrArg Prod.fst run)⟩
  | stalled possible => cases possible

end Scope

namespace HandleCall

open Ledger

/-- What comes of waiting after any `HandleCall`s that leave nothing pending. Waiting for a slot
always ends. Settling ends for all values exactly if no call filled a slot with a value that led to
it. A value that settles has the text of what it settles to and is looked into like it; with one
that does not, writing it and looking something up in it do not end either, however many slots are
waited for. What a slot was filled with stands for the slot in all three, a slot that was given up
settles to nothing, and if everything settles every path comes to name something. -/
theorem settling_ends_iff (schema : Schema) (objects : Array HostObject) (calls : List HandleCall)
    (known : Each Known (.ofHost ⟨schema, objects, #[]⟩) calls)
    (come : ∀ slot, (performAll calls (.ofHost ⟨schema, objects, #[]⟩)).host.slot slot ≠ .pending) :
    let ledger := performAll calls (.ofHost ⟨schema, objects, #[]⟩)
    let host := ledger.host
    (∀ slot, ∃ content, host.wait slot = .ok content) ∧
    (∀ handle, handle < ledger.handles.size → host.Knows (ledger.value handle)) ∧
    ((∀ value, host.Knows value → ∃ last, host.settle value = .ok last) ↔
      Each (fun ledger call => ¬ ClosesCircle ledger call) (.ofHost ⟨schema, objects, #[]⟩) calls) ∧
    (∀ value, host.Knows value →
      (∃ last, host.settle value = .ok last ∧ (∀ concrete ∈ last, concrete.IsConcrete) ∧
        host.text value = last.elim (.ok "") host.text ∧
        ∀ resolve origin name, Scope.find resolve host origin value name =
          last.elim (pure .unknown) fun concrete => Scope.find resolve host origin concrete name) ∨
      (∀ count, host.settleWithin count value = .error .circular) ∧
        host.text value = .error .circular ∧
        ∀ resolve origin name, Scope.find resolve host origin value name = stalled .circular) ∧
    (∀ slot next, host.slot slot = .ready next →
      host.settle (.deferred slot) = host.settle next ∧
      host.text (.deferred slot) = host.text next ∧
      ∀ resolve origin name, Scope.find resolve host origin (.deferred slot) name =
        Scope.find resolve host origin next name) ∧
    (∀ slot, slot < host.slots.size → host.slot slot = .dropped →
      host.settle (.deferred slot) = .ok none) ∧
    (Each (fun ledger call => ¬ ClosesCircle ledger call) (.ofHost ⟨schema, objects, #[]⟩) calls →
      ∀ scope : Scope, scope.Everywhere host host.Knows →
        (∀ path ∈ host.schema.resolvedPaths,
          ∃ resolved, (scope.resolve host path).answer = .ok resolved) →
        ∀ path, ∃ resolved, (scope.resolve host path).answer = .ok resolved) := by
  intro ledger host
  have start := records_ofHost ⟨schema, objects, #[]⟩
  have records : Records calls ledger := start.performAll (known.imp fun _ _ => Known.fits)
  have unfilled : ∀ slot value, (Host.mk schema objects #[]).slot slot ≠ .ready value :=
    fun slot value filled => absurd (Host.slot_lt_size filled) (Nat.not_lt_zero _)
  have startContents : (Host.mk schema objects #[]).KnowsContents :=
    fun slot value filled => absurd filled (unfilled slot value)
  have contents : host.KnowsContents := knowsContents_performAll start startContents known
  have settling := (Host.wellFounded_iff_settles come contents).symm.trans
    (wellFounded_performAll_iff start startContents (Host.wellFounded_of_unfilled unfilled) known)
  refine ⟨Host.exists_wait come, ?_, settling, ?_, ?_, fun _ => Host.settle_of_dropped, ?_⟩
  · rintro handle inside _ ⟨⟩
    exact records.inside handle inside
  · intro value knows
    rcases Host.settles_or_circular come contents knows with ⟨last, settles⟩ | circular
    · refine .inl ⟨last, settles, ?_, Host.text_eq_of_settle settles, ?_⟩
      · rintro concrete ⟨⟩
        exact Host.isConcrete_of_settle settles
      · exact fun resolve origin name => Scope.find_eq_of_settle resolve origin name settles
    · refine .inr ⟨circular, Host.text_of_settle_error (circular _), ?_⟩
      exact fun resolve origin name => Scope.find_of_settle_error resolve origin name (circular _)
  · intro slot next filled
    have same := Host.settle_deferred come contents filled
    refine ⟨same, ?_, fun resolve origin name => ?_⟩
    · rw [Host.text, Host.text, same]
    · rw [Scope.find, Scope.find, same]
  · intro closed scope everywhere methods
    refine Scope.exists_resolve_of_settles (fun frame member => ?_) methods
    obtain ⟨hosts, bound⟩ := everywhere frame member
    have settles := settling.2 closed
    exact ⟨fun value present part reached => settles part (hosts value present part reached),
      fun entry present part reached => settles part (bound entry present part reached)⟩

/-- A handle that is completed with a later one, which is completed in its turn, and a handle for
the first one: everything settles, and the last handle has the text that came in the end. -/
theorem settling_ends_iff_chain :
    let start : Ledger := .ofHost ⟨[], #[], #[]⟩
    let calls : List HandleCall := [.channel, .channel, .complete 0 (.deferred 1),
      .ready (.deferred 0), .complete 1 (.str "come")]
    let ledger := performAll calls start
    Each Known start calls ∧ (∀ slot, ledger.host.slot slot ≠ .pending) ∧
      Each (fun ledger call => ¬ ClosesCircle ledger call) start calls ∧
      ledger.host.text (ledger.value 2) = .ok "come" := by
  intro start calls
  have known : Each Known start calls := by
    simp only [calls, Each, Known, and_true, true_and]
    refine ⟨?_, ?_, ?_⟩
    · rintro _ ⟨⟩
      exact Nat.lt_succ_self 1
    · rintro _ ⟨⟩
      exact Nat.zero_lt_two
    · rintro _ ⟨⟩
  have whole : performAll calls start = ⟨⟨[], #[],
      #[.ready (.deferred 1), .ready (.str "come"), .ready (.deferred 0)]⟩, #[0, 1, 2], []⟩ := by
    rfl
  have come : ∀ slot, (performAll calls start).host.slot slot ≠ .pending := by
    rw [whole]
    exact Host.slot_ne_pending (by simp)
  obtain ⟨-, -, settling, -, onward, -, -⟩ := settling_ends_iff [] #[] calls known come
  simp only [start, whole] at settling onward come ⊢
  refine ⟨known, come, settling.1 fun value knows => ?_, ?_⟩
  · cases value with
    | bool | int | float | str | list | map | document | object => exact ⟨_, rfl⟩
    | deferred slot =>
      have inside : slot < 3 := knows slot rfl
      obtain rfl | rfl | rfl : slot = 0 ∨ slot = 1 ∨ slot = 2 := by omega
      all_goals exact ⟨_, rfl⟩
  · exact (onward 2 (.deferred 0) rfl).2.1.trans ((onward 0 (.deferred 1) rfl).2.1.trans
      ((onward 1 (.str "come") rfl).2.1.trans rfl))

/-- A handle that is completed with itself: nothing is pending, and however many slots are waited
for, settling its value does not end, nor does writing it. -/
theorem settleWithin_completed_with_itself :
    let start : Ledger := .ofHost ⟨[], #[], #[]⟩
    let calls : List HandleCall := [.channel, .complete 0 (.deferred 0)]
    let ledger := performAll calls start
    Each Known start calls ∧ (∀ slot, ledger.host.slot slot ≠ .pending) ∧
      (∀ count, ledger.host.settleWithin count (ledger.value 0) = .error .circular) ∧
      ledger.host.text (ledger.value 0) = .error .circular := by
  intro start calls
  have whole : performAll calls start = ⟨⟨[], #[], #[.ready (.deferred 0)]⟩, #[0], []⟩ := rfl
  have known : Each Known start calls := by
    simp only [calls, Each, Known, and_true, true_and]
    rintro _ ⟨⟩
    exact Nat.zero_lt_one
  simp only [whole]
  refine ⟨known, Host.slot_ne_pending (by simp), fun count => ?_, rfl⟩
  induction count with
  | zero => rfl
  | succ count inductionHypothesis => exact inductionHypothesis

end HandleCall

end Mustache
