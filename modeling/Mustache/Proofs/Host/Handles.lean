import Mustache.Proofs.Host.HandleSteps
import Mathlib.Data.List.Induction

/-!
# Histories of handles

Handles that go back to one handle share its slot, and only the completer of that one can change
what is in it. Which handles share a slot and what is in it is told by the calls alone:
`HandleCall.Records` says how, every step keeps it up, and `HandleCall.handle_history` draws the
conclusions.
-/

namespace Mustache

namespace HandleCall

open Ledger

/-- What some calls decide on (`decides?`), in order. -/
def decisions (calls : List HandleCall) : List (Nat × Slot) :=
  calls.filterMap decides?

/-- The handles that some calls make, given by those to which they go back, with the handle of one
more call: a copy goes back to what the copied handle goes back to, another one to itself. -/
def addOrigin (origins : List Nat) : HandleCall → List Nat
  | .channel | .ready _ => origins ++ [origins.length]
  | .clone handle => origins ++ [origins[handle]?.getD origins.length]
  | .complete _ _ | .drop _ => origins

/-- The handles that some calls make, given by those to which they go back. -/
def origins (calls : List HandleCall) : List Nat :=
  calls.foldl addOrigin []

/-- Only a handle that is there can be copied. -/
def Fits (ledger : Ledger) (call : HandleCall) : Prop :=
  ∀ handle, call = .clone handle → handle < ledger.handles.size

/-- A call that decides on a slot makes no handle, so `addOrigin` adds none. -/
theorem addOrigin_of_decides {call : HandleCall} {handle : Nat} {content : Slot}
    (decides : call.decides? = some (handle, content)) (origins : List Nat) :
    addOrigin origins call = origins := by
  cases call with
  | channel | ready | clone => cases decides
  | complete | drop => rfl

section Origins

/-- A handle that another one goes back to goes back to itself. -/
def Closed (origins : List Nat) : Prop :=
  ∀ handle origin : Nat, origins[handle]? = some origin → origins[origin]? = some origin

theorem Closed.concat {origins : List Nat} (closed : Closed origins) {last : Nat}
    (known : last = origins.length ∨ origins[last]? = some last) : Closed (origins ++ [last]) := by
  have old : ∀ origin : Nat, origins[origin]? = some origin →
      (origins ++ [last])[origin]? = some origin := by
    intro origin present
    rw [List.getElem?_append_left (List.getElem?_eq_some_iff.1 present).1, present]
  intro handle origin found
  rw [List.getElem?_append] at found
  split at found
  · exact old origin (closed handle origin found)
  · rw [List.getElem?_singleton] at found
    split at found
    · cases found
      rcases known with new | known
      · rw [new, List.getElem?_concat_length]
      · exact old _ known
    · cases found

theorem Closed.addOrigin {origins : List Nat} (closed : Closed origins) (call : HandleCall) :
    Closed (addOrigin origins call) := by
  cases call with
  | channel | ready => exact closed.concat (.inl rfl)
  | clone handle =>
    apply closed.concat
    cases found : origins[handle]? with
    | none => exact .inl rfl
    | some origin => exact .inr (closed handle origin found)
  | complete | drop => exact closed

theorem closed_origins (calls : List HandleCall) : Closed (origins calls) := by
  have onward : ∀ start, Closed start → Closed (calls.foldl HandleCall.addOrigin start) := by
    induction calls with
    | nil => exact fun _ closed => closed
    | cons call rest inductionHypothesis =>
      exact fun start closed => inductionHypothesis _ (closed.addOrigin call)
  exact onward [] fun _ _ found => by simp at found

theorem origins_concat (calls : List HandleCall) (call : HandleCall) :
    origins (calls ++ [call]) = addOrigin (origins calls) call :=
  List.foldl_append

end Origins

/-- What some calls tell about the `Ledger` after them. -/
structure Records (calls : List HandleCall) (ledger : Ledger) : Prop where
  /-- How many handles there are. -/
  size : ledger.handles.size = (origins calls).length
  /-- Every handle has a slot. -/
  inside : ∀ handle, handle < ledger.handles.size → ledger.slotOf handle < ledger.host.slots.size
  /-- The handles that share a slot are those that go back to one handle. -/
  shared : ∀ left right, left < ledger.handles.size → right < ledger.handles.size →
    (ledger.slotOf left = ledger.slotOf right ↔ (origins calls)[left]? = (origins calls)[right]?)
  /-- The handles that have a completer are those that go back to themselves and wait. -/
  held : ∀ handle, handle ∈ ledger.completers ↔
    (origins calls)[handle]? = some handle ∧ ledger.slot handle = .pending

section Records

variable {calls : List HandleCall} {ledger after : Ledger} {call : HandleCall}

theorem records_ofHost (host : Host) : Records [] (.ofHost host) where
  size := rfl
  inside _ less := absurd less (Nat.not_lt_zero _)
  shared _ _ less := absurd less (Nat.not_lt_zero _)
  held handle := by simp [ofHost, origins]

/-- A handle that was made goes back to one. -/
theorem Records.exists_origin (records : Records calls ledger) {handle : Nat}
    (inside : handle < ledger.handles.size) :
    ∃ origin, (origins calls)[handle]? = some origin :=
  ⟨_, List.getElem?_eq_getElem (records.size ▸ inside)⟩

/-- A handle that `origins` tells of is there. -/
theorem Records.lt_size (records : Records calls ledger) {handle origin : Nat}
    (told : (origins calls)[handle]? = some origin) : handle < ledger.handles.size := by
  rw [records.size]
  exact (List.getElem?_eq_some_iff.1 told).1

/-- A handle shares the slot of the one that it goes back to by `origins`. -/
theorem Records.slotOf_eq (records : Records calls ledger) {handle origin : Nat}
    (told : (origins calls)[handle]? = some origin) :
    ledger.slotOf handle = ledger.slotOf origin := by
  have first := closed_origins calls handle origin told
  rw [records.shared _ _ (records.lt_size told) (records.lt_size first), told, first]

theorem Records.slot_eq (records : Records calls ledger) {handle origin : Nat}
    (told : (origins calls)[handle]? = some origin) : ledger.slot handle = ledger.slot origin := by
  rw [slot, slot, records.slotOf_eq told]

/-- A handle that is made goes back to itself, or to one that is there. -/
theorem Records.of_push (records : Records calls ledger) {target origin : Nat}
    (origins_eq : origins (calls ++ [call]) = origins calls ++ [origin])
    (handles : after.handles = ledger.handles.push target)
    (slots : ∀ number, number < ledger.host.slots.size →
      number < after.host.slots.size ∧ after.host.slot number = ledger.host.slot number)
    (inside : target < after.host.slots.size)
    (shared : ∀ handle, handle < ledger.handles.size →
      (target = ledger.slotOf handle ↔ some origin = (origins calls)[handle]?))
    (held : ∀ handle, handle ∈ after.completers ↔ handle ∈ ledger.completers ∨
      handle = ledger.handles.size ∧ origin = handle ∧ after.host.slot target = .pending) :
    Records (calls ++ [call]) after := by
  have sizes : after.handles.size = ledger.handles.size + 1 := by rw [handles, Array.size_push]
  have old := fun handle (less : handle < ledger.handles.size) =>
    slotOf_of_handles_push handles less
  have new := slotOf_size_of_handles_push handles
  have told : ∀ handle, handle < ledger.handles.size →
      (origins (calls ++ [call]))[handle]? = (origins calls)[handle]? := by
    intro handle less
    rw [origins_eq, List.getElem?_append_left (records.size ▸ less)]
  have last : (origins (calls ++ [call]))[ledger.handles.size]? = some origin := by
    rw [origins_eq, records.size, List.getElem?_concat_length]
  constructor
  · rw [sizes, origins_eq, List.length_append, records.size, List.length_singleton]
  · intro handle less
    rcases Nat.lt_succ_iff_lt_or_eq.1 (sizes ▸ less) with earlier | rfl
    · rw [old handle earlier]
      exact (slots _ (records.inside handle earlier)).1
    · rw [new]
      exact inside
  · intro left right leftLess rightLess
    rcases Nat.lt_succ_iff_lt_or_eq.1 (sizes ▸ leftLess) with leftEarlier | rfl <;>
      rcases Nat.lt_succ_iff_lt_or_eq.1 (sizes ▸ rightLess) with rightEarlier | rfl
    · rw [old left leftEarlier, old right rightEarlier, told left leftEarlier,
        told right rightEarlier]
      exact records.shared left right leftEarlier rightEarlier
    · rw [old left leftEarlier, new, told left leftEarlier, last, eq_comm, shared left leftEarlier,
        eq_comm]
    · rw [old right rightEarlier, new, told right rightEarlier, last, shared right rightEarlier]
    · rw [eq_self, eq_self]
  · intro handle
    rw [held, records.held]
    rcases Nat.lt_trichotomy handle ledger.handles.size with less | rfl | more
    · have content : after.slot handle = ledger.slot handle := by
        rw [Ledger.slot, Ledger.slot, old handle less]
        exact (slots _ (records.inside handle less)).2
      simp [told handle less, content, Nat.ne_of_lt less]
    · have unknown : (origins calls)[ledger.handles.size]? = none := by simp [records.size]
      simp [unknown, last, Ledger.slot, new]
    · have unknown : (origins calls)[handle]? = none := by
        rw [List.getElem?_eq_none_iff, ← records.size]
        exact Nat.le_of_lt more
      have beyond : (origins (calls ++ [call]))[handle]? = none := by
        rw [List.getElem?_eq_none_iff, origins_eq, List.length_append, ← records.size]
        exact more
      simp [unknown, beyond, Nat.ne_of_gt more]

/-- A handle that is made for a new slot goes back to itself. -/
theorem Records.opened (records : Records calls ledger) {content : Slot}
    (opens : call.opens? = some content)
    (slots : after.host.slots = ledger.host.slots.push content)
    (handles : after.handles = ledger.handles.push ledger.host.slots.size)
    (completers : ∀ handle, handle ∈ after.completers ↔
      handle ∈ ledger.completers ∨ handle = ledger.handles.size ∧ content = .pending) :
    Records (calls ++ [call]) after := by
  have made : origins (calls ++ [call]) = origins calls ++ [(origins calls).length] := by
    rw [origins_concat]
    cases call with
    | channel | ready => rfl
    | clone | complete | drop => cases opens
  have contents := host_slot_of_slots_push slots
  refine records.of_push made handles ?_ ?_ ?_ ?_
  · intro number less
    rw [contents, if_neg (Nat.ne_of_lt less), slots, Array.size_push]
    exact ⟨Nat.lt_succ_of_lt less, rfl⟩
  · simp [slots]
  · intro handle less
    have apart := Nat.ne_of_gt (records.inside handle less)
    refine iff_of_false apart fun told => ?_
    have inside := records.lt_size (closed_origins calls handle _ told.symm)
    rw [records.size] at inside
    exact Nat.lt_irrefl _ inside
  · intro handle
    rw [completers, contents, if_pos rfl, ← records.size]
    constructor
    · rintro (before | ⟨rfl, pending⟩)
      · exact .inl before
      · exact .inr ⟨rfl, rfl, pending⟩
    · rintro (before | ⟨rfl, _, pending⟩)
      · exact .inl before
      · exact .inr ⟨rfl, pending⟩

/-- A handle that is copied goes back to what the copied one goes back to. -/
theorem Records.cloned (records : Records calls ledger) {source : Nat}
    (inside : source < ledger.handles.size) (slots : after.host.slots = ledger.host.slots)
    (handles : after.handles = ledger.handles.push (ledger.slotOf source))
    (completers : after.completers = ledger.completers) :
    Records (calls ++ [.clone source]) after := by
  obtain ⟨origin, told⟩ := records.exists_origin inside
  have made : origins (calls ++ [.clone source]) = origins calls ++ [origin] := by
    rw [origins_concat, HandleCall.addOrigin, told, Option.getD_some]
  refine records.of_push made handles ?_ ?_ ?_ ?_
  · intro number less
    rw [Host.slot, Host.slot, slots]
    exact ⟨less, rfl⟩
  · rw [slots]
    exact records.inside source inside
  · intro handle less
    rw [records.shared source handle inside less, told]
  · intro handle
    rw [completers]
    -- The handle that the copied one goes back to was there before.
    have earlier := records.lt_size (closed_origins calls source origin told)
    constructor
    · exact .inl
    · rintro (before | ⟨rfl, rfl, _⟩)
      · exact before
      · exact absurd earlier (Nat.lt_irrefl _)

/-- A handle whose completer has decided on its slot (`decides?`) waits no longer; for the others
nothing changes. -/
theorem Records.decided (records : Records calls ledger) {handle : Nat} {content : Slot}
    (held : handle ∈ ledger.completers) (decides : call.decides? = some (handle, content))
    (size : after.host.slots.size = ledger.host.slots.size)
    (filled : ledger.slot handle = .pending → after.host.slot (ledger.slotOf handle) = content)
    (kept : ∀ slot, slot ≠ ledger.slotOf handle ∨ ledger.host.slot slot ≠ .pending →
      after.host.slot slot = ledger.host.slot slot)
    (handles : after.handles = ledger.handles)
    (completers : ∀ other, other ∈ after.completers ↔ other ∈ ledger.completers ∧ other ≠ handle) :
    Records (calls ++ [call]) after := by
  have made : origins (calls ++ [call]) = origins calls :=
    (origins_concat calls call).trans (addOrigin_of_decides decides _)
  have settled := ne_pending_of_decides decides
  have same := fun handle (less : handle < ledger.handles.size) =>
    slotOf_of_handles_eq handles less
  obtain ⟨itself, waits⟩ := (records.held handle).1 held
  have there := records.lt_size itself
  constructor
  · rw [handles, made, records.size]
  · intro other less
    rw [handles] at less
    rw [same other less, size]
    exact records.inside other less
  · intro left right leftLess rightLess
    rw [handles] at leftLess rightLess
    rw [same left leftLess, same right rightLess, made]
    exact records.shared left right leftLess rightLess
  · intro other
    rw [completers, records.held, made, and_assoc]
    refine and_congr_right fun otherItself => ?_
    have otherThere := records.lt_size otherItself
    rw [slot, slot, same other otherThere]
    by_cases equal : other = handle
    · subst equal
      rw [filled waits]
      simp [settled]
    · have apart : ledger.slotOf other ≠ ledger.slotOf handle := by
        rw [Ne, records.shared _ _ otherThere there, otherItself, itself, Option.some.injEq]
        exact equal
      rw [kept _ (.inl apart)]
      simp [equal]

/-- What calls tell about a ledger (`Records`) they tell with one more call about the ledger after
it. -/
theorem Step.records (step : Step ledger after call) (fits : Fits ledger call)
    (records : Records calls ledger) : Records (calls ++ [call]) after := by
  cases step with
  | opened opens slots handles completers => exact records.opened opens slots handles completers
  | cloned slots handles completers => exact records.cloned (fits _ rfl) slots handles completers
  | decided held decides size filled kept handles completers =>
    exact records.decided held decides size filled kept handles completers
  | gone decides missing same =>
    have made := (origins_concat calls call).trans (addOrigin_of_decides decides _)
    subst same
    exact ⟨made ▸ records.size, records.inside, made ▸ records.shared, made ▸ records.held⟩

/-- What calls tell about a ledger (`Records`) they tell with more calls about the ledger after
these. -/
theorem Records.performAll (records : Records calls ledger) {later : List HandleCall}
    (fits : Each Fits ledger later) : Records (calls ++ later) (performAll later ledger) := by
  induction later generalizing calls ledger with
  | nil => rwa [List.append_nil]
  | cons call rest inductionHypothesis =>
    have next := (perform_step ledger call).records fits.1 records
    have whole := inductionHypothesis next fits.2
    rw [List.append_assoc] at whole
    exact whole

/-- A slot to which something has happened is the same through its handle after `performAll` of any
calls. -/
theorem Records.performAll_slot (records : Records calls ledger) (later : List HandleCall)
    {handle : Nat} (inside : handle < ledger.handles.size)
    (settled : ledger.slot handle ≠ .pending) :
    (HandleCall.performAll later ledger).slot handle = ledger.slot handle := by
  rw [slot, slot, performAll_slotOf later inside]
  exact performAll_slot_of_ne_pending later (records.inside handle inside) settled

/-- While its completer is there a slot waits, until a call decides on it (`decides?`). -/
theorem Step.decide (step : Step ledger after call) (records : Records calls ledger) {handle : Nat}
    (held : handle ∈ ledger.completers) :
    (∃ content, call.decides? = some (handle, content) ∧ after.slot handle = content) ∨
      (∀ content, call.decides? ≠ some (handle, content)) ∧ handle ∈ after.completers := by
  obtain ⟨itself, waits⟩ := (records.held handle).1 held
  cases step with
  | opened opens _ _ completers =>
    refine .inr ⟨fun content => ?_, (completers handle).2 (.inl held)⟩
    rw [decides?_of_opens opens]
    exact nofun
  | cloned _ _ completers => exact .inr ⟨fun _ => nofun, completers ▸ held⟩
  | @decided _ other content _ decides _ filled _ handles completers =>
    by_cases same : handle = other
    · subst same
      refine .inl ⟨content, decides, ?_⟩
      rw [slot, slotOf_of_handles_eq handles (records.lt_size itself)]
      exact filled waits
    · refine .inr ⟨fun content others => same ?_, (completers handle).2 ⟨held, same⟩⟩
      rw [decides] at others
      cases others
      rfl
  | @gone _ other content decides missing same =>
    refine .inr ⟨fun content others => missing ?_, same ▸ held⟩
    rw [decides] at others
    cases others
    exact held

/-- What becomes of a slot is the first of the `decisions` made through its completer. -/
theorem Records.slot_of_mem (records : Records calls ledger) {later : List HandleCall}
    (fits : Each Fits ledger later) {handle : Nat} (held : handle ∈ ledger.completers) :
    (HandleCall.performAll later ledger).slot handle =
      ((decisions later).lookup handle).getD .pending := by
  induction later generalizing calls ledger with
  | nil => exact ((records.held handle).1 held).2
  | cons call rest inductionHypothesis =>
    have step := perform_step ledger call
    have next := step.records fits.1 records
    change (HandleCall.performAll rest (perform ledger call)).slot handle = _
    rw [decisions, List.filterMap_cons]
    rcases step.decide records held with ⟨content, decides, settled⟩ | ⟨undecided, still⟩
    · have inside := (step.slotOf_eq (records.lt_size ((records.held handle).1 held).1)).1
      have final : (perform ledger call).slot handle ≠ .pending :=
        settled ▸ ne_pending_of_decides decides
      rw [next.performAll_slot rest inside final, settled, decides, List.lookup_cons_self]
      rfl
    · rw [inductionHypothesis next fits.2 still]
      cases decides : call.decides? with
      | none => rfl
      | some decision =>
        obtain ⟨other, content⟩ := decision
        have differ : handle ≠ other := by
          rintro rfl
          exact undecided content decides
        simp only [List.lookup_cons, beq_false_of_ne differ]
        rfl

/-- A handle is ready after a call if it was ready before, or if the call is to `complete` its slot
through the completer. -/
theorem Records.isReady_perform (records : Records calls ledger) (fits : Fits ledger call)
    {handle origin : Nat} (told : (origins calls)[handle]? = some origin) :
    ((perform ledger call).slot handle).isReady = true ↔ (ledger.slot handle).isReady = true ∨
      origin ∈ ledger.completers ∧ ∃ value, call = .complete origin value := by
  have step := perform_step ledger call
  have next := step.records fits records
  have inside := records.lt_size told
  have itself := closed_origins calls handle origin told
  have first := records.lt_size itself
  have moved : (perform ledger call).slot handle = (perform ledger call).slot origin := by
    rw [slot, slot, (step.slotOf_eq inside).2, (step.slotOf_eq first).2, records.slotOf_eq told]
  have unready : Slot.pending.isReady = false := rfl
  rw [moved, records.slot_eq told]
  by_cases held : origin ∈ ledger.completers
  · have waits := ((records.held origin).1 held).2
    rcases step.decide records held with ⟨content, decides, settled⟩ | ⟨undecided, still⟩
    · simp [settled, isReady_of_decides decides, waits, held, unready]
    · have pending := ((next.held origin).1 still).2
      have other : ¬ ∃ value, call = .complete origin value := by
        rintro ⟨value, rfl⟩
        exact undecided _ rfl
      simp [pending, waits, other, unready]
  · have settled : ledger.slot origin ≠ .pending :=
      fun waits => held ((records.held origin).2 ⟨itself, waits⟩)
    have same : (perform ledger call).slot origin = ledger.slot origin :=
      records.performAll_slot [call] first settled
    simp [same, held]

end Records

/-- A handle that others go back to by `origins` was made by a call for a new slot (`opens?`). -/
theorem exists_opens {calls : List HandleCall} {ledger : Ledger} (fits : Each Fits ledger calls)
    (records : Records [] ledger) {origin : Nat} (itself : (origins calls)[origin]? = some origin) :
    ∃ before call after content, calls = before ++ call :: after ∧
      origin = (origins before).length ∧ call.opens? = some content := by
  induction calls using List.reverseRecOn with
  | nil => simp [origins] at itself
  | append_singleton calls call inductionHypothesis =>
    obtain ⟨fitsBefore, fitsLast, -⟩ := each_append.1 fits
    have recordsBefore := records.performAll fitsBefore
    by_cases earlier : (origins calls)[origin]? = some origin
    · obtain ⟨before, first, after, content, rfl, isLength, opens⟩ :=
        inductionHypothesis fitsBefore earlier
      exact ⟨before, first, after ++ [call], content, by simp, isLength, opens⟩
    · rw [origins_concat] at itself
      have added : ∀ last, (origins calls ++ [last])[origin]? = some origin →
          origin = (origins calls).length ∧ last = origin := by
        intro last present
        rw [List.getElem?_append] at present
        split at present
        · exact absurd present earlier
        · rw [List.getElem?_singleton] at present
          split at present
          · exact ⟨by omega, Option.some.inj present⟩
          · cases present
      cases call with
      | channel => exact ⟨calls, .channel, [], _, rfl, (added _ itself).1, rfl⟩
      | ready value => exact ⟨calls, .ready value, [], _, rfl, (added _ itself).1, rfl⟩
      | clone source =>
        -- The copied handle goes back to one that was made before.
        obtain ⟨isLast, goesBack⟩ := added _ itself
        have inside := fitsLast source rfl
        rw [recordsBefore.size, List.nil_append] at inside
        rw [List.getElem?_eq_getElem inside, Option.getD_some] at goesBack
        have told := List.getElem?_eq_getElem inside
        rw [goesBack] at told
        exact absurd (closed_origins calls source origin told) earlier
      | complete | drop => exact absurd itself earlier

/-- What any `HandleCall`s come to. Handles share a slot exactly if they were copied from one
handle, and then wait for the same and are ready together. What is in the slot is what it was made
with, or what was first decided through its completer, which is there as long as nothing is. A
handle gets ready by a call that completes its slot and stays so, and no slot to which something has
happened is changed by anything. -/
theorem handle_history (host : Host) (calls : List HandleCall)
    (fits : Each Fits (.ofHost host) calls) :
    let ledger := performAll calls (.ofHost host)
    (∀ left right, left < ledger.handles.size → right < ledger.handles.size →
      (ledger.same left right = true ↔ (origins calls)[left]? = (origins calls)[right]?) ∧
      ((origins calls)[left]? = (origins calls)[right]? →
        ledger.host.wait (ledger.slotOf left) = ledger.host.wait (ledger.slotOf right) ∧
        (ledger.slot left).isReady = (ledger.slot right).isReady)) ∧
    (∀ handle, handle < ledger.handles.size → ∃ before call after, calls = before ++ call :: after ∧
      (origins calls)[handle]? = some (origins before).length ∧
      (call = .channel ∧
          ledger.slot handle =
            ((decisions after).lookup (origins before).length).getD .pending ∨
        ∃ value, call = .ready value ∧ ledger.slot handle = .ready value)) ∧
    (∀ handle, handle ∈ ledger.completers ↔
      (origins calls)[handle]? = some handle ∧ ledger.slot handle = .pending) ∧
    (∀ handle origin call, (origins calls)[handle]? = some origin → Fits ledger call →
      (((perform ledger call).slot handle).isReady = true ↔ (ledger.slot handle).isReady = true ∨
        origin ∈ ledger.completers ∧ ∃ value, call = .complete origin value)) ∧
    (∀ number, number < ledger.host.slots.size → ledger.host.slot number ≠ .pending → ∀ later,
      (performAll later ledger).host.slot number = ledger.host.slot number) := by
  intro ledger
  have start := records_ofHost host
  have records : Records calls ledger := start.performAll fits
  refine ⟨?_, ?_, records.held, ?_, ?_⟩
  · intro left right leftInside rightInside
    have shared := records.shared left right leftInside rightInside
    refine ⟨by rw [same, beq_iff_eq, shared], fun goBack => ?_⟩
    rw [slot, slot, shared.2 goBack]
    exact ⟨rfl, rfl⟩
  · intro handle inside
    obtain ⟨origin, told⟩ := records.exists_origin inside
    have itself := closed_origins calls handle origin told
    obtain ⟨before, call, after, content, rfl, rfl, opens⟩ := exists_opens fits start itself
    refine ⟨before, call, after, rfl, told, ?_⟩
    rw [records.slot_eq told]
    obtain ⟨fitsBefore, fitsCall, fitsAfter⟩ := each_append.1 fits
    have made := start.performAll fitsBefore
    have next := (perform_step (performAll before (.ofHost host)) call).records fitsCall made
    obtain ⟨inside, content⟩ := handle_of_opens (performAll before (.ofHost host)) opens
    rw [made.size, List.nil_append] at inside content
    have whole : ledger = performAll after (perform (performAll before (.ofHost host)) call) :=
      performAll_append before (call :: after) _
    rw [whole]
    cases call with
    | channel =>
      refine .inl ⟨rfl, next.slot_of_mem fitsAfter ?_⟩
      rw [← List.nil_append before, ← made.size]
      exact List.mem_cons_self
    | ready value =>
      cases opens
      have kept := next.performAll_slot after inside (Slot.ne_pending_of_ready content)
      exact .inr ⟨value, rfl, kept.trans content⟩
    | clone | complete | drop => cases opens
  · exact fun handle origin call told fitsCall => records.isReady_perform fitsCall told
  · exact fun number inside settled later => performAll_slot_of_ne_pending later inside settled

/-- A handle, a copy of it, and a handle for a value that is there: when the first was completed,
its completer going away and another value for it change nothing, and the copy has got the value. -/
theorem handle_history_copied :
    let calls : List HandleCall :=
      [.channel, .ready (.int 3), .clone 0, .complete 0 (.str "come"), .drop 0,
        .complete 0 (.int 4)]
    let ledger := performAll calls (.ofHost (.ofSchema []))
    Each Fits (.ofHost (.ofSchema [])) calls ∧ ledger.same 0 2 = true ∧ ledger.same 0 1 = false ∧
      ledger.slot 2 = .ready (.str "come") ∧
      ∀ later, (performAll later ledger).host.slot 0 = .ready (.str "come") := by
  intro calls ledger
  have fits : Each Fits (.ofHost (.ofSchema [])) calls := by
    have made :
        0 < (performAll [.channel, .ready (.int 3)] (.ofHost (.ofSchema []))).handles.size :=
      Nat.zero_lt_two
    simpa [calls, Each, Fits, performAll] using made
  obtain ⟨shared, -, -, -, kept⟩ := handle_history (.ofSchema []) calls fits
  refine ⟨fits, (shared 0 2 (by decide) (by decide)).1.2 rfl, ?_, rfl, fun later => ?_⟩
  · rw [← Bool.not_eq_true, (shared 0 1 (by decide) (by decide)).1]
    decide
  · exact kept 0 (by decide) (Slot.ne_pending_of_ready rfl) later

end HandleCall

end Mustache
