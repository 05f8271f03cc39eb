import Mustache.Host.Handle

/-!
# What a call does to handles

`HandleCall.Step` says all that a single call can do to a ledger: make a handle, for a new slot or
for one there is, or decide what becomes of a slot and use up its completer. `perform_step` shows
that no call does anything else, so no calls change a slot to which something has happened, or the
slot of a handle: `performAll_slot_of_ne_pending` and `performAll_slotOf`.
-/

namespace Mustache

namespace Slot

/-- A slot is filled or given up once: to `abandon` it after `fulfil` changes nothing. -/
theorem abandon_fulfil (value : Value) (slot : Slot) :
    (slot.fulfil value).abandon = slot.fulfil value := by
  cases slot <;> rfl

theorem fulfil_of_ne_pending {slot : Slot} (settled : slot ≠ .pending) (value : Value) :
    slot.fulfil value = slot := by
  cases slot with
  | pending => exact absurd rfl settled
  | ready | dropped => rfl

theorem abandon_of_ne_pending {slot : Slot} (settled : slot ≠ .pending) :
    slot.abandon = slot := by
  cases slot with
  | pending => exact absurd rfl settled
  | ready | dropped => rfl

/-- Nothing is open where there is a value. -/
theorem ne_pending_of_ready {slot : Slot} {value : Value} (filled : slot = .ready value) :
    slot ≠ .pending := by
  rw [filled]
  exact Slot.noConfusion

end Slot

/-- A call that uses the handles of a `Ledger`. -/
inductive HandleCall where
  /-- A handle for a value to come is made, with its completer. -/
  | channel
  /-- A handle for a value that is there is made. -/
  | ready (value : Value)
  /-- A handle is copied. -/
  | clone (handle : Nat)
  /-- The completer of a handle fills its slot. -/
  | complete (handle : Nat) (value : Value)
  /-- The completer of a handle goes away. -/
  | drop (handle : Nat)

namespace HandleCall

/-- The ledger after a call. -/
def perform (ledger : Ledger) : HandleCall → Ledger
  | .channel => ledger.channel.2
  | .ready value => (ledger.ready value).2
  | .clone handle => (ledger.clone handle).2
  | .complete handle value => (ledger.complete handle value).2
  | .drop handle => (ledger.drop handle).2

/-- The ledger after some calls. -/
def performAll (calls : List HandleCall) (ledger : Ledger) : Ledger :=
  calls.foldl perform ledger

/-- Something holds of every one of some calls and the ledger in which it is made. -/
def Each (holds : Ledger → HandleCall → Prop) : Ledger → List HandleCall → Prop
  | _, [] => True
  | ledger, call :: rest => holds ledger call ∧ Each holds (perform ledger call) rest

/-- What is in the slot that a call makes, if it makes one. -/
def opens? : HandleCall → Option Slot
  | .channel => some .pending
  | .ready value => some (.ready value)
  | .clone _ | .complete _ _ | .drop _ => none

/-- The handle whose slot a call decides on, and what is to become of it. -/
def decides? : HandleCall → Option (Nat × Slot)
  | .complete handle value => some (handle, .ready value)
  | .drop handle => some (handle, .dropped)
  | .channel | .ready _ | .clone _ => none

/-- A call that makes a slot (`opens?`) decides on none (`decides?`). -/
theorem decides?_of_opens {call : HandleCall} {content : Slot}
    (opens : call.opens? = some content) : call.decides? = none := by
  cases call with
  | channel | ready => rfl
  | clone | complete | drop => cases opens

/-- Nothing is left open by a call that decides on a slot (`decides?`). -/
theorem ne_pending_of_decides {call : HandleCall} {handle : Nat} {content : Slot}
    (decides : call.decides? = some (handle, content)) : content ≠ .pending := by
  cases call with
  | channel | ready | clone => cases decides
  | complete | drop =>
    cases decides
    exact Slot.noConfusion

/-- A slot is filled by `complete` and by no other call that decides on it. -/
theorem isReady_of_decides {call : HandleCall} {handle : Nat} {content : Slot}
    (decides : call.decides? = some (handle, content)) :
    content.isReady = true ↔ ∃ value, call = .complete handle value := by
  cases call with
  | channel | ready | clone => cases decides
  | complete other value =>
    cases decides
    exact iff_of_true rfl ⟨value, rfl⟩
  | drop other =>
    cases decides
    refine iff_of_false Bool.noConfusion ?_
    rintro ⟨value, same⟩
    cases same

theorem performAll_append (calls later : List HandleCall) (ledger : Ledger) :
    performAll (calls ++ later) ledger = performAll later (performAll calls ledger) :=
  List.foldl_append

theorem Each.imp {holds weaker : Ledger → HandleCall → Prop} {calls : List HandleCall}
    {ledger : Ledger} (each : Each holds ledger calls)
    (weaken : ∀ ledger call, holds ledger call → weaker ledger call) :
    Each weaker ledger calls := by
  induction calls generalizing ledger with
  | nil => trivial
  | cons call rest inductionHypothesis =>
    exact ⟨weaken ledger call each.1, inductionHypothesis each.2⟩

/-- What holds of `Each` of some calls holds of the first ones and, from there, of the others. -/
theorem each_append {holds : Ledger → HandleCall → Prop} {calls later : List HandleCall}
    {ledger : Ledger} : Each holds ledger (calls ++ later) ↔
      Each holds ledger calls ∧ Each holds (performAll calls ledger) later := by
  induction calls generalizing ledger with
  | nil => simp [Each, performAll]
  | cons call rest inductionHypothesis =>
    rw [List.cons_append, Each, inductionHypothesis, Each, and_assoc]
    rfl

end HandleCall

namespace Ledger

variable {ledger after : Ledger} {handle : Nat}

/-- Handles that are there keep their slots (`slotOf`) when one more is made. -/
theorem slotOf_of_handles_push {slot : Nat} (handles : after.handles = ledger.handles.push slot)
    (inside : handle < ledger.handles.size) : after.slotOf handle = ledger.slotOf handle := by
  simp [slotOf, handles, Array.getElem?_push, Nat.ne_of_lt inside,
    Array.getElem?_eq_getElem inside]

/-- The handle that is made has the slot that it is made for (`slotOf`). -/
theorem slotOf_size_of_handles_push {slot : Nat}
    (handles : after.handles = ledger.handles.push slot) :
    after.slotOf ledger.handles.size = slot := by
  simp [slotOf, handles]

/-- Handles keep their slots (`slotOf`) when none is made. -/
theorem slotOf_of_handles_eq (handles : after.handles = ledger.handles)
    (inside : handle < ledger.handles.size) : after.slotOf handle = ledger.slotOf handle := by
  simp [slotOf, handles, Array.getElem?_eq_getElem inside]

/-- What is in a slot after one more was made. -/
theorem host_slot_of_slots_push {content : Slot}
    (slots : after.host.slots = ledger.host.slots.push content) (number : Nat) :
    after.host.slot number =
      if number = ledger.host.slots.size then content else ledger.host.slot number := by
  rw [Host.slot, slots, Array.getElem?_push]
  split <;> rfl

/-- A change of slots that affects only those that nothing happened to yet, and puts something into
them. -/
structure Settles (change : Slot → Slot) (content : Slot) : Prop where
  /-- What it puts into a slot. -/
  pending : change .pending = content
  /-- Other slots stay as they are. -/
  settled : ∀ slot, slot ≠ .pending → change slot = slot

theorem settles_fulfil (value : Value) : Settles (Slot.fulfil value) (.ready value) :=
  ⟨rfl, fun _ settled => Slot.fulfil_of_ne_pending settled value⟩

theorem settles_abandon : Settles Slot.abandon .dropped :=
  ⟨rfl, fun _ settled => Slot.abandon_of_ne_pending settled⟩

/-- What is in a slot after the slot of a handle was changed. -/
theorem host_slot_modifySlot (ledger : Ledger) (handle : Nat) {change : Slot → Slot}
    {content : Slot} (settles : Settles change content) (number : Nat) :
    (ledger.modifySlot handle change).host.slot number =
      if number = ledger.slotOf handle then change (ledger.host.slot number)
      else ledger.host.slot number := by
  have missing : change .dropped = .dropped := settles.settled _ Slot.noConfusion
  simp only [modifySlot, Host.slot, Array.getElem?_modify, eq_comm (a := number)]
  split
  · cases ledger.host.slots[number]? with
    | none => exact missing.symm
    | some slot => rfl
  · rfl

/-- Changing the slot of a handle twice with `modifySlot` is changing it once by both changes. -/
theorem modifySlot_modifySlot (first second : Slot → Slot) :
    (ledger.modifySlot handle first).modifySlot handle second =
      ledger.modifySlot handle fun slot => second (first slot) := by
  have target : (ledger.modifySlot handle first).slotOf handle = ledger.slotOf handle := by
    simp [slotOf, modifySlot]
  rw [modifySlot, target]
  simp only [modifySlot]
  congr 2
  apply Array.ext_getElem?
  intro number
  rw [Array.getElem?_modify, Array.getElem?_modify, Array.getElem?_modify]
  split <;> simp [Function.comp_def]

/-- A completer that fills a slot with `complete` goes away, which does not undo it. -/
theorem complete_of_mem (held : handle ∈ ledger.completers) (value : Value) :
    (ledger.complete handle value).2 =
      (ledger.modifySlot handle (Slot.fulfil value)).withoutCompleter handle := by
  have still : (ledger.modifySlot handle (Slot.fulfil value)).completers.contains handle = true :=
    List.contains_iff_mem.2 held
  rw [complete, if_pos (List.contains_iff_mem.2 held), drop, if_pos still,
    modifySlot_modifySlot]
  simp only [Slot.abandon_fulfil]

theorem drop_of_mem (held : handle ∈ ledger.completers) :
    (ledger.drop handle).2 = (ledger.modifySlot handle Slot.abandon).withoutCompleter handle := by
  rw [drop, if_pos (List.contains_iff_mem.2 held)]

end Ledger

namespace HandleCall

open Ledger

/-- What a `HandleCall` does to a ledger. -/
inductive Step (ledger after : Ledger) : HandleCall → Prop where
  /-- A handle for a new slot is made; it has a completer if nothing is in the slot. -/
  | opened {call : HandleCall} {content : Slot} (opens : call.opens? = some content)
      (slots : after.host.slots = ledger.host.slots.push content)
      (handles : after.handles = ledger.handles.push ledger.host.slots.size)
      (completers : ∀ handle, handle ∈ after.completers ↔
        handle ∈ ledger.completers ∨ handle = ledger.handles.size ∧ content = .pending) :
      Step ledger after call
  /-- A handle for the slot of another one is made. -/
  | cloned {handle : Nat} (slots : after.host.slots = ledger.host.slots)
      (handles : after.handles = ledger.handles.push (ledger.slotOf handle))
      (completers : after.completers = ledger.completers) : Step ledger after (.clone handle)
  /-- A completer decides on its slot, if nothing happened to this yet, and goes away. -/
  | decided {call : HandleCall} {handle : Nat} {content : Slot}
      (held : handle ∈ ledger.completers) (decides : call.decides? = some (handle, content))
      (size : after.host.slots.size = ledger.host.slots.size)
      (filled : ledger.slot handle = .pending → after.host.slot (ledger.slotOf handle) = content)
      (kept : ∀ slot, slot ≠ ledger.slotOf handle ∨ ledger.host.slot slot ≠ .pending →
        after.host.slot slot = ledger.host.slot slot)
      (handles : after.handles = ledger.handles)
      (completers : ∀ other,
        other ∈ after.completers ↔ other ∈ ledger.completers ∧ other ≠ handle) :
      Step ledger after call
  /-- The completer has gone before. -/
  | gone {call : HandleCall} {handle : Nat} {content : Slot}
      (decides : call.decides? = some (handle, content)) (missing : handle ∉ ledger.completers)
      (same : after = ledger) : Step ledger after call

/-- Changing the slot of a completer and taking the completer away is deciding on the slot. -/
theorem step_of_settles {ledger : Ledger} {call : HandleCall} {handle : Nat} {content : Slot}
    (held : handle ∈ ledger.completers) (decides : call.decides? = some (handle, content))
    {change : Slot → Slot} (settles : Settles change content) :
    Step ledger ((ledger.modifySlot handle change).withoutCompleter handle) call := by
  have slots := ledger.host_slot_modifySlot handle settles
  refine .decided held decides Array.size_modify ?_ ?_ rfl ?_
  · intro pending
    rw [slot] at pending
    exact (slots _).trans (by rw [if_pos rfl, pending, settles.pending])
  · intro number other
    refine (slots number).trans ?_
    split
    · next same => exact settles.settled _ (other.resolve_left (absurd same))
    · rfl
  · intro other
    simp [withoutCompleter, modifySlot]

/-- No `HandleCall` does anything but a `Step`. -/
theorem perform_step (ledger : Ledger) (call : HandleCall) :
    Step ledger (perform ledger call) call := by
  cases call with
  | channel =>
    refine .opened rfl rfl rfl fun handle => ?_
    simp [perform, Ledger.channel, allocate, addHandle, or_comm]
  | ready value =>
    refine .opened rfl rfl rfl fun handle => ?_
    simp [perform, Ledger.ready, allocate, addHandle]
  | clone handle => exact .cloned rfl rfl rfl
  | complete handle value =>
    by_cases held : handle ∈ ledger.completers
    · rw [perform, complete_of_mem held]
      exact step_of_settles held rfl (settles_fulfil value)
    · refine .gone rfl held ?_
      rw [perform, Ledger.complete, if_neg (mt List.contains_iff_mem.1 held)]
  | drop handle =>
    by_cases held : handle ∈ ledger.completers
    · rw [perform, drop_of_mem held]
      exact step_of_settles held rfl settles_abandon
    · refine .gone rfl held ?_
      rw [perform, Ledger.drop, if_neg (mt List.contains_iff_mem.1 held)]

/-- The handle that is made for a new slot is the next one, and what the slot is made with is in
it. -/
theorem handle_of_opens (ledger : Ledger) {call : HandleCall} {content : Slot}
    (opens : call.opens? = some content) :
    ledger.handles.size < (perform ledger call).handles.size ∧
      (perform ledger call).slot ledger.handles.size = content := by
  have made : ∀ after : Ledger, after.host.slots = ledger.host.slots.push content →
      after.handles = ledger.handles.push ledger.host.slots.size →
      ledger.handles.size < after.handles.size ∧ after.slot ledger.handles.size = content := by
    intro after slots handles
    rw [slot, slotOf_size_of_handles_push handles, host_slot_of_slots_push slots, if_pos rfl,
      handles, Array.size_push]
    exact ⟨Nat.lt_succ_self _, rfl⟩
  cases call with
  | channel | ready =>
    cases opens
    exact made _ rfl rfl
  | clone | complete | drop => cases opens

section Histories

variable {ledger after : Ledger} {call : HandleCall}

/-- A `Step` does not change a slot to which something has happened. -/
theorem Step.slot_of_ne_pending (step : Step ledger after call) {number : Nat}
    (inside : number < ledger.host.slots.size) (settled : ledger.host.slot number ≠ .pending) :
    number < after.host.slots.size ∧ after.host.slot number = ledger.host.slot number := by
  cases step with
  | opened _ slots _ _ =>
    rw [host_slot_of_slots_push slots, if_neg (Nat.ne_of_lt inside), slots, Array.size_push]
    exact ⟨Nat.lt_succ_of_lt inside, rfl⟩
  | cloned slots _ _ =>
    rw [Host.slot, Host.slot, slots]
    exact ⟨inside, rfl⟩
  | decided _ _ size _ kept _ _ => exact ⟨size ▸ inside, kept number (.inr settled)⟩
  | gone _ _ same =>
    subst same
    exact ⟨inside, rfl⟩

/-- No calls that `performAll` makes change a slot to which something has happened. -/
theorem performAll_slot_of_ne_pending (later : List HandleCall) {number : Nat}
    (inside : number < ledger.host.slots.size) (settled : ledger.host.slot number ≠ .pending) :
    (performAll later ledger).host.slot number = ledger.host.slot number := by
  induction later generalizing ledger with
  | nil => rfl
  | cons call rest inductionHypothesis =>
    obtain ⟨still, same⟩ := (perform_step ledger call).slot_of_ne_pending inside settled
    exact (inductionHypothesis still (same ▸ settled)).trans same

/-- A `Step` keeps the slots of handles (`slotOf`). -/
theorem Step.slotOf_eq (step : Step ledger after call) {handle : Nat}
    (inside : handle < ledger.handles.size) :
    handle < after.handles.size ∧ after.slotOf handle = ledger.slotOf handle := by
  cases step with
  | opened _ _ handles _ | cloned _ handles _ =>
    refine ⟨?_, slotOf_of_handles_push handles inside⟩
    rw [handles, Array.size_push]
    exact Nat.lt_succ_of_lt inside
  | decided _ _ _ _ _ handles _ =>
    exact ⟨handles ▸ inside, slotOf_of_handles_eq handles inside⟩
  | gone _ _ same =>
    subst same
    exact ⟨inside, rfl⟩

/-- Calls that `performAll` makes keep the slots of handles (`slotOf`). -/
theorem performAll_slotOf (later : List HandleCall) {handle : Nat}
    (inside : handle < ledger.handles.size) :
    (performAll later ledger).slotOf handle = ledger.slotOf handle := by
  induction later generalizing ledger with
  | nil => rfl
  | cons call rest inductionHypothesis =>
    obtain ⟨still, same⟩ := (perform_step ledger call).slotOf_eq inside
    exact (inductionHypothesis still).trans same

end Histories

end HandleCall

end Mustache
