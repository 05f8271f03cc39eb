import Mustache.Host.Basic

/-!
# Handles

The life of values that are computed elsewhere. A handle gives access to a slot; a handle may
come with the completer of its slot, which fills it, once, or gives it up. Handles that are
copied share the slot but not the completer.
-/

namespace Mustache

namespace Slot

/-- A slot after a value came for it. Only the first thing that happens to a slot counts. -/
def fulfil (value : Value) : Slot → Slot
  | .pending => .ready value
  | settled => settled

/-- A slot after its completer went away. -/
def abandon : Slot → Slot
  | .pending => .dropped
  | settled => settled

/-- Whether a value has come. -/
def isReady : Slot → Bool
  | .ready _ => true
  | _ => false

end Slot

/-- A host whose slots are known through handles. -/
structure Ledger where
  /-- The host. -/
  host : Host
  /-- The slot of each handle. -/
  handles : Array Nat
  /-- The handles whose completer is still there. -/
  completers : List Nat
  deriving Inhabited

namespace Ledger

/-- A ledger without handles. -/
def ofHost (host : Host) : Ledger :=
  ⟨host, #[], []⟩

/-- A new handle for a slot. -/
def addHandle (ledger : Ledger) (slot : Nat) : Nat × Ledger :=
  (ledger.handles.size, { ledger with handles := ledger.handles.push slot })

/-- The slot of a handle. -/
def slotOf (ledger : Ledger) (handle : Nat) : Nat :=
  ledger.handles[handle]?.getD ledger.host.slots.size

/-- A new handle for a slot with some content. -/
def allocate (ledger : Ledger) (slot : Slot) : Nat × Ledger :=
  let (number, host) := ledger.host.addSlot slot
  { ledger with host := host }.addHandle number

/-- A handle for a value to come, with its completer. -/
def channel (ledger : Ledger) : Nat × Ledger :=
  let (handle, ledger) := ledger.allocate .pending
  (handle, { ledger with completers := handle :: ledger.completers })

/-- A handle for a value that is there. -/
def ready (ledger : Ledger) (value : Value) : Nat × Ledger :=
  ledger.allocate (.ready value)

/-- Another handle for the slot of a handle. -/
def clone (ledger : Ledger) (handle : Nat) : Nat × Ledger :=
  ledger.addHandle (ledger.slotOf handle)

/-- A ledger with the slot of a handle changed. -/
def modifySlot (ledger : Ledger) (handle : Nat) (change : Slot → Slot) : Ledger :=
  { ledger with
    host := { ledger.host with
      slots := ledger.host.slots.modify (ledger.slotOf handle) change } }

/-- A ledger in which a handle has no completer. -/
def withoutCompleter (ledger : Ledger) (handle : Nat) : Ledger :=
  { ledger with completers := ledger.completers.filter (· != handle) }

/-- Lets the completer of a handle go. The answer is whether there was one. -/
def drop (ledger : Ledger) (handle : Nat) : Bool × Ledger :=
  if ledger.completers.contains handle then
    (true, (ledger.modifySlot handle Slot.abandon).withoutCompleter handle)
  else (false, ledger)

/-- Lets the completer of a handle fill its slot and go. The answer is whether there was
one. -/
def complete (ledger : Ledger) (handle : Nat) (value : Value) : Bool × Ledger :=
  if ledger.completers.contains handle then
    (ledger.modifySlot handle (Slot.fulfil value)).drop handle
  else (false, ledger)

/-- Lets the completer of a handle fill its slot with the deferred value of another handle. -/
def completeWith (ledger : Ledger) (handle other : Nat) : Bool × Ledger :=
  ledger.complete handle (.deferred (ledger.slotOf other))

/-- What is in the slot of a handle. -/
def slot (ledger : Ledger) (handle : Nat) : Slot :=
  ledger.host.slot (ledger.slotOf handle)

/-- Whether two handles share a slot. -/
def same (ledger : Ledger) (left right : Nat) : Bool :=
  ledger.slotOf left == ledger.slotOf right

/-- The value that a handle stands for. -/
def value (ledger : Ledger) (handle : Nat) : Value :=
  .deferred (ledger.slotOf handle)

end Ledger

end Mustache
