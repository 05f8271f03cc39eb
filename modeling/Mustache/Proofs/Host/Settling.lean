import Mustache.Host.Basic
import Mathlib.Data.List.Perm.Subperm
import Mathlib.Data.List.Range

/-!
# Settling

What a value settles to. A way through slots that comes to an end never meets a slot twice, for
from each slot there is only one way on and it has only one length. So no way is longer than there
are slots, and `Host.settle` goes all of it: `settle_of_leads` and `settle_of_ends`.
-/

namespace Mustache

/-- A value that is not computed elsewhere. -/
def Value.IsConcrete (value : Value) : Prop :=
  ∀ slot, value ≠ .deferred slot

namespace Host

variable {host : Host}

/-- A value leads through a number of filled slots to a value that is not deferred. -/
inductive Leads (host : Host) : Nat → Value → Value → Prop where
  /-- A value that is not deferred leads to itself. -/
  | arrived {value : Value} (concrete : value.IsConcrete) : Leads host 0 value value
  /-- A filled slot leads to where its value leads. -/
  | waited {count slot : Nat} {next last : Value} (filled : host.slot slot = .ready next)
      (rest : Leads host count next last) : Leads host (count + 1) (.deferred slot) last

/-- From a value the way through slots ends after a number of them: at a value that is not deferred,
or at a slot that whoever was to fill it has given up. -/
inductive Ends (host : Host) : Nat → Value → Prop where
  /-- A value that is not deferred is the end. -/
  | arrived {value : Value} (concrete : value.IsConcrete) : Ends host 0 value
  /-- A slot that will not be filled is the last one. -/
  | dropped {slot : Nat} (present : host.slots[slot]? = some .dropped) :
      Ends host 1 (.deferred slot)
  /-- From a filled slot it goes on. -/
  | waited {count slot : Nat} {next : Value} (filled : host.slot slot = .ready next)
      (rest : Ends host count next) : Ends host (count + 1) (.deferred slot)

/-- A way that leads to a value ends there. -/
theorem Leads.ends {count : Nat} {value last : Value} (leads : host.Leads count value last) :
    host.Ends count value := by
  induction leads with
  | arrived concrete => exact .arrived concrete
  | waited filled _ inductionHypothesis => exact .waited filled inductionHypothesis

/-- What `Host.slot` finds in a slot that is there. -/
theorem slot_of_present {slot : Nat} {content : Slot} (present : host.slots[slot]? = some content) :
    host.slot slot = content := by
  rw [Host.slot, present]
  rfl

/-- From a value there is only one way to an end (`Host.Ends`). -/
theorem Ends.unique {left right : Nat} {value : Value} (first : host.Ends left value)
    (second : host.Ends right value) : left = right := by
  induction first generalizing right with
  | arrived concrete =>
    cases second with
    | arrived => rfl
    | dropped | waited => exact absurd rfl (concrete _)
  | dropped present =>
    cases second with
    | arrived concrete => exact absurd rfl (concrete _)
    | dropped => rfl
    | waited filled => cases (slot_of_present present).symm.trans filled
  | waited filled _ inductionHypothesis =>
    cases second with
    | arrived concrete => exact absurd rfl (concrete _)
    | dropped present => cases (slot_of_present present).symm.trans filled
    | waited otherFilled rest =>
      cases filled.symm.trans otherFilled
      exact congrArg (· + 1) (inductionHypothesis rest)

/-- A filled slot is one that there is. -/
theorem slot_lt_size {slot : Nat} {value : Value} (filled : host.slot slot = .ready value) :
    slot < host.slots.size := by
  unfold Host.slot at filled
  by_contra outside
  rw [Array.getElem?_eq_none (Nat.not_lt.1 outside)] at filled
  cases filled

/-- The slots on a way to an end (`Host.Ends`) are different ones, from each of which the way to the
end has another length. -/
theorem Ends.exists_slots {count : Nat} {value : Value} (ends : host.Ends count value) :
    ∃ slots : List Nat, slots.length = count ∧ slots.Nodup ∧ ∀ slot ∈ slots,
      slot < host.slots.size ∧ ∃ left ≤ count, host.Ends left (.deferred slot) := by
  induction ends with
  | arrived => exact ⟨[], rfl, List.nodup_nil, fun _ member => (List.not_mem_nil member).elim⟩
  | @dropped slot present =>
    obtain ⟨inside, _⟩ := Array.getElem?_eq_some_iff.1 present
    have alone : [slot].Nodup := List.nodup_cons.2 ⟨List.not_mem_nil, List.nodup_nil⟩
    refine ⟨[slot], rfl, alone, fun other member => ?_⟩
    obtain rfl := List.mem_singleton.1 member
    exact ⟨inside, 1, Nat.le_refl _, .dropped present⟩
  | @waited count slot next filled rest inductionHypothesis =>
    obtain ⟨slots, length, distinct, each⟩ := inductionHypothesis
    refine ⟨slot :: slots, congrArg (· + 1) length, List.nodup_cons.2 ⟨?_, distinct⟩, ?_⟩
    · intro member
      obtain ⟨_, left, bound, fromThere⟩ := each slot member
      have same := fromThere.unique (.waited filled rest)
      omega
    · intro other member
      rcases List.mem_cons.1 member with rfl | member
      · exact ⟨slot_lt_size filled, count + 1, Nat.le_refl _, .waited filled rest⟩
      · obtain ⟨inside, left, bound, fromThere⟩ := each other member
        exact ⟨inside, left, Nat.le_succ_of_le bound, fromThere⟩

/-- No way to an end (`Host.Ends`) is longer than there are slots. -/
theorem Ends.count_le {count : Nat} {value : Value} (ends : host.Ends count value) :
    count ≤ host.slots.size := by
  obtain ⟨slots, rfl, distinct, each⟩ := ends.exists_slots
  have inRange : slots ⊆ List.range host.slots.size :=
    fun slot member => List.mem_range.2 (each slot member).1
  exact (List.subperm_of_subset distinct inRange).length_le.trans_eq List.length_range

/-- A value settles by `settleWithin` within the length of its way. -/
theorem settleWithin_of_leads {count limit : Nat} {value last : Value}
    (leads : host.Leads count value last) (bound : count ≤ limit) :
    host.settleWithin limit value = .ok (some last) := by
  induction leads generalizing limit with
  | arrived concrete =>
    rw [settleWithin.eq_def]
    split
    · exact absurd rfl (concrete _)
    · rfl
  | waited filled _ inductionHypothesis =>
    cases limit with
    | zero => cases bound
    | succ limit =>
      rw [settleWithin, wait, filled]
      exact inductionHypothesis (Nat.le_of_succ_le_succ bound)

/-- A value settles by `settle` to where its way ends. -/
theorem settle_of_leads {count : Nat} {value last : Value} (leads : host.Leads count value last) :
    host.settle value = .ok (some last) :=
  settleWithin_of_leads leads leads.ends.count_le

/-- A value whose way ends within a number of slots settles within it (`settleWithin`). -/
theorem settleWithin_of_ends {count limit : Nat} {value : Value} (ends : host.Ends count value)
    (bound : count ≤ limit) : ∃ settled, host.settleWithin limit value = .ok settled := by
  induction ends generalizing limit with
  | arrived concrete => exact ⟨_, settleWithin_of_leads (.arrived concrete) bound⟩
  | dropped present =>
    cases limit with
    | zero => cases bound
    | succ limit =>
      rw [settleWithin, wait, slot_of_present present]
      exact ⟨none, rfl⟩
  | waited filled _ inductionHypothesis =>
    cases limit with
    | zero => cases bound
    | succ limit =>
      rw [settleWithin, wait, filled]
      exact inductionHypothesis (Nat.le_of_succ_le_succ bound)

/-- A value whose way ends settles by `settle`. -/
theorem settle_of_ends {count : Nat} {value : Value} (ends : host.Ends count value) :
    ∃ settled, host.settle value = .ok settled :=
  settleWithin_of_ends ends ends.count_le

/-- A value that is not deferred is what it settles to by `settle`. -/
theorem settle_of_isConcrete {value : Value} (concrete : value.IsConcrete) :
    host.settle value = .ok (some value) :=
  settle_of_leads (.arrived concrete)

/-- What a value settles to within a number of slots (`settleWithin`) is not deferred. -/
theorem isConcrete_of_settleWithin {count : Nat} {value last : Value}
    (settles : host.settleWithin count value = .ok (some last)) : last.IsConcrete := by
  fun_induction Host.settleWithin host count value with
  | case1 => cases settles
  | case2 => cases settles
  | case3 => cases settles
  | case4 number count next filled inductionHypothesis => exact inductionHypothesis settles
  | case5 count value notDeferred =>
    cases settles
    exact notDeferred

/-- What a value settles to by `settle` is not deferred. -/
theorem isConcrete_of_settle {value last : Value} (settles : host.settle value = .ok (some last)) :
    last.IsConcrete :=
  isConcrete_of_settleWithin settles

end Host

end Mustache
