import Mustache.Proofs.Host.Handles
import Mustache.Proofs.Host.Settling
import Mathlib.Logic.Relation
import Mathlib.Order.WellFounded

/-!
# Circles of slots

A slot may be filled with the value of another handle, and even with its own, so slots may lead to
each other in a circle, and then nothing that waits for one of them comes to an end. Values lead
into no circle if what follows them, `Host.Follows`, is well-founded; once nothing is pending these
are just the values that settle: `Host.settles_iff_acc`. One way to get a circle is there, filling a
slot with a value that leads to it: `HandleCall.wellFounded_performAll_iff`.
-/

namespace Mustache

namespace Host

variable {host after : Host} {value : Value}

/-- What the slot of a deferred value was filled with comes next after it (`Slot.ready`). -/
def Follows (host : Host) (next value : Value) : Prop :=
  ∃ slot, value = .deferred slot ∧ host.slot slot = .ready next

/-- A value leads to a slot, through others or at once. -/
def Reaches (host : Host) (value : Value) (slot : Nat) : Prop :=
  Relation.ReflTransGen (fun value next => host.Follows next value) value (.deferred slot)

/-- Settling a value with `settleWithin` comes to an end, within some number of slots. -/
def Settles (host : Host) (value : Value) : Prop :=
  ∃ settled, host.settle value = .ok settled

/-- If a value is deferred its slot is there. -/
def Knows (host : Host) (value : Value) : Prop :=
  ∀ slot, value = .deferred slot → slot < host.slots.size

/-- Slots are filled only with values whose slots are there. -/
def KnowsContents (host : Host) : Prop :=
  ∀ slot value, host.slot slot = .ready value → host.Knows value

/-- Only one value comes next after a value (`Host.Follows`). -/
theorem Follows.unique {left right : Value} (first : host.Follows left value)
    (second : host.Follows right value) : left = right := by
  obtain ⟨slot, rfl, filled⟩ := first
  obtain ⟨_, ⟨⟩, otherFilled⟩ := second
  cases filled.symm.trans otherFilled
  rfl

/-- Nothing follows a value that is not deferred (`Host.Follows`). -/
theorem acc_of_isConcrete (concrete : value.IsConcrete) : Acc host.Follows value := by
  refine .intro value ?_
  rintro next ⟨slot, deferred, _⟩
  exact absurd deferred (concrete slot)

/-- A value from which `Host.Follows` leads back to it leads into a circle. -/
theorem not_acc_of_transGen (circle : Relation.TransGen host.Follows value value) :
    ¬ Acc host.Follows value := by
  intro acc
  have whole := acc.transGen
  clear acc
  induction whole with
  | intro value _ inductionHypothesis => exact inductionHypothesis value circle circle

/-- Where no slot is filled there is no circle. -/
theorem wellFounded_of_unfilled (unfilled : ∀ slot value, host.slot slot ≠ .ready value) :
    WellFounded host.Follows := by
  refine ⟨fun value => .intro value ?_⟩
  rintro next ⟨slot, _, filled⟩
  exact absurd filled (unfilled slot next)

theorem wait_eq_some {slot : Nat} {next : Value} :
    host.wait slot = .ok (some next) ↔ host.slot slot = .ready next := by
  rw [wait]
  cases host.slot slot <;> simp

/-- A value that settles within some slots (`settleWithin`) leads into no circle. -/
theorem acc_of_settleWithin {count : Nat} {settled : Option Value}
    (settles : host.settleWithin count value = .ok settled) : Acc host.Follows value := by
  fun_induction settleWithin host count value with
  | case1 => cases settles
  | case2 => cases settles
  | case3 slot count nothing =>
    refine .intro _ ?_
    rintro next ⟨_, ⟨⟩, filled⟩
    rw [wait_eq_some.2 filled] at nothing
    cases nothing
  | case4 slot count next filled inductionHypothesis =>
    have first : host.Follows next (.deferred slot) := ⟨slot, rfl, wait_eq_some.1 filled⟩
    refine .intro _ fun other follows => ?_
    obtain rfl := follows.unique first
    exact inductionHypothesis settles
  | case5 count value notDeferred => exact acc_of_isConcrete notDeferred

/-- What a value settles to within some slots it settles to within more (`settleWithin`). -/
theorem settleWithin_mono {count limit : Nat} {settled : Option Value}
    (settles : host.settleWithin count value = .ok settled) (bound : count ≤ limit) :
    host.settleWithin limit value = .ok settled := by
  fun_induction settleWithin host count value generalizing limit with
  | case1 => cases settles
  | case2 => cases settles
  | case3 slot count nothing =>
    cases limit with
    | zero => cases bound
    | succ limit =>
      rw [settleWithin, nothing]
      exact settles
  | case4 slot count next filled inductionHypothesis =>
    cases limit with
    | zero => cases bound
    | succ limit =>
      rw [settleWithin, filled]
      exact inductionHypothesis settles (Nat.le_of_succ_le_succ bound)
  | case5 count value notDeferred =>
    rw [settleWithin_of_leads (.arrived notDeferred) (Nat.zero_le limit), settles]

/-- A slot that was given up is the end of a way: `settle` finds nothing there. -/
theorem settle_of_dropped {slot : Nat} (inside : slot < host.slots.size)
    (dropped : host.slot slot = .dropped) : host.settle (.deferred slot) = .ok none := by
  obtain ⟨size, isSize⟩ := Nat.exists_eq_add_one_of_ne_zero (Nat.ne_zero_of_lt inside)
  rw [settle, isSize, settleWithin, wait, dropped]

/-- Where no slot that is there is pending nothing is. -/
theorem slot_ne_pending (come : ∀ content ∈ host.slots, content ≠ .pending) (slot : Nat) :
    host.slot slot ≠ .pending := by
  rw [Host.slot]
  cases content : host.slots[slot]? with
  | none => exact Slot.noConfusion
  | some content => exact come _ (Array.mem_of_getElem? ‹_›)

section Come

variable (come : ∀ slot, host.slot slot ≠ .pending)

include come

/-- When nothing is pending, `wait`ing for a slot comes to an end. -/
theorem exists_wait (slot : Nat) : ∃ content, host.wait slot = .ok content := by
  unfold wait
  cases content : host.slot slot with
  | pending => exact absurd content (come slot)
  | ready value => exact ⟨some value, rfl⟩
  | dropped => exact ⟨none, rfl⟩

/-- When nothing is pending, only a circle is waited for without end (`Stall.circular`). -/
theorem settleWithin_eq_circular {count : Nat} {stall : Stall}
    (stalls : host.settleWithin count value = .error stall) : stall = .circular := by
  fun_induction settleWithin host count value with
  | case1 =>
    cases stalls
    rfl
  | case2 slot count _ stuck =>
    obtain ⟨content, ended⟩ := exists_wait come slot
    rw [ended] at stuck
    cases stuck
  | case3 => cases stalls
  | case4 slot count next filled inductionHypothesis => exact inductionHypothesis stalls
  | case5 => cases stalls

/-- When nothing is pending, the way through slots ends (`Host.Ends`) if it leads into no circle. -/
theorem exists_ends (contents : host.KnowsContents) (knows : host.Knows value)
    (acc : Acc host.Follows value) : ∃ count, host.Ends count value := by
  induction acc with
  | intro value _ inductionHypothesis =>
    by_cases deferred : ∃ slot, value = .deferred slot
    · obtain ⟨slot, rfl⟩ := deferred
      cases content : host.slot slot with
      | pending => exact absurd content (come slot)
      | dropped =>
        refine ⟨1, .dropped ?_⟩
        rw [Host.slot, Array.getElem?_eq_getElem (knows slot rfl)] at content
        rw [Array.getElem?_eq_getElem (knows slot rfl)]
        exact congrArg some content
      | ready next =>
        obtain ⟨count, rest⟩ :=
          inductionHypothesis next ⟨slot, rfl, content⟩ (contents slot next content)
        exact ⟨count + 1, .waited content rest⟩
    · exact ⟨0, .arrived fun slot same => deferred ⟨slot, same⟩⟩

/-- When nothing is pending, just those values settle (`Host.Settles`) that lead into no circle. -/
theorem settles_iff_acc (contents : host.KnowsContents) (knows : host.Knows value) :
    host.Settles value ↔ Acc host.Follows value := by
  constructor
  · rintro ⟨settled, settles⟩
    exact acc_of_settleWithin settles
  · intro acc
    obtain ⟨count, ends⟩ := exists_ends come contents knows acc
    exact settle_of_ends ends

/-- When nothing is pending, everything settles (`Host.Settles`) just if there is no circle. -/
theorem wellFounded_iff_settles (contents : host.KnowsContents) :
    WellFounded host.Follows ↔ ∀ value, host.Knows value → host.Settles value := by
  constructor
  · exact fun noCircles value knows =>
      (settles_iff_acc come contents knows).2 (noCircles.apply value)
  · refine fun settles => ⟨fun value => .intro value fun next follows => ?_⟩
    obtain ⟨slot, _, filled⟩ := follows
    have knows := contents slot next filled
    exact (settles_iff_acc come contents knows).1 (settles next knows)

/-- When nothing is pending, a value `Settles` or waits without end, however many slots it is waited
for. -/
theorem settles_or_circular (contents : host.KnowsContents) (knows : host.Knows value) :
    host.Settles value ∨ ∀ count, host.settleWithin count value = .error .circular := by
  rw [settles_iff_acc come contents knows]
  by_cases acc : Acc host.Follows value
  · exact .inl acc
  · refine .inr fun count => ?_
    cases outcome : host.settleWithin count value with
    | ok settled => exact absurd (acc_of_settleWithin outcome) acc
    | error stall => rw [settleWithin_eq_circular come outcome]

/-- When nothing is pending, `settle` takes a deferred value to what its slot was filled with
settles to. -/
theorem settle_deferred (contents : host.KnowsContents) {slot : Nat} {next : Value}
    (filled : host.slot slot = .ready next) : host.settle (.deferred slot) = host.settle next := by
  obtain ⟨size, isSize⟩ :=
    Nat.exists_eq_add_one_of_ne_zero (Nat.ne_zero_of_lt (slot_lt_size filled))
  have onward : host.settle (.deferred slot) = host.settleWithin size next := by
    rw [settle, isSize, settleWithin, wait_eq_some.2 filled]
  have knows := contents slot next filled
  rcases settles_or_circular come contents knows with settles | circular
  · obtain ⟨count, rest⟩ :=
      exists_ends come contents knows ((settles_iff_acc come contents knows).1 settles)
    obtain ⟨settled, settles⟩ := settle_of_ends (.waited filled rest)
    rw [onward] at settles
    rw [onward, settles, settle, settleWithin_mono settles (isSize ▸ Nat.le_succ size)]
  · rw [onward, circular, settle, circular]

end Come

/-- A value whose slots are there leads only to slots that are there (`Host.Reaches`). -/
theorem Reaches.lt_size (contents : host.KnowsContents) (knows : host.Knows value) {slot : Nat}
    (reaches : host.Reaches value slot) : slot < host.slots.size := by
  have along : ∀ part,
      Relation.ReflTransGen (fun value next => host.Follows next value) value part →
        host.Knows part := by
    intro part reached
    induction reached with
    | refl => exact knows
    | tail _ follows =>
      obtain ⟨_, -, filled⟩ := follows
      exact contents _ _ filled
  exact along _ reaches slot rfl

/-- Filling a slot with a value that does not lead to it (`Host.Reaches`) makes no circle. -/
theorem wellFounded_of_filled (noCircles : WellFounded host.Follows) {slot : Nat}
    (apart : ¬ host.Reaches value slot) (filled : after.slot slot = .ready value)
    (kept : ∀ other, other ≠ slot → after.slot other = host.slot other) :
    WellFounded after.Follows := by
  have elsewhere : ∀ {part next}, part ≠ .deferred slot → after.Follows next part →
      host.Follows next part := by
    rintro _ next differ ⟨other, rfl, content⟩
    refine ⟨other, rfl, ?_⟩
    rw [← kept other fun same => differ (congrArg Value.deferred same)]
    exact content
  -- From the value one never gets to the slot, so its way is what it was.
  have fromValue : ∀ part, ¬ host.Reaches part slot → Acc after.Follows part := by
    intro part
    induction part using noCircles.induction with
    | _ part inductionHypothesis =>
      refine fun partApart => .intro part fun next follows => ?_
      have differ : part ≠ .deferred slot := by
        rintro rfl
        exact partApart .refl
      have before := elsewhere differ follows
      exact inductionHypothesis next before fun reaches => partApart (.head before reaches)
  have there : Acc after.Follows (.deferred slot) := by
    refine .intro _ fun next follows => ?_
    obtain rfl := follows.unique ⟨slot, rfl, filled⟩
    exact fromValue _ apart
  refine ⟨fun part => ?_⟩
  induction part using noCircles.induction with
  | _ part inductionHypothesis =>
    by_cases same : part = .deferred slot
    · exact same ▸ there
    · exact .intro part fun next follows => inductionHypothesis next (elsewhere same follows)

/-- Filling a slot with a value that leads to it (`Host.Reaches`) makes a circle, which further
filling does not undo. -/
theorem not_wellFounded_of_filled {slot : Nat} (reaches : host.Reaches value slot)
    (filled : after.slot slot = .ready value)
    (kept : ∀ other next, host.slot other = .ready next → after.slot other = .ready next) :
    ¬ WellFounded after.Follows := by
  have onward : Relation.ReflTransGen (fun value next => after.Follows next value) value
      (.deferred slot) := by
    refine Relation.ReflTransGen.mono ?_ _ _ reaches
    rintro _ next ⟨other, same, content⟩
    exact ⟨other, same, kept other next content⟩
  have circle : Relation.TransGen (fun value next => after.Follows next value) (.deferred slot)
      (.deferred slot) := .head' ⟨slot, rfl, filled⟩ onward
  exact fun noCircles => not_acc_of_transGen circle.swap (noCircles.apply _)

end Host

namespace HandleCall

open Ledger

/-- A call uses only handles and slots that are there. -/
def Known (ledger : Ledger) : HandleCall → Prop
  | .channel | .drop _ => True
  | .ready value | .complete _ value => ledger.host.Knows value
  | .clone handle => handle < ledger.handles.size

/-- A call fills a slot with a value that leads to it (`Reaches`). -/
def ClosesCircle (ledger : Ledger) : HandleCall → Prop
  | .complete handle value =>
    handle ∈ ledger.completers ∧ ledger.host.Reaches value (ledger.slotOf handle)
  | .channel | .ready _ | .clone _ | .drop _ => False

variable {calls later : List HandleCall} {ledger after : Ledger} {call : HandleCall}

theorem Known.fits (known : Known ledger call) : Fits ledger call := by
  rintro handle rfl
  exact known

/-- A call fills a slot that was not filled with a value that it is given. -/
structure Fills (ledger after : Ledger) (call : HandleCall) (slot : Nat) (value : Value) : Prop
    where
  /-- Now the slot is filled. -/
  filled : after.host.slot slot = .ready value
  /-- Nothing else changes. -/
  kept : ∀ other, other ≠ slot → after.host.slot other = ledger.host.slot other
  /-- The slot is a new one or has a completer. -/
  given : call = .ready value ∧ slot = ledger.host.slots.size ∨
    ∃ handle ∈ ledger.completers, call = .complete handle value ∧ slot = ledger.slotOf handle

/-- A step fills one slot or none. -/
theorem Step.fills (step : Step ledger after call) (records : Records calls ledger) :
    (∀ slot value, after.host.slot slot = .ready value → ledger.host.slot slot = .ready value) ∨
      ∃ slot value, Fills ledger after call slot value := by
  cases step with
  | opened opens slots _ _ =>
    have contents := host_slot_of_slots_push slots
    cases call with
    | channel =>
      cases opens
      refine .inl fun slot value filled => ?_
      rw [contents] at filled
      split at filled
      · cases filled
      · exact filled
    | ready value =>
      cases opens
      refine .inr ⟨ledger.host.slots.size, value, ?_, fun other differ => ?_, .inl ⟨rfl, rfl⟩⟩
      · rw [contents, if_pos rfl]
      · rw [contents, if_neg differ]
    | clone | complete | drop => cases opens
  | cloned slots _ _ =>
    refine .inl fun slot value filled => ?_
    rwa [Host.slot, slots] at filled
  | @decided _ handle content held decides _ filled kept _ _ =>
    have now := filled ((records.held handle).1 held).2
    cases call with
    | channel | ready | clone => cases decides
    | complete other value =>
      cases decides
      exact .inr ⟨ledger.slotOf handle, value, now, fun other differ => kept other (.inl differ),
        .inr ⟨handle, held, rfl, rfl⟩⟩
    | drop other =>
      cases decides
      refine .inl fun slot value filled => ?_
      by_cases same : slot = ledger.slotOf handle
      · rw [same, now] at filled
        cases filled
      · rwa [kept slot (.inl same)] at filled
  | gone _ _ same => exact .inl fun _ _ filled => same ▸ filled

/-- A `Step` takes no slot away. -/
theorem Step.size_le (step : Step ledger after call) :
    ledger.host.slots.size ≤ after.host.slots.size := by
  cases step with
  | opened _ slots _ _ => simp [slots]
  | cloned slots _ _ => rw [slots]
  | decided _ _ size _ _ _ _ => exact size.ge
  | gone _ _ same => rw [same]

/-- If a call uses only slots that are there then slots are still filled only with values whose
slots are there (`KnowsContents`). -/
theorem Step.knowsContents (step : Step ledger after call) (records : Records calls ledger)
    (known : Known ledger call) (contents : ledger.host.KnowsContents) :
    after.host.KnowsContents := by
  have wider : ∀ value, ledger.host.Knows value → after.host.Knows value :=
    fun value knows slot same => (knows slot same).trans_le step.size_le
  intro slot value filled
  apply wider
  obtain same | ⟨target, given, fills⟩ := step.fills records
  · exact contents slot value (same slot value filled)
  · by_cases equal : slot = target
    · subst equal
      cases filled.symm.trans fills.filled
      rcases fills.given with ⟨rfl, _⟩ | ⟨handle, _, rfl, _⟩ <;> exact known
    · rw [fills.kept slot equal] at filled
      exact contents slot value filled

/-- A `Step` that closes no circle (`ClosesCircle`) makes none. -/
theorem Step.wellFounded (step : Step ledger after call) (records : Records calls ledger)
    (known : Known ledger call) (contents : ledger.host.KnowsContents)
    (noCircles : WellFounded ledger.host.Follows) (closes : ¬ ClosesCircle ledger call) :
    WellFounded after.host.Follows := by
  obtain same | ⟨slot, value, fills⟩ := step.fills records
  · refine Subrelation.wf ?_ noCircles
    rintro next _ ⟨slot, rfl, filled⟩
    exact ⟨slot, rfl, same slot next filled⟩
  · refine Host.wellFounded_of_filled noCircles (fun reaches => ?_) fills.filled fills.kept
    rcases fills.given with ⟨rfl, rfl⟩ | ⟨handle, held, rfl, rfl⟩
    · exact Nat.lt_irrefl _ (reaches.lt_size contents known)
    · exact closes ⟨held, reaches⟩

/-- A circle that is closed stays: `performAll` of later calls does not open it. -/
theorem not_wellFounded_of_closesCircle (records : Records calls ledger)
    (fits : Fits ledger call) (closes : ClosesCircle ledger call) (later : List HandleCall) :
    ¬ WellFounded (performAll (call :: later) ledger).host.Follows := by
  cases call with
  | channel | ready | clone | drop => cases closes
  | complete handle value =>
    obtain ⟨held, reaches⟩ := closes
    have step := perform_step ledger (.complete handle value)
    have inside := records.lt_size ((records.held handle).1 held).1
    have now : (perform ledger (.complete handle value)).host.slot (ledger.slotOf handle) =
        .ready value := by
      obtain ⟨content, ⟨⟩, now⟩ | ⟨undecided, _⟩ := step.decide records held
      · rwa [slot, (step.slotOf_eq inside).2] at now
      · exact absurd rfl (undecided _)
    refine Host.not_wellFounded_of_filled reaches ?_ fun other next filled => ?_
    · have final := performAll_slot_of_ne_pending later (Host.slot_lt_size now)
        (Slot.ne_pending_of_ready now)
      exact final.trans now
    · have final := performAll_slot_of_ne_pending (.complete handle value :: later)
        (Host.slot_lt_size filled) (Slot.ne_pending_of_ready filled)
      exact final.trans filled

/-- What calls tell (`Records`) and that contents are known outlasts calls that use only what is
there. -/
theorem knowsContents_performAll (records : Records calls ledger)
    (contents : ledger.host.KnowsContents) (known : Each Known ledger later) :
    (performAll later ledger).host.KnowsContents := by
  induction later generalizing calls ledger with
  | nil => exact contents
  | cons call rest inductionHypothesis =>
    have step := perform_step ledger call
    exact inductionHypothesis (step.records known.1.fits records)
      (step.knowsContents records known.1 contents) known.2

/-- Calls make a circle just if one of them closes one (`ClosesCircle`). -/
theorem wellFounded_performAll_iff (records : Records calls ledger)
    (contents : ledger.host.KnowsContents) (noCircles : WellFounded ledger.host.Follows)
    (known : Each Known ledger later) :
    WellFounded (performAll later ledger).host.Follows ↔
      Each (fun ledger call => ¬ ClosesCircle ledger call) ledger later := by
  induction later generalizing calls ledger with
  | nil => exact iff_of_true noCircles trivial
  | cons call rest inductionHypothesis =>
    have step := perform_step ledger call
    by_cases closes : ClosesCircle ledger call
    · exact iff_of_false (not_wellFounded_of_closesCircle records known.1.fits closes rest)
        fun each => each.1 closes
    · have after := inductionHypothesis (step.records known.1.fits records)
        (step.knowsContents records known.1 contents)
        (step.wellFounded records known.1 contents noCircles closes) known.2
      exact after.trans (and_iff_right closes).symm

end HandleCall

end Mustache
