import Mustache.Proofs.Program.Lowering
import Mathlib.Algebra.BigOperators.Group.List.Basic
import Mathlib.Algebra.Order.Ring.Int

/-!
# Balanced instructions

A sequence of instructions is balanced if its blocks nest: it is built from nothing by putting in
front an instruction that is about no block, or a block with a balanced body. These are the
sequences that routines are laid out as. Two instructions are partners if the one opens a block, the
other closes one, and what stands between them is balanced; in a balanced sequence every instruction
that opens or closes a block has a partner.
-/

namespace Mustache

namespace Instruction

/-- Whether an instruction neither opens nor closes a block. -/
def IsPlain : Instruction → Prop
  | .openBlock _ _ | .closeBlock => False
  | .literal _ | .interpolation _ _ | .partialCall _ => True

/-- Sequences of instructions whose blocks nest. -/
inductive Balanced : List Instruction → Prop where
  /-- Nothing is balanced. -/
  | nil : Balanced []
  /-- An instruction that is about no block may stand in front. -/
  | plain {instruction : Instruction} {rest : List Instruction} (isPlain : instruction.IsPlain)
      (balanced : Balanced rest) : Balanced (instruction :: rest)
  /-- A block may stand in front. -/
  | block {kind : BlockKind} {path : String} {body rest : List Instruction}
      (inner : Balanced body) (balanced : Balanced rest) :
      Balanced (.openBlock kind path :: (body ++ .closeBlock :: rest))

/-- By how much an instruction changes the number of blocks that are open. -/
def rise : Instruction → Int
  | .openBlock _ _ => 1
  | .closeBlock => -1
  | .literal _ | .interpolation _ _ | .partialCall _ => 0

/-- By how much instructions change the number of blocks that are open, the sum of what each does
(`rise`). -/
def totalRise (instructions : List Instruction) : Int :=
  (instructions.map rise).sum

@[simp] theorem totalRise_nil : totalRise [] = 0 := rfl

@[simp] theorem totalRise_cons (instruction : Instruction) (rest : List Instruction) :
    totalRise (instruction :: rest) = instruction.rise + totalRise rest := by
  simp [totalRise]

@[simp] theorem totalRise_append (first second : List Instruction) :
    totalRise (first ++ second) = totalRise first + totalRise second := by
  simp [totalRise]

theorem IsPlain.rise_eq {instruction : Instruction} (isPlain : instruction.IsPlain) :
    instruction.rise = 0 := by
  cases instruction <;> simp_all [IsPlain, rise]

namespace Balanced

variable {first second instructions : List Instruction}

/-- Sequences that are `Balanced` may follow each other. -/
theorem append (balanced : Balanced first) (following : Balanced second) :
    Balanced (first ++ second) := by
  induction balanced with
  | nil => exact following
  | plain isPlain _ inductionHypothesis => exact .plain isPlain inductionHypothesis
  | block inner _ _ inductionHypothesis =>
    simpa using Balanced.block inner inductionHypothesis

/-- The layout `Routine.flatten` of a routine is `Balanced`. -/
theorem flatten (routine : Routine) : Balanced routine.flatten := by
  induction routine with
  | done => exact .nil
  | literal _ _ inductionHypothesis | interpolation _ _ _ inductionHypothesis
  | partialCall _ _ inductionHypothesis =>
    exact .plain trivial inductionHypothesis
  | block kind path body next bodyHypothesis nextHypothesis =>
    exact .block bodyHypothesis nextHypothesis

/-- What is `Balanced` is the layout of a `Routine`. -/
theorem exists_routine (balanced : Balanced instructions) :
    ∃ routine : Routine, routine.flatten = instructions := by
  induction balanced with
  | nil => exact ⟨.done, rfl⟩
  | @plain instruction rest isPlain _ inductionHypothesis =>
    obtain ⟨next, rfl⟩ := inductionHypothesis
    cases instruction with
    | literal text => exact ⟨.literal text next, rfl⟩
    | interpolation path escaped => exact ⟨.interpolation path escaped next, rfl⟩
    | partialCall name => exact ⟨.partialCall name next, rfl⟩
    | openBlock | closeBlock => exact isPlain.elim
  | @block kind path _ _ _ _ bodyHypothesis nextHypothesis =>
    obtain ⟨body, rfl⟩ := bodyHypothesis
    obtain ⟨next, rfl⟩ := nextHypothesis
    exact ⟨.block kind path body next, rfl⟩

/-- After a `Balanced` sequence as many blocks are open as before it. -/
theorem totalRise_eq (balanced : Balanced instructions) : totalRise instructions = 0 := by
  induction balanced with
  | nil => rfl
  | plain isPlain _ inductionHypothesis => simp [isPlain.rise_eq, inductionHypothesis]
  | block _ _ bodyHypothesis restHypothesis =>
    simp [rise, bodyHypothesis, restHypothesis]

/-- No part in front of a `Balanced` sequence closes a block that it did not open. -/
theorem totalRise_nonneg (balanced : Balanced instructions) (isPrefix : first <+: instructions) :
    0 ≤ totalRise first := by
  induction balanced generalizing first with
  | nil => simp [List.prefix_nil.1 isPrefix]
  | plain isPlain _ inductionHypothesis =>
    obtain rfl | ⟨rest, rfl, shorter⟩ := List.prefix_cons_iff.1 isPrefix
    · simp
    · simpa [isPlain.rise_eq] using inductionHypothesis shorter
  | @block _ _ body _ inner _ bodyHypothesis restHypothesis =>
    obtain rfl | ⟨rest, rfl, shorter⟩ := List.prefix_cons_iff.1 isPrefix
    · simp
    -- The part ends in the body, right behind it, or behind the end of the block.
    obtain inBody | ⟨rest, rfl⟩ :=
      List.prefix_or_prefix_of_prefix shorter (List.prefix_append body _)
    · have := bodyHypothesis inBody
      simp [rise]
      omega
    · have beyond := (List.prefix_append_right_inj body).1 shorter
      obtain rfl | ⟨rest, rfl, further⟩ := List.prefix_cons_iff.1 beyond
      · simp [rise, inner.totalRise_eq]
      · simpa [rise, inner.totalRise_eq] using restHypothesis further

/-- Behind a `Balanced` part of it, a balanced sequence does not close a block. -/
theorem ne_append_closeBlock (balanced : Balanced instructions) (inner : Balanced first)
    (rest : List Instruction) : instructions ≠ first ++ .closeBlock :: rest := by
  rintro rfl
  have closes : first ++ [.closeBlock] <+: first ++ .closeBlock :: rest := ⟨rest, by simp⟩
  have := balanced.totalRise_nonneg closes
  simp [rise, inner.totalRise_eq] at this

/-- A `Balanced` body and the end of its block tell where the body ends. -/
theorem append_closeBlock_inj {rest otherRest : List Instruction} (balanced : Balanced first)
    (otherBalanced : Balanced second)
    (same : first ++ .closeBlock :: rest = second ++ .closeBlock :: otherRest) :
    first = second ∧ rest = otherRest := by
  obtain ⟨_ | ⟨next, more⟩, longer, tail⟩ | ⟨_ | ⟨next, more⟩, longer, tail⟩ :=
    List.append_eq_append_iff.1 same
  · simp_all
  · obtain ⟨rfl, _⟩ := List.cons.inj tail
    exact absurd longer (otherBalanced.ne_append_closeBlock balanced more)
  · simp_all
  · obtain ⟨rfl, _⟩ := List.cons.inj tail
    exact absurd longer (balanced.ne_append_closeBlock otherBalanced more)

end Balanced

/-- What stands behind an instruction. -/
theorem getElem?_behind (before : List Instruction) (instruction : Instruction)
    (after : List Instruction) (offset : Nat) :
    (before ++ instruction :: after)[before.length + 1 + offset]? = after[offset]? := by
  rw [Nat.add_assoc, List.getElem?_append_right (by omega), Nat.add_sub_cancel_left, Nat.add_comm,
    List.getElem?_cons_succ]

/-- Two instructions of a sequence of which the first opens the block that the second closes: what
is between them is `Balanced`. -/
structure Partners (instructions : List Instruction) (start stop : Nat) : Prop where
  /-- The first one opens a block. -/
  opens : ∃ kind path, instructions[start]? = some (.openBlock kind path)
  /-- The second one closes a block. -/
  closes : instructions[stop]? = some .closeBlock
  /-- They stand in this order. -/
  less : start < stop
  /-- What stands between them is balanced. -/
  between : Balanced ((instructions.take stop).drop (start + 1))

namespace Partners

variable {instructions : List Instruction} {start stop : Nat}

/-- A block with a balanced body has partners around it. -/
theorem of_block {body : List Instruction} (inner : Balanced body) (before : List Instruction)
    (kind : BlockKind) (path : String) (after : List Instruction) :
    Partners (before ++ .openBlock kind path :: (body ++ .closeBlock :: after)) before.length
      (before.length + 1 + body.length) where
  opens := ⟨kind, path, by simp⟩
  closes := by simp [getElem?_behind]
  less := by omega
  between := by
    rw [Nat.add_assoc, List.take_length_add_append, List.drop_length_add_append, Nat.add_comm 1]
    simpa using inner

/-- Instructions that are `Partners` are around a block with a balanced body. -/
theorem exists_block (partners : Partners instructions start stop) :
    ∃ (before : List Instruction) (kind : BlockKind) (path : String)
      (body after : List Instruction), Balanced body ∧
      instructions = before ++ .openBlock kind path :: (body ++ .closeBlock :: after) ∧
      before.length = start ∧ start + 1 + body.length = stop := by
  obtain ⟨⟨kind, path, opens⟩, closes, less, between⟩ := partners
  obtain ⟨startBound, opens⟩ := List.getElem?_eq_some_iff.1 opens
  obtain ⟨stopBound, closes⟩ := List.getElem?_eq_some_iff.1 closes
  refine ⟨instructions.take start, kind, path, (instructions.take stop).drop (start + 1),
    instructions.drop (stop + 1), between, ?_, ?_, ?_⟩
  · have split : instructions.take stop =
        instructions.take start ++ .openBlock kind path ::
          (instructions.take stop).drop (start + 1) := by
      conv_lhs => rw [← List.take_append_drop start (instructions.take stop)]
      rw [List.take_take, Nat.min_eq_left less.le, List.drop_eq_getElem_cons (by simp; omega)]
      simp [opens]
    calc instructions
        = instructions.take stop ++ instructions.drop stop := (List.take_append_drop _ _).symm
      _ = instructions.take stop ++ .closeBlock :: instructions.drop (stop + 1) := by
          rw [List.drop_eq_getElem_cons stopBound, closes]
      _ = (instructions.take start ++ .openBlock kind path ::
            (instructions.take stop).drop (start + 1)) ++
              .closeBlock :: instructions.drop (stop + 1) := congrArg (· ++ _) split
      _ = _ := by simp
  · simp
    omega
  · simp
    omega

/-- Instructions that are `Partners` are so wherever the sequence stands. -/
theorem shift (partners : Partners instructions start stop) (before : List Instruction) :
    Partners (before ++ instructions) (before.length + start) (before.length + stop) := by
  obtain ⟨first, kind, path, body, after, inner, rfl, rfl, rfl⟩ := partners.exists_block
  have shifted := of_block inner (before ++ first) kind path after
  simpa [Nat.add_assoc] using shifted

/-- Instructions that are `Partners` are so behind another instruction. -/
theorem behind (partners : Partners instructions start stop) (before : List Instruction)
    (instruction : Instruction) :
    Partners (before ++ instruction :: instructions) (before.length + 1 + start)
      (before.length + 1 + stop) := by
  simpa [Nat.add_assoc] using partners.shift (before ++ [instruction])

/-- Instructions that are `Partners` are so whatever comes after them. -/
theorem append (partners : Partners instructions start stop) (after : List Instruction) :
    Partners (instructions ++ after) start stop := by
  obtain ⟨first, kind, path, body, rest, inner, rfl, rfl, rfl⟩ := partners.exists_block
  have longer := of_block inner first kind path (rest ++ after)
  simpa using longer

end Partners

namespace Balanced

variable {instructions : List Instruction} {position : Nat}

/-- In a `Balanced` sequence every instruction that opens or closes a block has a partner. -/
theorem exists_partners (balanced : Balanced instructions) {instruction : Instruction}
    (present : instructions[position]? = some instruction) (notPlain : ¬ instruction.IsPlain) :
    ∃ start stop, Partners instructions start stop ∧ (position = start ∨ position = stop) := by
  induction balanced generalizing position with
  | nil => simp at present
  | @plain first rest isPlain _ inductionHypothesis =>
    cases position with
    | zero =>
      simp only [List.getElem?_cons_zero, Option.some.injEq] at present
      exact absurd (present ▸ isPlain) notPlain
    | succ position =>
      obtain ⟨start, stop, partners, isOne⟩ := inductionHypothesis (by simpa using present)
      exact ⟨_, _, partners.behind [] first, by simp; omega⟩
  | @block kind path body rest inner _ bodyHypothesis restHypothesis =>
    have around := Partners.of_block inner [] kind path rest
    obtain rfl | inBody | rfl | ⟨offset, rfl⟩ : position = 0 ∨ (0 < position ∧
        position < 1 + body.length) ∨ position = 1 + body.length ∨
        ∃ offset, position = body.length + 1 + offset + 1 := by
      by_cases behind : 1 + body.length < position
      · exact .inr (.inr (.inr ⟨position - body.length - 2, by omega⟩))
      · omega
    · exact ⟨_, _, around, .inl rfl⟩
    · obtain ⟨offset, rfl⟩ := Nat.exists_eq_add_of_le' inBody.1
      have within : body[offset]? = some instruction := by
        rw [← present, List.getElem?_cons_succ, List.getElem?_append_left (by omega)]
      obtain ⟨start, stop, partners, isOne⟩ := bodyHypothesis within
      exact ⟨_, _, (partners.append (.closeBlock :: rest)).behind [] _, by simp; omega⟩
    · exact ⟨_, _, around, .inr (by simp)⟩
    · have within : rest[offset]? = some instruction := by
        rw [← present, List.getElem?_cons_succ, getElem?_behind]
      obtain ⟨start, stop, partners, isOne⟩ := restHypothesis within
      exact ⟨_, _, (partners.behind body .closeBlock).behind [] _, by simp; omega⟩

/-- In a `Balanced` sequence every block that is opened is closed by its partner. -/
theorem exists_closing (balanced : Balanced instructions) {kind : BlockKind} {path : String}
    (opens : instructions[position]? = some (.openBlock kind path)) :
    ∃ stop, Partners instructions position stop := by
  obtain ⟨start, stop, partners, rfl | rfl⟩ := balanced.exists_partners opens id
  · exact ⟨stop, partners⟩
  · rw [partners.closes] at opens
    cases opens

/-- In a `Balanced` sequence every block that is closed was opened by its partner. -/
theorem exists_opening (balanced : Balanced instructions)
    (closes : instructions[position]? = some .closeBlock) :
    ∃ start, Partners instructions start position := by
  obtain ⟨start, stop, partners, rfl | rfl⟩ := balanced.exists_partners closes id
  · obtain ⟨kind, path, opens⟩ := partners.opens
    rw [closes] at opens
    cases opens
  · exact ⟨start, partners⟩

end Balanced

end Instruction

end Mustache
