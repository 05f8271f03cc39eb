import Mustache.Proofs.Program.Lowering

/-!
# Places in a routine

A context is a routine with a place in it for another one, inside any of its blocks. Wherever the
instructions of a routine are cut in two, the second part begins with a routine that stands in a
place of its own: `Routine.exists_fill_of_flatten`. So what is put there instead, if it is a routine
too, makes a program again.
-/

namespace Mustache

namespace Routine

/-- One routine and then another. -/
def append (routine last : Routine) : Routine :=
  match routine with
  | done => last
  | literal text next => literal text (next.append last)
  | interpolation path escaped next => interpolation path escaped (next.append last)
  | block kind path body next => block kind path body (next.append last)
  | partialCall name next => partialCall name (next.append last)

theorem append_assoc (first second last : Routine) :
    (first.append second).append last = first.append (second.append last) := by
  induction first with
  | done => rfl
  | literal _ _ inductionHypothesis | interpolation _ _ _ inductionHypothesis
  | partialCall _ _ inductionHypothesis =>
    exact congrArg _ inductionHypothesis
  | block kind path body next _ nextHypothesis => exact congrArg _ nextHypothesis

theorem flatten_append (routine last : Routine) :
    (routine.append last).flatten = routine.flatten ++ last.flatten := by
  induction routine with
  | done => rfl
  | literal _ _ inductionHypothesis | interpolation _ _ _ inductionHypothesis
  | partialCall _ _ inductionHypothesis =>
    exact congrArg _ inductionHypothesis
  | block kind path body next _ nextHypothesis =>
    rw [append, flatten, flatten, nextHypothesis]
    simp only [List.cons_append, List.append_assoc]

/-- A routine with a place in it for another one, after which only the blocks around the place go
on. -/
inductive Context where
  /-- The place comes after a routine. -/
  | after (first : Routine)
  /-- The place is inside of a block that comes after a routine. -/
  | inside (first : Routine) (kind : BlockKind) (path : String) (body : Context) (next : Routine)

namespace Context

/-- The routine with another one put in its place. -/
def fill (context : Context) (routine : Routine) : Routine :=
  match context with
  | after first => first.append routine
  | inside first kind path body next => first.append (.block kind path (body.fill routine) next)

/-- The instructions before the place. -/
def leading : Context → List Instruction
  | after first => first.flatten
  | inside first kind path body _ => first.flatten ++ .openBlock kind path :: body.leading

/-- The instructions after the place. -/
def trailing : Context → List Instruction
  | after _ => []
  | inside _ _ _ body next => body.trailing ++ .closeBlock :: next.flatten

theorem flatten_fill (context : Context) (routine : Routine) :
    (context.fill routine).flatten = context.leading ++ (routine.flatten ++ context.trailing) := by
  induction context with
  | after first => rw [fill, flatten_append, leading, trailing, List.append_nil]
  | inside first kind path body next inductionHypothesis =>
    rw [fill, flatten_append, flatten, inductionHypothesis, leading, trailing]
    simp only [List.cons_append, List.append_assoc]

/-- A context with a routine before it. -/
def precededBy (first : Routine) : Context → Context
  | after second => after (first.append second)
  | inside second kind path body next => inside (first.append second) kind path body next

theorem fill_precededBy (first : Routine) (context : Context) (routine : Routine) :
    (context.precededBy first).fill routine = first.append (context.fill routine) := by
  cases context <;> exact append_assoc _ _ _

theorem leading_precededBy (first : Routine) (context : Context) :
    (context.precededBy first).leading = first.flatten ++ context.leading := by
  cases context with
  | after second => exact flatten_append first second
  | inside second => rw [precededBy, leading, leading, flatten_append, List.append_assoc]

theorem trailing_precededBy (first : Routine) (context : Context) :
    (context.precededBy first).trailing = context.trailing := by
  cases context <;> rfl

/-- What is `trailing` in a place is nothing, or begins with the end of a block. -/
theorem head?_trailing (context : Context) :
    ∀ instruction ∈ context.trailing.head?, instruction = .closeBlock := by
  induction context with
  | after => exact fun _ present => nomatch present
  | inside first kind path body next inductionHypothesis =>
    intro instruction present
    rw [trailing, List.head?_append] at present
    cases start : body.trailing.head? with
    | none =>
      rw [start] at present
      cases present
      rfl
    | some other =>
      rw [start] at present
      cases present
      exact inductionHypothesis _ start

/-- What does not begin with the end of a block begins in the place. -/
theorem exists_cons_of_append {context : Context} {routine : Routine} {instruction : Instruction}
    {rest : List Instruction} (notEnd : instruction ≠ .closeBlock)
    (laidOut : instruction :: rest = routine.flatten ++ context.trailing) :
    ∃ further, routine.flatten = instruction :: further ∧ rest = further ++ context.trailing := by
  cases flattened : routine.flatten with
  | nil =>
    rw [flattened, List.nil_append] at laidOut
    refine absurd (context.head?_trailing instruction ?_) notEnd
    rw [← laidOut]
    rfl
  | cons first further =>
    rw [flattened, List.cons_append, List.cons.injEq] at laidOut
    obtain ⟨rfl, rfl⟩ := laidOut
    exact ⟨further, rfl, rfl⟩

end Context

/-- A place in what comes after a routine is a place in both together, which `Context.fill` fills
alike. -/
theorem exists_fill_append {routine : Routine} {before rest : List Instruction} (first : Routine)
    (placed : ∃ (context : Context) (inner : Routine), routine = context.fill inner ∧
      context.leading = before ∧ rest = inner.flatten ++ context.trailing) :
    ∃ (context : Context) (inner : Routine), first.append routine = context.fill inner ∧
      context.leading = first.flatten ++ before ∧ rest = inner.flatten ++ context.trailing := by
  obtain ⟨context, inner, rfl, rfl, rfl⟩ := placed
  refine ⟨context.precededBy first, inner, ?_, ?_, ?_⟩
  · exact (context.fill_precededBy first inner).symm
  · exact context.leading_precededBy first
  · rw [context.trailing_precededBy first]

/-- Wherever the instructions of a routine are cut in two, what comes first stands before a place in
it (`Context.leading`), and the rest begins with what is in this place. -/
theorem exists_fill_of_flatten {routine : Routine} {before rest : List Instruction}
    (laidOut : routine.flatten = before ++ rest) :
    ∃ (context : Context) (inner : Routine), routine = context.fill inner ∧
      context.leading = before ∧ rest = inner.flatten ++ context.trailing := by
  induction routine generalizing before rest with
  | done =>
    obtain ⟨rfl, rfl⟩ := List.append_eq_nil_iff.1 laidOut.symm
    exact ⟨.after .done, .done, rfl, rfl, rfl⟩
  | literal text next inductionHypothesis =>
    obtain ⟨rfl, rfl⟩ | ⟨before, rfl, cut⟩ := List.cons_eq_append_iff.1 laidOut
    · exact ⟨.after .done, .literal text next, rfl, rfl, (List.append_nil _).symm⟩
    · exact exists_fill_append (.literal text .done) (inductionHypothesis cut)
  | interpolation path escaped next inductionHypothesis =>
    obtain ⟨rfl, rfl⟩ | ⟨before, rfl, cut⟩ := List.cons_eq_append_iff.1 laidOut
    · exact ⟨.after .done, .interpolation path escaped next, rfl, rfl, (List.append_nil _).symm⟩
    · exact exists_fill_append (.interpolation path escaped .done) (inductionHypothesis cut)
  | partialCall name next inductionHypothesis =>
    obtain ⟨rfl, rfl⟩ | ⟨before, rfl, cut⟩ := List.cons_eq_append_iff.1 laidOut
    · exact ⟨.after .done, .partialCall name next, rfl, rfl, (List.append_nil _).symm⟩
    · exact exists_fill_append (.partialCall name .done) (inductionHypothesis cut)
  | block kind path body next bodyHypothesis nextHypothesis =>
    have inBody : ∀ {before further}, body.flatten = before ++ further →
        ∃ (context : Context) (inner : Routine),
          block kind path body next = context.fill inner ∧
          context.leading = .openBlock kind path :: before ∧
          further ++ .closeBlock :: next.flatten = inner.flatten ++ context.trailing := by
      intro before further within
      obtain ⟨context, inner, rfl, rfl, rfl⟩ := bodyHypothesis within
      exact ⟨.inside .done kind path context next, inner, rfl, rfl, List.append_assoc _ _ _⟩
    obtain ⟨rfl, rfl⟩ | ⟨before, rfl, cut⟩ := List.cons_eq_append_iff.1 laidOut
    · exact ⟨.after .done, .block kind path body next, rfl, rfl, (List.append_nil _).symm⟩
    -- The cut is behind the body, perhaps behind the end of the block too, or in the body.
    obtain ⟨further, rfl, behind⟩ | ⟨further, within, rfl⟩ := List.append_eq_append_iff.1 cut
    · obtain ⟨rfl, rfl⟩ | ⟨before, rfl, beyond⟩ := List.cons_eq_append_iff.1 behind
      · rw [List.append_nil]
        exact inBody (List.append_nil _).symm
      · have laidOut := exists_fill_append (.block kind path body .done) (nextHypothesis beyond)
        simpa [flatten, append] using laidOut
    · exact inBody within

end Routine

/-- Wherever the instructions of a program are cut in two before one that is not the end of a block,
this instruction begins a routine that stands in a place of its own (`Context.fill`). -/
theorem Program.exists_fill {program : Program} {before rest : List Instruction}
    {instruction : Instruction} (notEnd : instruction ≠ .closeBlock)
    (laidOut : program.instructions.toList = before ++ instruction :: rest) :
    ∃ (context : Routine.Context) (inner : Routine) (further : List Instruction),
      program.instructions.toList = (context.fill inner).flatten ∧ context.leading = before ∧
      inner.flatten = instruction :: further ∧ rest = further ++ context.trailing := by
  obtain ⟨routine, same⟩ := program.exists_routine
  obtain ⟨context, inner, rfl, leading, tail⟩ :=
    Routine.exists_fill_of_flatten (same.symm.trans laidOut)
  obtain ⟨further, starts, ends⟩ := Routine.Context.exists_cons_of_append notEnd tail
  exact ⟨context, inner, further, same, leading, starts, ends⟩

/-- A block of a program is a routine in a place of its own (`Context.fill`), as is its body. -/
theorem Program.exists_fill_block {program : Program} {kind : BlockKind} {path : String}
    {before body after : List Instruction}
    (laidOut : program.instructions.toList =
      before ++ .openBlock kind path :: (body ++ .closeBlock :: after))
    (ends : program.endOf? before.length = some (before.length + 1 + body.length)) :
    ∃ (context : Routine.Context) (inner next : Routine),
      program.instructions.toList = (context.fill (.block kind path inner next)).flatten ∧
      context.leading = before ∧ inner.flatten = body ∧
      after = next.flatten ++ context.trailing := by
  obtain ⟨context, placed, further, whole, rfl, starts, tail⟩ := exists_fill (by nofun) laidOut
  cases placed with
  | block otherKind otherPath inner next =>
    rw [Routine.flatten, List.cons.injEq, Instruction.openBlock.injEq] at starts
    obtain ⟨⟨rfl, rfl⟩, rfl⟩ := starts
    have stands : program.StandsAt context.leading.length
        (.openBlock otherKind otherPath :: (inner.flatten ++ .closeBlock :: next.flatten)) :=
      ⟨context.leading, context.trailing, whole.trans (context.flatten_fill _), rfl⟩
    rw [stands.endOf?_eq, Option.some.injEq, Nat.add_right_inj] at ends
    rw [List.append_assoc] at tail
    obtain ⟨rfl, behind⟩ := List.append_inj tail ends.symm
    rw [List.cons_append, List.cons.injEq] at behind
    exact ⟨context, inner, next, whole, rfl, rfl, behind.2⟩
  | done | literal | interpolation | partialCall => cases starts

namespace Instruction

/-- The blocks that are open after some instructions, innermost first, if `blocks` are open before
them. -/
def openAfter (blocks : List (BlockKind × String)) :
    List Instruction → List (BlockKind × String)
  | [] => blocks
  | .openBlock kind path :: rest => openAfter ((kind, path) :: blocks) rest
  | .closeBlock :: rest => openAfter blocks.tail rest
  | .literal _ :: rest | .interpolation _ _ :: rest | .partialCall _ :: rest =>
    openAfter blocks rest

/-- After a routine the same blocks are open (`openAfter`) as before it. -/
theorem openAfter_flatten_append (blocks : List (BlockKind × String)) (routine : Routine)
    (rest : List Instruction) :
    openAfter blocks (routine.flatten ++ rest) = openAfter blocks rest := by
  induction routine generalizing blocks rest with
  | done => rfl
  | literal _ _ inductionHypothesis | interpolation _ _ _ inductionHypothesis
  | partialCall _ _ inductionHypothesis =>
    exact inductionHypothesis blocks rest
  | block kind path body next bodyHypothesis nextHypothesis =>
    rw [Routine.flatten, List.cons_append, openAfter, List.append_assoc, bodyHypothesis,
      List.cons_append, openAfter, nextHypothesis, List.tail_cons]

end Instruction

end Mustache
