import Mustache.Proofs.Program.Balance
import Mathlib.Order.Bounds.Basic

/-!
# Matching blocks

Going through instructions, `Blocks.endsFrom` keeps the positions of the blocks that are open.
`Pending` says what this is worth: what has been passed is balanced around these positions. A block
that is closed then has the innermost of them for its partner, so all partners that are entered are
partners, and where matching fails it is for the first end without a partner, or else for the last
beginning without one. `Program.make_matches` puts this together.
-/

namespace Mustache

namespace Instruction

/-- An instruction that closes a block which nothing opened. -/
def Unopened (instructions : List Instruction) (stop : Nat) : Prop :=
  instructions[stop]? = some .closeBlock ∧ ∀ start, ¬ Partners instructions start stop

/-- An instruction that opens a block which nothing closes. -/
def Unclosed (instructions : List Instruction) (start : Nat) : Prop :=
  (∃ kind path, instructions[start]? = some (.openBlock kind path)) ∧
    ∀ stop, ¬ Partners instructions start stop

/-- Instructions after which the blocks at some positions are open, innermost first, and that are
otherwise balanced. -/
inductive Pending : List Instruction → List Nat → Prop where
  /-- No block is open. -/
  | closed {instructions : List Instruction} (balanced : Balanced instructions) :
      Pending instructions []
  /-- One more block has been opened, and what follows its beginning is balanced. -/
  | inside {outer inner : List Instruction} {enclosing : List Nat} (kind : BlockKind)
      (path : String) (around : Pending outer enclosing) (balanced : Balanced inner) :
      Pending (outer ++ .openBlock kind path :: inner) (outer.length :: enclosing)

namespace Pending

variable {instructions following : List Instruction} {openBlocks : List Nat} {start : Nat}

/-- What is balanced leaves the same blocks open. -/
theorem append (pending : Pending instructions openBlocks) (balanced : Balanced following) :
    Pending (instructions ++ following) openBlocks := by
  cases pending with
  | closed before => exact .closed (before.append balanced)
  | inside kind path around inner =>
    simpa using Pending.inside kind path around (inner.append balanced)

/-- The end of a block closes the innermost one that is `Pending` and is its partner. -/
theorem closeBlock (pending : Pending instructions (start :: openBlocks)) :
    Pending (instructions ++ [.closeBlock]) openBlocks ∧
      Partners (instructions ++ [.closeBlock]) start instructions.length := by
  cases pending with
  | @inside outer inner _ kind path around balanced =>
    constructor
    · simpa using around.append (@Balanced.block kind path _ _ balanced .nil)
    · simpa [Nat.add_assoc, Nat.add_comm 1] using Partners.of_block balanced outer kind path []

/-- What closes a block that is `Pending` has a partner. -/
theorem not_unopened (pending : Pending instructions openBlocks) (stop : Nat) :
    ¬ Unopened instructions stop := by
  rintro ⟨closes, alone⟩
  induction pending generalizing stop with
  | closed balanced =>
    obtain ⟨start, partners⟩ := balanced.exists_opening closes
    exact alone start partners
  | @inside outer inner _ kind path _ balanced inductionHypothesis =>
    obtain before | rfl | later := Nat.lt_trichotomy stop outer.length
    · rw [List.getElem?_append_left before] at closes
      exact inductionHypothesis stop closes fun start partners =>
        alone start (partners.append _)
    · simp at closes
    · obtain ⟨offset, rfl⟩ := Nat.exists_eq_add_of_le (Nat.succ_le_of_lt later)
      rw [getElem?_behind] at closes
      obtain ⟨start, partners⟩ := balanced.exists_opening closes
      exact alone _ (partners.behind outer _)

/-- The innermost block that is `Pending` is the last one that nothing closes (`Unclosed`). -/
theorem isGreatest_unclosed (pending : Pending instructions (start :: openBlocks)) :
    IsGreatest {start | Unclosed instructions start} start := by
  cases pending with
  | @inside outer inner _ kind path around balanced =>
    refine ⟨⟨⟨kind, path, by simp⟩, fun stop partners => ?_⟩, ?_⟩
    · obtain ⟨before, _, _, body, after, bodyBalanced, laidOut, sameLength, _⟩ :=
        partners.exists_block
      obtain ⟨_, same⟩ := List.append_inj laidOut sameLength.symm
      exact balanced.ne_append_closeBlock bodyBalanced after (List.cons.inj same).2
    · rintro later ⟨⟨otherKind, otherPath, opens⟩, alone⟩
      by_contra! less
      obtain ⟨offset, rfl⟩ := Nat.exists_eq_add_of_le (Nat.succ_le_of_lt less)
      rw [getElem?_behind] at opens
      obtain ⟨stop, partners⟩ := balanced.exists_closing opens
      exact alone _ (partners.behind outer _)

end Pending

/-- The end of a block behind what is `Balanced` is the first one without a partner (`Unopened`). -/
theorem Balanced.isLeast_unopened {before : List Instruction} (balanced : Balanced before)
    (after : List Instruction) :
    IsLeast {stop | Unopened (before ++ .closeBlock :: after) stop} before.length := by
  refine ⟨⟨by simp, fun start partners => ?_⟩, ?_⟩
  · obtain ⟨first, kind, path, body, _, bodyBalanced, laidOut, rfl, sameLength⟩ :=
      partners.exists_block
    -- What stands before the end would open one block more than it closes.
    rw [← List.cons_append, ← List.append_assoc] at laidOut
    obtain ⟨rfl, _⟩ := List.append_inj laidOut (by simp; omega)
    have rises := balanced.totalRise_eq
    have opensMore := balanced.totalRise_nonneg (List.prefix_append first _)
    simp [rise, bodyBalanced.totalRise_eq] at rises
    omega
  · rintro stop ⟨closes, alone⟩
    by_contra! less
    rw [List.getElem?_append_left less] at closes
    obtain ⟨start, partners⟩ := balanced.exists_opening closes
    exact alone start (partners.append _)

end Instruction

open Instruction

/-- What an error is about: the first instruction that closes a block which nothing opened, or, if
there is none, the last one that opens a block which nothing closes. -/
inductive BlockError.Blames (instructions : List Instruction) : BlockError → Prop where
  /-- The first end that nothing opened. -/
  | unopened {stop : Nat} (first : IsLeast {stop | Unopened instructions stop} stop) :
      Blames instructions (.closeWithoutOpen stop)
  /-- The last beginning that nothing closes. -/
  | unclosed {start : Nat} (opened : ∀ stop, ¬ Unopened instructions stop)
      (last : IsGreatest {start | Unclosed instructions start} start) :
      Blames instructions (.openWithoutClose start)

namespace BlockError.Blames

variable {instructions : List Instruction} {error other : BlockError}

/-- There is one instruction to blame. -/
theorem unique (blames : error.Blames instructions) (others : other.Blames instructions) :
    error = other := by
  cases blames with
  | unopened first =>
    cases others with
    | unopened otherFirst => rw [first.unique otherFirst]
    | unclosed opened => exact absurd first.1 (opened _)
  | unclosed opened last =>
    cases others with
    | unopened first => exact absurd first.1 (opened _)
    | unclosed _ otherLast => rw [last.unique otherLast]

/-- Where there is one to blame (`Blames`) the instructions are not balanced. -/
theorem not_balanced (blames : error.Blames instructions) : ¬ Balanced instructions := by
  intro balanced
  cases blames with
  | unopened first => exact (Pending.closed balanced).not_unopened _ first.1
  | unclosed _ last =>
    obtain ⟨⟨⟨kind, path, opens⟩, alone⟩, _⟩ := last
    obtain ⟨stop, partners⟩ := balanced.exists_closing opens
    exact alone stop partners

end BlockError.Blames

namespace Blocks

/-- All that is entered in a table of ends is `Partners`. -/
def Entered (instructions : List Instruction) (ends : Array (Option Nat)) : Prop :=
  ∀ start stop : Nat, ends[start]? = some (some stop) → Partners instructions start stop

/-- What has been `Entered` stays right when the instructions go on. -/
theorem Entered.append {instructions : List Instruction} {ends : Array (Option Nat)}
    (entered : Entered instructions ends) (following : List Instruction) :
    Entered (instructions ++ following) ends :=
  fun start stop present => (entered start stop present).append following

/-- Instructions that are `Partners` may be entered. -/
theorem Entered.setIfInBounds {instructions : List Instruction} {ends : Array (Option Nat)}
    {start stop : Nat} (entered : Entered instructions ends)
    (partners : Partners instructions start stop) :
    Entered instructions (ends.setIfInBounds start (some stop)) := by
  intro first last present
  rw [Array.getElem?_setIfInBounds] at present
  split at present
  · next same =>
    subst same
    split at present
    · cases present
      exact partners
    · cases present
  · exact entered first last present

/-- Going on with `endsFrom` from where some blocks are open, either everything is balanced in the
end and all that is entered is partners, or the error names the instruction to blame. -/
theorem endsFrom_spec {before rest : List Instruction} {openBlocks : List Nat}
    {ends : Array (Option Nat)} (pending : Pending before openBlocks)
    (entered : Entered before ends) :
    match endsFrom before.length openBlocks ends rest with
    | .ok after => Balanced (before ++ rest) ∧ Entered (before ++ rest) after
    | .error error => error.Blames (before ++ rest) := by
  induction rest generalizing before openBlocks ends with
  | nil =>
    rw [List.append_nil]
    cases openBlocks with
    | nil =>
      cases pending with
      | closed balanced => exact ⟨balanced, entered⟩
    | cons start enclosing =>
      exact .unclosed pending.not_unopened pending.isGreatest_unclosed
  | cons instruction rest inductionHypothesis =>
    have goesOn := @inductionHypothesis (before ++ [instruction])
    rw [List.append_assoc, List.singleton_append, List.length_append, List.length_singleton]
      at goesOn
    cases instruction with
    | openBlock kind path => exact goesOn (.inside kind path pending .nil) (entered.append _)
    | closeBlock =>
      cases openBlocks with
      | nil =>
        cases pending with
        | closed balanced => exact .unopened (balanced.isLeast_unopened rest)
      | cons start enclosing =>
        obtain ⟨closed, partners⟩ := pending.closeBlock
        exact goesOn closed ((entered.append _).setIfInBounds partners)
    | literal | interpolation | partialCall =>
      exact goesOn (pending.append (.plain trivial .nil)) (entered.append _)

/-- Matching with `ends` succeeds on balanced instructions and enters partners, and fails with the
instruction to blame. -/
theorem ends_spec (instructions : List Instruction) :
    match ends instructions with
    | .ok after => Balanced instructions ∧ Entered instructions after
    | .error error => error.Blames instructions := by
  have entered : Entered [] (Array.replicate instructions.length none) := by
    intro start stop present
    simp [Array.getElem?_replicate] at present
  exact endsFrom_spec (.closed .nil) entered

end Blocks

namespace Program

variable {instructions : List Instruction}

/-- Making a program with `make` fails exactly with what `Blocks.ends` fails with. -/
theorem make_eq_error_iff (error : CompileError) :
    make instructions = .error error ↔
      ∃ fault, Blocks.ends instructions = .error fault ∧ error = .unbalanced fault := by
  unfold make ofInstructions withHash
  split
  · next fault matched => simp [Except.mapError, matched, eq_comm]
  · next ends matched => simp [Except.mapError, matched]

/-- The instructions of which `make` makes a program are the `Balanced` ones. -/
theorem exists_make_iff_balanced :
    (∃ program, make instructions = .ok program) ↔ Balanced instructions := by
  constructor
  · rintro ⟨program, made⟩
    obtain ⟨routine, laidOut⟩ := program.exists_routine
    rw [← toList_instructions_of_make made, laidOut]
    exact .flatten routine
  · intro balanced
    obtain ⟨routine, rfl⟩ := balanced.exists_routine
    obtain ⟨program, made, _⟩ := exists_make_flatten routine
    exact ⟨program, made⟩

section

variable {program : Program} {start stop other otherStop : Nat}

/-- The instructions of a `Program` are `Balanced`. -/
theorem balanced (program : Program) : Balanced program.instructions.toList :=
  exists_make_iff_balanced.1 ⟨program, make_toList_instructions program⟩

/-- The end that `endOf?` knows of a block is the partner of its beginning (`Partners`). -/
theorem endOf?_eq_some_iff :
    program.endOf? start = some stop ↔ Partners program.instructions.toList start stop := by
  constructor
  · intro found
    have matched := Blocks.ends_spec program.instructions.toList
    rw [program.ends_eq] at matched
    exact matched.2 start stop (by simpa [endOf?, Option.join_eq_some_iff] using found)
  · intro partners
    obtain ⟨before, kind, path, body, after, balanced, laidOut, rfl, rfl⟩ := partners.exists_block
    obtain ⟨routine, rfl⟩ := balanced.exists_routine
    have stands : program.StandsAt before.length
        (.openBlock kind path :: (routine.flatten ++ .closeBlock :: after)) :=
      ⟨before, [], by simpa using laidOut, rfl⟩
    rw [stands.endOf?_eq, Routine.size]

/-- No end is known by `endOf?` of what does not open a block. -/
theorem endOf?_eq_none_iff :
    program.endOf? start = none ↔
      ∀ kind path, program.instructions.toList[start]? ≠ some (.openBlock kind path) := by
  constructor
  · intro missing kind path opens
    obtain ⟨stop, partners⟩ := program.balanced.exists_closing opens
    rw [endOf?_eq_some_iff.2 partners] at missing
    cases missing
  · intro noBlock
    by_contra present
    obtain ⟨stop, found⟩ := Option.ne_none_iff_exists'.1 present
    obtain ⟨kind, path, opens⟩ := (endOf?_eq_some_iff.1 found).opens
    exact noBlock kind path opens

/-- Of two blocks the one that begins later begins behind the other one or ends inside of it. -/
theorem disjoint_or_nested (found : program.endOf? start = some stop)
    (otherFound : program.endOf? other = some otherStop) (later : start < other) :
    stop < other ∨ otherStop < stop := by
  obtain ⟨before, kind, path, body, after, balanced, laidOut, rfl, rfl⟩ :=
    (endOf?_eq_some_iff.1 found).exists_block
  obtain ⟨otherKind, otherPath, opens⟩ := (endOf?_eq_some_iff.1 otherFound).opens
  obtain ⟨offset, rfl⟩ := Nat.exists_eq_add_of_le (Nat.succ_le_of_lt later)
  rw [laidOut, getElem?_behind] at opens
  obtain inBody | rfl | behind := Nat.lt_trichotomy offset body.length
  · -- It begins in the body, and so it has its partner there.
    rw [List.getElem?_append_left inBody] at opens
    obtain ⟨close, partners⟩ := balanced.exists_closing opens
    have whole := (partners.append (.closeBlock :: after)).behind before (.openBlock kind path)
    rw [← laidOut, ← endOf?_eq_some_iff, otherFound, Option.some.injEq] at whole
    obtain ⟨inside, _⟩ := List.getElem?_eq_some_iff.1 partners.closes
    omega
  · simp at opens
  · omega

/-- Each end of a block belongs by `endOf?` to one beginning. -/
theorem existsUnique_endOf?
    (closes : program.instructions.toList[stop]? = some .closeBlock) :
    ∃! start, program.endOf? start = some stop := by
  obtain ⟨start, partners⟩ := program.balanced.exists_opening closes
  have found := endOf?_eq_some_iff.2 partners
  refine ⟨start, found, fun other otherFound => ?_⟩
  have less := partners.less
  have otherLess := (endOf?_eq_some_iff.1 otherFound).less
  rcases Nat.lt_trichotomy start other with later | same | later
  · have := disjoint_or_nested found otherFound later
    omega
  · exact same.symm
  · have := disjoint_or_nested otherFound found later
    omega

end

/-- Of `Balanced` instructions `make` makes a program, and of no others. In the program the end of a
block (`endOf?`) is what closes it with balanced instructions in between, and nothing else has an
end: so blocks are disjoint or nested, and every end belongs to one beginning. Where the
instructions are not balanced the first end is named that nothing opened, or else the last beginning
that nothing closes. -/
theorem make_matches (instructions : List Instruction) :
    ((∃ program, make instructions = .ok program) ↔ Balanced instructions) ∧
    (∀ program, make instructions = .ok program →
      program.instructions.toList = instructions ∧
      (∀ start stop, program.endOf? start = some stop ↔ Partners instructions start stop) ∧
      (∀ start, program.endOf? start = none ↔
        ∀ kind path, instructions[start]? ≠ some (.openBlock kind path)) ∧
      (∀ start stop other otherStop, program.endOf? start = some stop →
        program.endOf? other = some otherStop → start < other →
        stop < other ∨ otherStop < stop) ∧
      ∀ stop, instructions[stop]? = some .closeBlock →
        ∃! start, program.endOf? start = some stop) ∧
    ∀ error, make instructions = .error error ↔
      ∃ fault, error = .unbalanced fault ∧ fault.Blames instructions := by
  refine ⟨exists_make_iff_balanced, fun program made => ?_, fun error => ?_⟩
  · obtain rfl := toList_instructions_of_make made
    exact ⟨rfl, fun _ _ => endOf?_eq_some_iff, fun _ => endOf?_eq_none_iff,
      fun _ _ _ _ => disjoint_or_nested, fun _ => existsUnique_endOf?⟩
  · have matched := Blocks.ends_spec instructions
    rw [make_eq_error_iff]
    cases found : Blocks.ends instructions with
    | ok ends =>
      rw [found] at matched
      simp only [reduceCtorEq, false_and, exists_false, false_iff]
      rintro ⟨fault, rfl, blames⟩
      exact blames.not_balanced matched.1
    | error fault =>
      rw [found] at matched
      constructor
      · rintro ⟨_, ⟨⟩, rfl⟩
        exact ⟨fault, rfl, matched⟩
      · rintro ⟨other, rfl, blames⟩
        exact ⟨fault, rfl, by rw [blames.unique matched]⟩

/-- The inner of two blocks that are never closed is the one that is named. -/
example : make [.openBlock .iterable "a", .openBlock .inverted "b", .closeBlock,
    .openBlock .iterable "c"] = .error (.unbalanced (.openWithoutClose 3)) := rfl

end Program

end Mustache
