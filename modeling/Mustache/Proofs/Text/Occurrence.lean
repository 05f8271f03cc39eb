import Mustache.Proofs.Text.Search

/-!
# The first place of a marker

What the two searches find, said without them. A text ends at the first place of a marker if the
marker, put after it, begins nowhere before that; what comes after the marker does not matter.
`splitAtMarker?_eq_some_iff` and `spanLiteral_eq_iff` say that the searches find these places and
no others.
-/

namespace Mustache.Text

/-- A marker begins nowhere in a text, even if what is missing of it came next. -/
def EndsAtFirst (marker before : List Char) : Prop :=
  ∀ position < before.length, ¬ marker <+: (before ++ marker).drop position

/-- A prefix that fits into a text is a prefix of it, whatever follows the text. -/
theorem prefix_append_iff_of_length_le {marker text : List Char}
    (fits : marker.length ≤ text.length) (following : List Char) :
    marker <+: text ++ following ↔ marker <+: text := by
  constructor
  · intro found
    exact List.prefix_of_prefix_length_le found (List.prefix_append _ _) fits
  · intro found
    exact found.trans (List.prefix_append _ _)

/-- What follows a marker does not decide `EndsAtFirst`, whether the marker begins there first. -/
theorem endsAtFirst_iff_following {marker before : List Char} (following : List Char) :
    EndsAtFirst marker before ↔
      ∀ position < before.length, ¬ marker <+: (before ++ marker ++ following).drop position := by
  refine forall₂_congr fun position inside => not_congr ?_
  have enough : position ≤ (before ++ marker).length := by
    rw [List.length_append]
    omega
  have fits : marker.length ≤ ((before ++ marker).drop position).length := by
    rw [List.length_drop, List.length_append]
    omega
  rw [List.drop_append_of_le_length enough, prefix_append_iff_of_length_le fits]

/-- In no text at all a marker begins too early. -/
theorem endsAtFirst_nil (marker : List Char) : EndsAtFirst marker [] :=
  fun _ inside => absurd inside (Nat.not_lt_zero _)

/-- A text is checked from its front, character by character. -/
theorem forall_drop_cons_iff {marker rest following : List Char} {character : Char} :
    (∀ position < (character :: rest).length,
        ¬ marker <+: ((character :: rest) ++ following).drop position) ↔
      ¬ marker <+: character :: (rest ++ following) ∧
        ∀ position < rest.length, ¬ marker <+: (rest ++ following).drop position := by
  constructor
  · intro nowhere
    refine ⟨nowhere 0 (Nat.succ_pos _), ?_⟩
    intro position inside
    exact nowhere (position + 1) (Nat.succ_lt_succ inside)
  · rintro ⟨notHere, notLater⟩ position inside
    cases position with
    | zero => exact notHere
    | succ position => exact notLater position (Nat.lt_of_succ_lt_succ inside)

/-- A text starts with a marker exactly if `isPrefixOf?` gives what comes after it there. -/
theorem isPrefixOf?_eq_some_iff {marker text after : List Char} :
    marker.isPrefixOf? text = some after ↔ text = marker ++ after := by
  constructor
  · exact isPrefixOf?_eq_some
  · rintro rfl
    induction marker with
    | nil => rfl
    | cons head tail inductionHypothesis =>
      change (if head == head then tail.isPrefixOf? (tail ++ after) else none) = some after
      rw [if_pos (beq_self_eq_true head), inductionHypothesis]

/-- A text does not start with a marker exactly if `isPrefixOf?` gives nothing. -/
theorem isPrefixOf?_eq_none_iff {marker text : List Char} :
    marker.isPrefixOf? text = none ↔ ¬ marker <+: text := by
  rw [Option.eq_none_iff_forall_ne_some]
  constructor
  · rintro notThere ⟨after, same⟩
    exact notThere after (isPrefixOf?_eq_some_iff.2 same.symm)
  · intro notThere after found
    exact notThere ⟨after, (isPrefixOf?_eq_some found).symm⟩

/-- A text is cut by `splitAtMarker?` where the marker stands first, and there only. -/
theorem splitAtMarker?_eq_some_iff {marker text before after : List Char} :
    splitAtMarker? marker text = some (before, after) ↔
      text = before ++ marker ++ after ∧ EndsAtFirst marker before := by
  induction text generalizing before with
  | nil =>
    rw [splitAtMarker?]
    constructor
    · intro found
      split at found
      · next empty =>
        cases found
        rw [List.isEmpty_iff.1 empty]
        exact ⟨rfl, endsAtFirst_nil _⟩
      · cases found
    · rintro ⟨whole, _⟩
      obtain ⟨front, rfl⟩ := List.append_eq_nil_iff.1 whole.symm
      obtain ⟨rfl, rfl⟩ := List.append_eq_nil_iff.1 front
      rfl
  | cons character rest inductionHypothesis =>
    rw [splitAtMarker?]
    cases here : marker.isPrefixOf? (character :: rest) with
    | some remaining =>
      have whole := isPrefixOf?_eq_some here
      constructor
      · intro found
        cases found
        exact ⟨whole, endsAtFirst_nil _⟩
      · rintro ⟨cut, first⟩
        cases before with
        | nil =>
          rw [List.nil_append, whole] at cut
          rw [List.append_cancel_left cut]
        | cons head tail =>
          have tooEarly := (endsAtFirst_iff_following after).1 first 0 (Nat.succ_pos _)
          rw [List.drop_zero, ← cut, whole] at tooEarly
          exact absurd (List.prefix_append _ _) tooEarly
    | none =>
      have notHere := isPrefixOf?_eq_none_iff.1 here
      simp only [Option.map_eq_some_iff, Prod.mk.injEq, Prod.exists]
      constructor
      · rintro ⟨earlier, following, found, rfl, rfl⟩
        obtain ⟨rfl, first⟩ := inductionHypothesis.1 found
        refine ⟨rfl, (endsAtFirst_iff_following following).2 ?_⟩
        rw [List.append_assoc] at notHere ⊢
        refine forall_drop_cons_iff.2 ⟨notHere, ?_⟩
        rw [← List.append_assoc]
        exact (endsAtFirst_iff_following following).1 first
      · rintro ⟨cut, first⟩
        cases before with
        | nil =>
          rw [cut] at notHere
          exact absurd (List.prefix_append _ _) notHere
        | cons head tail =>
          obtain ⟨rfl, rfl⟩ := List.cons.inj cut
          refine ⟨tail, after, inductionHypothesis.2 ⟨rfl, ?_⟩, rfl, rfl⟩
          have nowhere := (endsAtFirst_iff_following after).1 first
          rw [List.append_assoc] at nowhere
          refine (endsAtFirst_iff_following after).2 ?_
          rw [List.append_assoc]
          exact (forall_drop_cons_iff.1 nowhere).2

/-- A marker that `splitAtMarker?` does not find in a text is not there. -/
theorem notHeld_of_splitAtMarker? {marker text : List Char}
    (nowhere : splitAtMarker? marker text = none) : ¬ marker <:+: text := by
  induction text with
  | nil =>
    rw [splitAtMarker?] at nowhere
    split at nowhere
    · cases nowhere
    · next present =>
      rw [List.infix_nil]
      simpa using present
  | cons character rest inductionHypothesis =>
    rw [splitAtMarker?] at nowhere
    cases here : marker.isPrefixOf? (character :: rest) with
    | some after =>
      rw [here] at nowhere
      cases nowhere
    | none =>
      rw [here] at nowhere
      rw [List.infix_cons_iff, not_or]
      exact ⟨isPrefixOf?_eq_none_iff.1 here, inductionHypothesis (Option.map_eq_none_iff.1 nowhere)⟩

/-- A run of `spanLiteral` ends where it has to: at the end of the text, at a line end or at a
marker; and it ends nowhere before. -/
theorem spanLiteral_eq_iff {marker text run after : List Char} :
    spanLiteral marker text = (run, after) ↔
      text = run ++ after ∧ '\n' ∉ run ∧
        (∀ position < run.length, ¬ marker <+: (run ++ after).drop position) ∧
        (after = [] ∨ after.head? = some '\n' ∨ marker <+: after) := by
  induction text generalizing run with
  | nil =>
    rw [spanLiteral]
    constructor
    · intro cut
      cases cut
      exact ⟨rfl, List.not_mem_nil, fun _ inside => absurd inside (Nat.not_lt_zero _), Or.inl rfl⟩
    · rintro ⟨whole, _⟩
      obtain ⟨rfl, rfl⟩ := List.append_eq_nil_iff.1 whole.symm
      rfl
  | cons character rest inductionHypothesis =>
    rw [spanLiteral]
    split
    · next stops =>
      have stopsHere : character = '\n' ∨ marker <+: character :: rest := by
        simpa using stops
      constructor
      · intro cut
        cases cut
        refine ⟨rfl, List.not_mem_nil, fun _ inside => absurd inside (Nat.not_lt_zero _), ?_⟩
        exact Or.inr (stopsHere.imp_left fun lineEnd => by rw [lineEnd]; rfl)
      · rintro ⟨whole, unbroken, nowhere, _⟩
        cases run with
        | nil => rw [whole, List.nil_append]
        | cons head tail =>
          obtain ⟨rfl, rfl⟩ := List.cons.inj whole
          rcases stopsHere with lineEnd | found
          · exact absurd (lineEnd ▸ List.mem_cons_self) unbroken
          · exact absurd found (nowhere 0 (Nat.succ_pos _))
    · next goesOn =>
      have goesOnHere : character ≠ '\n' ∧ ¬ marker <+: character :: rest := by
        simpa using goesOn
      constructor
      · intro cut
        cases cut
        obtain ⟨whole, unbroken, nowhere, stops⟩ := inductionHypothesis.1 rfl
        refine ⟨congrArg (character :: ·) whole, ?_, ?_, stops⟩
        · rw [List.mem_cons, not_or]
          exact ⟨goesOnHere.1.symm, unbroken⟩
        · exact forall_drop_cons_iff.2 ⟨whole ▸ goesOnHere.2, nowhere⟩
      · rintro ⟨whole, unbroken, nowhere, stops⟩
        cases run with
        | nil =>
          rw [List.nil_append] at whole
          rw [← whole] at stops
          rcases stops with nothing | lineEnd | found
          · cases nothing
          · exact absurd (Option.some.inj lineEnd) goesOnHere.1
          · exact absurd found goesOnHere.2
        | cons head tail =>
          obtain ⟨rfl, rfl⟩ := List.cons.inj whole
          rw [List.mem_cons, not_or] at unbroken
          have later := inductionHypothesis.2
            ⟨rfl, unbroken.2, (forall_drop_cons_iff.1 nowhere).2, stops⟩
          rw [later]

/-- A marker without line ends that begins before a line end, or before the end of the text, is
there in full. -/
theorem prefix_append_iff_of_stops {marker text after : List Char} (unbroken : '\n' ∉ marker)
    (stops : after = [] ∨ after.head? = some '\n') :
    marker <+: text ++ after ↔ marker <+: text := by
  rcases stops with rfl | lineEnd
  · rw [List.append_nil]
  · obtain ⟨following, rfl⟩ := List.head?_eq_some_iff.1 lineEnd
    refine ⟨fun found => ?_, fun found => found.trans (List.prefix_append _ _)⟩
    rcases Nat.lt_or_ge text.length marker.length with longer | fits
    · -- The marker would reach over the line end.
      have reaches : text ++ ['\n'] <+: marker := by
        have upToLineEnd : text ++ ['\n'] <+: text ++ '\n' :: following :=
          ⟨following, by rw [List.append_assoc, List.singleton_append]⟩
        refine List.prefix_of_prefix_length_le upToLineEnd found ?_
        rw [List.length_append, List.length_singleton]
        exact longer
      have lineEnd : '\n' ∈ text ++ ['\n'] :=
        List.mem_append_right _ (List.mem_singleton.2 rfl)
      exact absurd (reaches.subset lineEnd) unbroken
    · exact (prefix_append_iff_of_length_le fits _).1 found

/-- In a run before a line end, or before the end of the text, a marker begins somewhere exactly
if the run holds it. -/
theorem forall_drop_iff_notHeld {marker run after : List Char} (notEmpty : marker ≠ [])
    (unbroken : '\n' ∉ marker) (stops : after = [] ∨ after.head? = some '\n') :
    (∀ position < run.length, ¬ marker <+: (run ++ after).drop position) ↔ ¬ marker <:+: run := by
  constructor
  · intro nowhere held
    obtain ⟨before, rest, whole⟩ := held
    have inside : before.length < run.length := by
      have some := List.length_pos_iff.2 notEmpty
      rw [← whole, List.length_append, List.length_append]
      omega
    refine nowhere before.length inside ?_
    rw [← whole, List.append_assoc, List.append_assoc, List.drop_left]
    exact List.prefix_append _ _
  · intro notHeld position inside found
    rw [List.drop_append_of_le_length (Nat.le_of_lt inside),
      prefix_append_iff_of_stops unbroken stops] at found
    exact notHeld (found.isInfix.trans (List.drop_suffix position run).isInfix)

end Mustache.Text
