import Mustache.Text.Search

/-!
# Searching in a text that goes on

A search does not look at what comes after a text if it comes to its end inside the text. A
marker that has been found stays the first one whatever follows. A literal run ends at a line
end at the latest, and a marker without line ends cannot reach over one; so a run in a text
with a line end stays the same as well.
-/

namespace Mustache.Text

/-- A marker without line ends is not looked for beyond a line end. -/
theorem isPrefixOf_append {marker text : List Char} (unbroken : '\n' ∉ marker)
    (lineEnd : '\n' ∈ text) (following : List Char) :
    marker.isPrefixOf (text ++ following) = marker.isPrefixOf text := by
  induction marker generalizing text with
  | nil => rfl
  | cons head tail inductionHypothesis =>
    rw [List.mem_cons, not_or] at unbroken
    cases text with
    | nil => cases lineEnd
    | cons character rest =>
      rw [List.cons_append, List.isPrefixOf, List.isPrefixOf]
      by_cases same : head = character
      · have later : '\n' ∈ rest := by
          rcases List.mem_cons.1 lineEnd with here | later
          · exact absurd (here.trans same.symm) unbroken.1
          · exact later
        rw [inductionHypothesis unbroken.2 later]
      · rw [beq_false_of_ne same, Bool.false_and, Bool.false_and]

/-- A marker that fits into a text is not looked for beyond it by `isPrefixOf?`. -/
theorem isPrefixOf?_append {marker text : List Char} (fits : marker.length ≤ text.length)
    (following : List Char) :
    marker.isPrefixOf? (text ++ following) =
      (marker.isPrefixOf? text).map (· ++ following) := by
  induction marker generalizing text with
  | nil => rfl
  | cons head tail inductionHypothesis =>
    cases text with
    | nil => cases fits
    | cons character rest =>
      change (if head == character then tail.isPrefixOf? (rest ++ following) else none) =
        (if head == character then tail.isPrefixOf? rest else none).map (· ++ following)
      split
      · exact inductionHypothesis (Nat.le_of_succ_le_succ fits)
      · rfl

/-- A marker that `splitAtMarker?` has found is found again when the text goes on. -/
theorem splitAtMarker?_append {marker text before after : List Char}
    (found : splitAtMarker? marker text = some (before, after)) (following : List Char) :
    splitAtMarker? marker (text ++ following) = some (before, after ++ following) := by
  have whole := congrArg List.length (splitAtMarker?_eq_some found)
  simp only [List.length_append] at whole
  have fits : marker.length ≤ text.length := by omega
  induction text generalizing before with
  | nil =>
    rw [List.length_nil] at fits
    rw [List.eq_nil_of_length_eq_zero (Nat.le_zero.1 fits), splitAtMarker?] at found
    cases found
    rw [List.eq_nil_of_length_eq_zero (Nat.le_zero.1 fits)]
    cases following <;> rfl
  | cons character rest inductionHypothesis =>
    rw [splitAtMarker?] at found
    rw [List.cons_append, splitAtMarker?, ← List.cons_append, isPrefixOf?_append fits]
    cases here : marker.isPrefixOf? (character :: rest) with
    | some remaining =>
      rw [here] at found
      cases found
      rfl
    | none =>
      rw [here] at found
      obtain ⟨⟨later, remaining⟩, foundLater, same⟩ := Option.map_eq_some_iff.1 found
      cases same
      have wholeLater := congrArg List.length (splitAtMarker?_eq_some foundLater)
      simp only [List.length_append] at wholeLater
      rw [Option.map_none]
      simp only [inductionHypothesis foundLater wholeLater (by omega), Option.map_some]

/-- A text is its run of `spanLiteral` and what follows it. -/
theorem eq_append_of_spanLiteral {marker text run after : List Char}
    (cut : spanLiteral marker text = (run, after)) : text = run ++ after := by
  have whole := spanLiteral_append marker text
  rw [cut] at whole
  exact whole.symm

/-- No line end is in a run of `spanLiteral`. -/
theorem lineEnd_not_mem_spanLiteral (marker text : List Char) :
    '\n' ∉ (spanLiteral marker text).1 := by
  induction text with
  | nil => exact List.not_mem_nil
  | cons character rest inductionHypothesis =>
    rw [spanLiteral]
    split
    · exact List.not_mem_nil
    · next goesOn =>
      simp only [Bool.or_eq_true, beq_iff_eq, not_or] at goesOn
      rw [List.mem_cons]
      rintro (here | later)
      · exact goesOn.1 here.symm
      · exact inductionHypothesis later

/-- The line ends of a text are all after its run of `spanLiteral`. -/
theorem count_eq_of_spanLiteral {marker text run after : List Char}
    (cut : spanLiteral marker text = (run, after)) : text.count '\n' = after.count '\n' := by
  have unbroken := lineEnd_not_mem_spanLiteral marker text
  rw [cut] at unbroken
  rw [eq_append_of_spanLiteral cut, List.count_append, List.count_eq_zero_of_not_mem unbroken,
    Nat.zero_add]

/-- A run of `spanLiteral` is followed by a line end or by the marker. -/
theorem stops_of_spanLiteral {marker text run rest : List Char} {head : Char}
    (cut : spanLiteral marker text = (run, head :: rest)) :
    head = '\n' ∨ marker.isPrefixOf (head :: rest) = true := by
  induction text generalizing run with
  | nil => cases cut
  | cons character others inductionHypothesis =>
    rw [spanLiteral] at cut
    split at cut
    · next stops =>
      cases cut
      simpa using stops
    · exact inductionHypothesis (Prod.ext rfl (Prod.mk.inj cut).2)

/-- In a text with a line end `spanLiteral` takes off the same run when the text goes on. -/
theorem spanLiteral_append_following {marker text : List Char} (unbroken : '\n' ∉ marker)
    (lineEnd : '\n' ∈ text) (following : List Char) :
    spanLiteral marker (text ++ following) =
      ((spanLiteral marker text).1, (spanLiteral marker text).2 ++ following) := by
  induction text with
  | nil => cases lineEnd
  | cons character rest inductionHypothesis =>
    rw [List.cons_append, spanLiteral, spanLiteral, ← List.cons_append,
      isPrefixOf_append unbroken lineEnd]
    split
    · rfl
    · next goesOn =>
      simp only [Bool.or_eq_true, beq_iff_eq, not_or] at goesOn
      rcases List.mem_cons.1 lineEnd with here | later
      · exact absurd here.symm goesOn.1
      · rw [inductionHypothesis later]

end Mustache.Text
