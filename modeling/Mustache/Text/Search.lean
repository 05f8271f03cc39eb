/-!
# Searching for a marker

A text is cut at the first place where a marker stands. The two functions differ in what may
come before: `splitAtMarker?` looks through the whole text, `spanLiteral` stops at the end of
the line. Both lose nothing, which `splitAtMarker?_eq_some` and `spanLiteral_append` say.
-/

namespace Mustache.Text

/-- The text before the first occurrence of a marker and the text after it. -/
def splitAtMarker? (marker : List Char) : List Char → Option (List Char × List Char)
  | [] => if marker.isEmpty then some ([], []) else none
  | character :: rest =>
    match marker.isPrefixOf? (character :: rest) with
    | some after => some ([], after)
    | none =>
      (splitAtMarker? marker rest).map fun (before, after) => (character :: before, after)

/-- The longest beginning of a text that holds no line end and in which the marker does not
start, and what follows it. -/
def spanLiteral (marker : List Char) : List Char → List Char × List Char
  | [] => ([], [])
  | character :: rest =>
    if character == '\n' || marker.isPrefixOf (character :: rest) then ([], character :: rest)
    else
      let (run, after) := spanLiteral marker rest
      (character :: run, after)

/-- A text that starts with a marker is the marker and what comes after it. -/
theorem isPrefixOf?_eq_some {marker text after : List Char}
    (found : marker.isPrefixOf? text = some after) : text = marker ++ after := by
  induction marker generalizing text with
  | nil => exact Option.some.inj found
  | cons head tail inductionHypothesis =>
    cases text with
    | nil => exact absurd found (by intro impossible; cases impossible)
    | cons character rest =>
      change (if head == character then tail.isPrefixOf? rest else none) = some after at found
      split at found
      · next same =>
        simp only [beq_iff_eq] at same
        simp [same, inductionHypothesis found]
      · simp at found

/-- Cutting a text with `splitAtMarker?` loses nothing but the marker. -/
theorem splitAtMarker?_eq_some {marker text before after : List Char}
    (found : splitAtMarker? marker text = some (before, after)) :
    text = before ++ marker ++ after := by
  induction text generalizing before with
  | nil =>
    simp only [splitAtMarker?] at found
    split at found
    · next empty =>
      simp only [List.isEmpty_iff] at empty
      simp only [Option.some.injEq, Prod.mk.injEq] at found
      obtain ⟨rfl, rfl⟩ := found
      simp [empty]
    · simp at found
  | cons character rest inductionHypothesis =>
    simp only [splitAtMarker?] at found
    split at found
    · next found' =>
      simp only [Option.some.injEq, Prod.mk.injEq] at found
      obtain ⟨rfl, rfl⟩ := found
      simpa using isPrefixOf?_eq_some found'
    · obtain ⟨⟨before', after'⟩, found', same⟩ := Option.map_eq_some_iff.1 found
      simp only [Prod.mk.injEq] at same
      obtain ⟨rfl, rfl⟩ := same
      simp [inductionHypothesis found']

/-- The two parts that `spanLiteral` makes are the whole text. -/
theorem spanLiteral_append (marker text : List Char) :
    (spanLiteral marker text).1 ++ (spanLiteral marker text).2 = text := by
  induction text with
  | nil => rfl
  | cons character rest inductionHypothesis =>
    simp only [spanLiteral]
    split
    · rfl
    · simpa using inductionHypothesis

/-- What follows a run of `spanLiteral` is no longer than the text. -/
theorem length_spanLiteral_le (marker text : List Char) :
    (spanLiteral marker text).2.length ≤ text.length := by
  have lengths := congrArg List.length (spanLiteral_append marker text)
  simp only [List.length_append] at lengths
  omega

end Mustache.Text
