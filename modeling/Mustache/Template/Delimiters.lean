import Mustache.Text.Blank

/-!
# Delimiters

The pair of markers between which a tag stands. A marker is not empty and holds no white
space; both facts are part of the type, and the scanner's progress rests on the first.
-/

namespace Mustache

/-- A text that may serve as a marker: not empty and without white space. -/
def IsMarker (marker : String) : Prop :=
  marker.toList ≠ [] ∧ ∀ character ∈ marker.toList, Text.isWhiteSpace character = false

instance (marker : String) : Decidable (IsMarker marker) :=
  decidable_of_iff
    ((! marker.toList.isEmpty && marker.toList.all (! Text.isWhiteSpace ·)) = true)
    (by simp [IsMarker])

/-- The markers between which a tag stands. -/
structure Delimiters where
  /-- The marker before a tag. -/
  opening : String
  /-- The marker after a tag. -/
  closing : String
  /-- The marker before a tag is a marker. -/
  opening_isMarker : IsMarker opening
  /-- The marker after a tag is a marker. -/
  closing_isMarker : IsMarker closing

namespace Delimiters

/-- Two braces on either side, the usual pair. -/
def standard : Delimiters where
  opening := "\x7b\x7b"
  closing := "\x7d\x7d"
  opening_isMarker := by decide +kernel
  closing_isMarker := by decide +kernel

instance : Inhabited Delimiters := ⟨standard⟩

/-- A pair of markers, or the first of the two that is none. -/
def make (opening closing : String) : Except String Delimiters :=
  if openingValid : IsMarker opening then
    if closingValid : IsMarker closing then
      .ok ⟨opening, closing, openingValid, closingValid⟩
    else .error closing
  else .error opening

end Delimiters

end Mustache
