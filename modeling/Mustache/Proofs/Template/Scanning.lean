import Mathlib.Data.List.Basic
import Mustache.Proofs.Template.StandaloneLines
import Mustache.Proofs.Text.Search

/-!
# Scanning past a line end

A template's tokens can be read in two parts if the first part ends with a line and can be read
by itself: no marker holds a line end, so neither search looks from the first part into the
second. The second part is then read as if it stood alone, with its lines counted from further
on; `Scanned.append` says the one and `scanFrom_addLines` the other.
-/

namespace Mustache

/-- An error with its line counted from further on. -/
def StructuralError.addLines (count : Nat) : StructuralError → StructuralError
  | .mismatched expected found line => .mismatched expected found (line + count)
  | .unexpectedClose found line => .unexpectedClose found (line + count)
  | .unclosed name line => .unclosed name (line + count)
  | .unterminated line => .unterminated (line + count)
  | .unterminatedUnescaped line => .unterminatedUnescaped (line + count)
  | .emptyTag line => .emptyTag (line + count)

/-- A marker holds no line end. -/
theorem IsMarker.unbroken {marker : String} (isMarker : IsMarker marker) :
    '\n' ∉ marker.toList := by
  intro member
  have noSpace := isMarker.2 _ member
  cases noSpace

/-- A text that ends with a line is empty or holds a line end. -/
theorem Layout.EndsLine.eq_nil_or_mem {text : List Char}
    (ended : EndsLine (· == '\n') text) : text = [] ∨ '\n' ∈ text := by
  cases last : text.getLast? with
  | none => exact Or.inl (List.getLast?_eq_none_iff.1 last)
  | some character =>
    rw [EndsLine, last] at ended
    have lineEnd : character = '\n' := by simpa using ended
    exact Or.inr (lineEnd ▸ List.mem_of_getLast? last)

namespace Token

/-- A token with its line counted from further on. -/
def addLines (count : Nat) : Token → Token
  | .text content => .text content
  | .newline => .newline
  | .tag body line => .tag body (line + count)

theorem map_addLines_consText (count : Nat) (run : List Char) (tokens : List Token) :
    (consText run tokens).map (addLines count) = consText run (tokens.map (addLines count)) := by
  unfold consText
  split <;> rfl

theorem consText_append (run : List Char) (first second : List Token) :
    consText run (first ++ second) = consText run first ++ second := by
  unfold consText
  split <;> rfl

/-- Text in front of tokens does not change how they end. -/
theorem getLast?_consText (run : List Char) (head : Token) (rest : List Token) :
    (consText run (head :: rest)).getLast? = (head :: rest).getLast? := by
  unfold consText
  split
  · rfl
  · rw [List.getLast?_cons_cons]

/-- A tag's body that `readBody` reads, its closing marker and perhaps one more brace stand before
what follows. -/
theorem eq_append_of_readBody {closing text body after : List Char} {line : Nat}
    (read : readBody closing line text = .ok (body, after)) :
    ∃ brace, '\n' ∉ brace ∧ text = body ++ closing ++ brace ++ after := by
  unfold readBody at read
  split at read
  · cases read
  · next cut =>
    have whole := Text.splitAtMarker?_eq_some cut
    split at read
    · split at read
      · cases read
        exact ⟨['\x7d'], by decide, by simpa using whole⟩
      · cases read
    · cases read
      exact ⟨[], List.not_mem_nil, by simpa using whole⟩

/-- A tag's body that `readBody` has read is read again when the text goes on. -/
theorem readBody_append {closing text body after : List Char} {line : Nat}
    (read : readBody closing line text = .ok (body, after)) (following : List Char) :
    readBody closing line (text ++ following) = .ok (body, after ++ following) := by
  unfold readBody at read ⊢
  split at read
  · cases read
  · next cut =>
    rw [Text.splitAtMarker?_append cut]
    simp only
    split at read
    · next takes =>
      rw [if_pos takes]
      split at read
      · cases read
        rfl
      · cases read
    · next plain =>
      rw [if_neg plain]
      cases read
      rfl

/-- Counting lines from further on changes only the line of an error of `readBody`. -/
theorem readBody_addLines (closing : List Char) (line count : Nat) (text : List Char) :
    readBody closing (line + count) text =
      (readBody closing line text).mapError (StructuralError.addLines count) := by
  unfold readBody
  split
  · rfl
  · split
    · split <;> rfl
    · rfl

section Steps

variable {delimiters : Delimiters} {line : Nat} {text run rest : List Char} {head : Char}

theorem scanFrom_end (cut : Text.spanLiteral delimiters.opening.toList text = (run, [])) :
    scanFrom delimiters line text = .ok (consText run []) := by
  rw [scanFrom]
  split
  · next found =>
    cases found.symm.trans cut
    rfl
  · next found => cases found.symm.trans cut

/-- At a line end `scanFrom` ends a line and begins the next one. -/
theorem scanFrom_lineEnd
    (cut : Text.spanLiteral delimiters.opening.toList text = (run, '\n' :: rest)) :
    scanFrom delimiters line text =
      (scanFrom delimiters (line + 1) rest).map fun tokens =>
        consText run (.newline :: tokens) := by
  rw [scanFrom]
  split
  · next found => cases found.symm.trans cut
  · next found =>
    cases found.symm.trans cut
    simp only [beq_self_eq_true, if_true]
    cases scanFrom delimiters (line + 1) rest <;> rfl

/-- At a tag whose end is not found `scanFrom` fails. -/
theorem scanFrom_unread {error : StructuralError}
    (cut : Text.spanLiteral delimiters.opening.toList text = (run, head :: rest))
    (marker : head ≠ '\n')
    (unread : readBody delimiters.closing.toList line
      ((head :: rest).drop delimiters.opening.toList.length) = .error error) :
    scanFrom delimiters line text = .error error := by
  rw [scanFrom]
  split
  · next found => cases found.symm.trans cut
  · next found =>
    cases found.symm.trans cut
    rw [if_neg (by simpa using marker)]
    split
    · next other =>
      cases other.symm.trans unread
      rfl
    · next other => cases other.symm.trans unread

/-- At a tag `scanFrom` reads the tag, and then what comes after it. -/
theorem scanFrom_tag {body after : List Char}
    (cut : Text.spanLiteral delimiters.opening.toList text = (run, head :: rest))
    (marker : head ≠ '\n')
    (read : readBody delimiters.closing.toList line
      ((head :: rest).drop delimiters.opening.toList.length) = .ok (body, after)) :
    scanFrom delimiters line text =
      (scanFrom delimiters (line + body.count '\n') after).map fun tokens =>
        consText run (.tag (String.ofList body) line :: tokens) := by
  rw [scanFrom]
  split
  · next found => cases found.symm.trans cut
  · next found =>
    cases found.symm.trans cut
    rw [if_neg (by simpa using marker)]
    split
    · next other => cases other.symm.trans read
    · next other =>
      cases other.symm.trans read
      cases scanFrom delimiters (line + body.count '\n') after <;> rfl

end Steps

/-- The tokens that `scanFrom` finds do not depend on the number of the first line, but for their
own lines. -/
theorem scanFrom_addLines (delimiters : Delimiters) (line count : Nat) (text : List Char) :
    scanFrom delimiters (line + count) text =
      ((scanFrom delimiters line text).map (List.map (addLines count))).mapError
        (StructuralError.addLines count) := by
  have split : ∀ run front (result : Except StructuralError (List Token)),
      Except.map (fun tokens => consText run (addLines count front :: tokens))
          ((result.map (List.map (addLines count))).mapError (StructuralError.addLines count)) =
        ((result.map fun tokens => consText run (front :: tokens)).map
          (List.map (addLines count))).mapError (StructuralError.addLines count) := by
    intro run front result
    cases result with
    | error => rfl
    | ok tokens => simp [Except.map, Except.mapError, map_addLines_consText]
  rcases cut : Text.spanLiteral delimiters.opening.toList text with ⟨run, _ | ⟨head, rest⟩⟩
  · rw [scanFrom_end cut, scanFrom_end cut]
    simp [Except.map, Except.mapError, map_addLines_consText]
  · have shorter : (head :: rest).length ≤ text.length := by
      simpa [cut] using Text.length_spanLiteral_le delimiters.opening.toList text
    rw [List.length_cons] at shorter
    by_cases lineEnd : head = '\n'
    · subst lineEnd
      rw [scanFrom_lineEnd cut, scanFrom_lineEnd cut, Nat.add_right_comm,
        scanFrom_addLines delimiters (line + 1) count rest]
      exact split run .newline _
    · have renumbered := readBody_addLines delimiters.closing.toList line count
        ((head :: rest).drop delimiters.opening.toList.length)
      cases read : readBody delimiters.closing.toList line
          ((head :: rest).drop delimiters.opening.toList.length) with
      | error error =>
        rw [read] at renumbered
        rw [scanFrom_unread cut lineEnd read, scanFrom_unread cut lineEnd renumbered]
        rfl
      | ok tag =>
        obtain ⟨body, after⟩ := tag
        rw [read] at renumbered
        have further : after.length < text.length := by
          have bounded := length_readBody_le read
          have marker := List.length_pos_iff.2 delimiters.opening_isMarker.1
          rw [List.length_drop, List.length_cons] at bounded
          omega
        rw [scanFrom_tag cut lineEnd read, scanFrom_tag cut lineEnd renumbered,
          Nat.add_right_comm, scanFrom_addLines delimiters (line + body.count '\n') count after]
        exact split run (.tag (String.ofList body) line) _
  termination_by text.length

/-- The texts in which `scanFrom` finds tokens, with the number of their first line and these
tokens. -/
inductive Scanned (delimiters : Delimiters) : Nat → List Char → List Token → Prop where
  | last {line : Nat} {text run : List Char}
      (cut : Text.spanLiteral delimiters.opening.toList text = (run, [])) :
      Scanned delimiters line text (consText run [])
  | lineEnd {line : Nat} {text run rest : List Char} {tokens : List Token}
      (cut : Text.spanLiteral delimiters.opening.toList text = (run, '\n' :: rest))
      (following : Scanned delimiters (line + 1) rest tokens) :
      Scanned delimiters line text (consText run (.newline :: tokens))
  | tag {line : Nat} {text run rest body after : List Char} {head : Char} {tokens : List Token}
      (cut : Text.spanLiteral delimiters.opening.toList text = (run, head :: rest))
      (marker : head ≠ '\n')
      (read : readBody delimiters.closing.toList line
        ((head :: rest).drop delimiters.opening.toList.length) = .ok (body, after))
      (following : Scanned delimiters (line + body.count '\n') after tokens) :
      Scanned delimiters line text (consText run (.tag (String.ofList body) line :: tokens))

/-- The texts that are `Scanned` are those in which `scanFrom` finds tokens. -/
theorem scanFrom_eq_ok_iff (delimiters : Delimiters) (line : Nat) (text : List Char)
    (tokens : List Token) :
    scanFrom delimiters line text = .ok tokens ↔ Scanned delimiters line text tokens := by
  constructor
  · intro scanned
    fun_induction scanFrom delimiters line text generalizing tokens with
    | case1 line text run cut =>
      cases scanned
      exact .last cut
    | case2 | case4 | case5 => cases scanned
    | case3 line text run head rest cut _ lineEnd following recursive inductionHypothesis =>
      cases scanned
      rw [eq_of_beq lineEnd] at cut
      exact .lineEnd cut (inductionHypothesis _ recursive)
    | case6 line text run head rest cut _ marker body after read _ following recursive
        inductionHypothesis =>
      cases scanned
      exact .tag cut (by simpa using marker) read (inductionHypothesis _ recursive)
  · intro scanned
    induction scanned with
    | last cut => exact scanFrom_end cut
    | lineEnd cut _ inductionHypothesis =>
      rw [scanFrom_lineEnd cut, inductionHypothesis]
      rfl
    | tag cut marker read _ inductionHypothesis =>
      rw [scanFrom_tag cut marker read, inductionHypothesis]
      rfl

namespace Scanned

variable {delimiters : Delimiters} {line : Nat} {text run rest : List Char} {head : Char}

/-- A tag stands in front of what comes after it. -/
theorem eq_append_of_read {body after : List Char}
    (cut : Text.spanLiteral delimiters.opening.toList text = (run, head :: rest))
    (marker : head ≠ '\n')
    (read : readBody delimiters.closing.toList line
      ((head :: rest).drop delimiters.opening.toList.length) = .ok (body, after)) :
    ∃ brace, '\n' ∉ brace ∧ head :: rest =
      delimiters.opening.toList ++ (body ++ delimiters.closing.toList ++ brace ++ after) := by
  obtain ⟨opened, markerFirst⟩ : delimiters.opening.toList <+: head :: rest := by
    rw [← List.isPrefixOf_iff_prefix]
    exact (Text.stops_of_spanLiteral cut).resolve_left marker
  rw [← markerFirst, List.drop_left] at read
  obtain ⟨brace, unbroken, rfl⟩ := eq_append_of_readBody read
  exact ⟨brace, unbroken, markerFirst.symm⟩

/-- The first run that `spanLiteral` finds in a text that ends with a line is the same when the text
goes on. -/
theorem spanLiteral_append
    (cut : Text.spanLiteral delimiters.opening.toList text = (run, head :: rest))
    (ended : Layout.EndsLine (· == '\n') text) (second : List Char) :
    Text.spanLiteral delimiters.opening.toList (text ++ second) =
      (run, head :: (rest ++ second)) := by
  have lineEnd : '\n' ∈ text := by
    refine ended.eq_nil_or_mem.resolve_left ?_
    rintro rfl
    cases cut
  rw [Text.spanLiteral_append_following delimiters.opening_isMarker.unbroken lineEnd, cut]
  rfl

/-- The tokens of a text that ends with a line (`EndsLine`) end with one. -/
theorem endsLine {tokens : List Token} (scanned : Scanned delimiters line text tokens)
    (ended : Layout.EndsLine (· == '\n') text) :
    (text = [] ∧ tokens = []) ∨ tokens.getLast? = some .newline := by
  induction scanned with
  | @last line text run cut =>
    left
    have whole := Text.eq_append_of_spanLiteral cut
    rw [List.append_nil] at whole
    rcases ended.eq_nil_or_mem with none | lineEnd
    · refine ⟨none, ?_⟩
      rw [← whole, none]
      rfl
    · have unbroken := Text.lineEnd_not_mem_spanLiteral delimiters.opening.toList text
      rw [cut, ← whole] at unbroken
      exact absurd lineEnd unbroken
  | @lineEnd line text run rest tokens cut _ inductionHypothesis =>
    right
    rw [getLast?_consText]
    rw [Text.eq_append_of_spanLiteral cut] at ended
    have restEnded : Layout.EndsLine (· == '\n') rest := ended.right.of_cons
    rcases inductionHypothesis restEnded with ⟨_, noTokens⟩ | lastToken
    · rw [noTokens]
      rfl
    · rw [List.getLast?_cons, lastToken]
      rfl
  | @tag line text run rest body after head tokens cut marker read _ inductionHypothesis =>
    right
    rw [getLast?_consText]
    obtain ⟨brace, braceUnbroken, tagText⟩ := eq_append_of_read cut marker read
    rw [Text.eq_append_of_spanLiteral cut, tagText] at ended
    rcases inductionHypothesis ended.right.right.right with ⟨nothing, _⟩ | lastToken
    · -- The text would end with the closing marker, which holds no line end.
      rw [nothing, List.append_nil, List.append_assoc] at ended
      rcases ended.right.right.right.eq_nil_or_mem with none | lineEnd
      · exact absurd (List.append_eq_nil_iff.1 none).1 delimiters.closing_isMarker.1
      · rcases List.mem_append.1 lineEnd with inMarker | inBrace
        · exact absurd inMarker delimiters.closing_isMarker.unbroken
        · exact absurd inBrace braceUnbroken
    · rw [List.getLast?_cons, lastToken]
      rfl

/-- A text that ends with a line and is `Scanned` is read by itself by `scanFrom`, and what follows
it too. -/
theorem append {first : List Char} {tokens : List Token}
    (scanned : Scanned delimiters line first tokens)
    (ended : Layout.EndsLine (· == '\n') first) (second : List Char) :
    scanFrom delimiters line (first ++ second) =
      (scanFrom delimiters (line + first.count '\n') second).map (tokens ++ ·) := by
  induction scanned with
  | @last line text run cut =>
    have none : text = [] := by
      refine ended.eq_nil_or_mem.resolve_right ?_
      have unbroken := Text.lineEnd_not_mem_spanLiteral delimiters.opening.toList text
      rw [Text.eq_append_of_spanLiteral cut, List.append_nil]
      rwa [cut] at unbroken
    subst none
    cases cut
    simp only [consText, List.isEmpty_nil, if_true, List.nil_append, List.count_nil,
      Nat.add_zero]
    cases scanFrom delimiters line second <;> rfl
  | @lineEnd line text run rest tokens cut _ inductionHypothesis =>
    have restEnded : Layout.EndsLine (· == '\n') rest := by
      rw [Text.eq_append_of_spanLiteral cut] at ended
      exact ended.right.of_cons
    rw [scanFrom_lineEnd (spanLiteral_append cut ended second), inductionHypothesis restEnded,
      Text.count_eq_of_spanLiteral cut, List.count_cons_self, Nat.add_assoc, Nat.add_comm 1]
    cases scanFrom delimiters (line + (rest.count '\n' + 1)) second with
    | error => rfl
    | ok later => simp [Except.map, ← consText_append]
  | @tag line text run rest body after head tokens cut marker read _ inductionHypothesis =>
    obtain ⟨brace, braceUnbroken, tagText⟩ := eq_append_of_read cut marker read
    have afterEnded : Layout.EndsLine (· == '\n') after := by
      rw [Text.eq_append_of_spanLiteral cut, tagText] at ended
      exact ended.right.right.right
    have readOn : readBody delimiters.closing.toList line
        ((head :: (rest ++ second)).drop delimiters.opening.toList.length) =
          .ok (body, after ++ second) := by
      rw [← List.cons_append, List.drop_append_of_le_length, readBody_append read]
      rw [tagText, List.length_append]
      exact Nat.le_add_right _ _
    have lineEnds : text.count '\n' = body.count '\n' + after.count '\n' := by
      rw [Text.count_eq_of_spanLiteral cut, tagText]
      simp only [List.count_append,
        List.count_eq_zero_of_not_mem delimiters.opening_isMarker.unbroken,
        List.count_eq_zero_of_not_mem delimiters.closing_isMarker.unbroken,
        List.count_eq_zero_of_not_mem braceUnbroken]
      omega
    rw [scanFrom_tag (spanLiteral_append cut ended second) marker readOn,
      inductionHypothesis afterEnded, lineEnds, Nat.add_assoc]
    cases scanFrom delimiters (line + (body.count '\n' + after.count '\n')) second with
    | error => rfl
    | ok later => simp [Except.map, ← consText_append]

end Scanned

end Token

end Mustache
