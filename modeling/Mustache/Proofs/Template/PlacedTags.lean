import Mustache.Proofs.Template.CanonicalTokens
import Mustache.Proofs.Template.OpenTags

/-!
# Where tags stand

A tag stands where its opening marker is, and its line is counted by the line ends of the source
before that. `Canonical.filterMap_tag?` says that the scanner gives every tag this line, over all
tags before it that run over several lines, and `scan_eq_error` that a tag whose end is not found
is reported at this line too.
-/

namespace Mustache

/-- A tag and the text before its opening marker. -/
structure PlacedTag where
  /-- The meaning of the tag. -/
  meaning : Tag
  /-- The text before the opening marker. -/
  before : String
  deriving Repr, DecidableEq, Inhabited

namespace PlacedTag

/-- The line of a tag, counted from one. -/
def line (tag : PlacedTag) : Nat :=
  1 + tag.before.toList.count '\n'

/-- A tag with its line. -/
def numbered (tag : PlacedTag) : Tag × Nat :=
  (tag.meaning, tag.line)

/-- A tag stands in a source: its markers are there, around a body that has its meaning
(`Tag.ofBody`). -/
def StandsIn (delimiters : Delimiters) (source : String) (tag : PlacedTag) : Prop :=
  ∃ body after, tag.meaning = Tag.ofBody body ∧
    source = tag.before ++ delimiters.opening ++ body ++ delimiters.closing ++ after

/-- A tag that stands in a source (`StandsIn`) stands on one of its lines. -/
theorem StandsIn.line_bounded {delimiters : Delimiters} {source : String} {tag : PlacedTag}
    (stands : tag.StandsIn delimiters source) :
    1 ≤ tag.line ∧ tag.line ≤ 1 + source.toList.count '\n' := by
  obtain ⟨body, after, _, rfl⟩ := stands
  rw [line]
  simp only [String.toList_append, List.count_append]
  omega

end PlacedTag

namespace Token

open Text

variable {delimiters : Delimiters}

/-- The tags among tokens, each with the text before it, which begins with `before`. -/
def placedTags (delimiters : Delimiters) (before : String) : List Token → List PlacedTag
  | [] => []
  | .tag body line :: rest =>
    ⟨Tag.ofBody body, before⟩ ::
      placedTags delimiters (before ++ (Token.tag body line).write delimiters) rest
  | .text content :: rest => placedTags delimiters (before ++ content) rest
  | .newline :: rest => placedTags delimiters (before ++ "\n") rest

/-- The tags of a `Canonical` sequence have the lines on which they stand (`placedTags`). -/
theorem Canonical.filterMap_tag? {before : String} {tokens : List Token}
    (canonical : Canonical delimiters (1 + before.toList.count '\n') tokens) :
    tokens.filterMap tag? = (placedTags delimiters before tokens).map PlacedTag.numbered := by
  induction tokens generalizing before with
  | nil => rfl
  | cons token rest inductionHypothesis =>
    obtain ⟨fits, following⟩ := canonical_cons_iff.1 canonical
    rw [Nat.add_assoc, ← List.count_append, ← String.toList_append] at following
    have later := inductionHypothesis following
    cases token with
    | text | newline => exact later
    | tag body line =>
      have here : line = 1 + before.toList.count '\n' := (canonical_tag_iff.1 canonical).1
      rw [placedTags, List.map_cons, ← later, PlacedTag.numbered, PlacedTag.line, ← here]
      rfl

theorem writeAll_cons (token : Token) (rest : List Token) :
    writeAll delimiters (token :: rest) = token.write delimiters ++ writeAll delimiters rest := by
  rw [← String.toList_inj, toList_writeAll_cons, String.toList_append]

theorem writeAll_append (first second : List Token) :
    writeAll delimiters (first ++ second) =
      writeAll delimiters first ++ writeAll delimiters second := by
  rw [writeAll, List.map_append, String.join_append]
  rfl

/-- The `placedTags` of tokens stand in what is written. -/
theorem standsIn_of_mem_placedTags {before : String} {tokens : List Token} {tag : PlacedTag}
    (member : tag ∈ placedTags delimiters before tokens) :
    tag.StandsIn delimiters (before ++ writeAll delimiters tokens) := by
  induction tokens generalizing before with
  | nil => cases member
  | cons token rest inductionHypothesis =>
    rw [writeAll_cons, ← String.append_assoc]
    cases token with
    | text content => exact inductionHypothesis member
    | newline => exact inductionHypothesis member
    | tag body line =>
      rcases List.mem_cons.1 member with rfl | later
      · refine ⟨body, String.ofList (brace delimiters.closing.toList body.toList) ++
          writeAll delimiters rest, rfl, ?_⟩
        rw [← String.toList_inj]
        simp [toList_write_tag]
      · exact inductionHypothesis later

/-- The text before one of the `placedTags` begins with the text before the tokens. -/
theorem prefix_before_of_mem_placedTags {before : String} {tokens : List Token}
    {tag : PlacedTag} (member : tag ∈ placedTags delimiters before tokens) :
    before.toList <+: tag.before.toList := by
  induction tokens generalizing before with
  | nil => cases member
  | cons token rest inductionHypothesis =>
    have later : ∀ written : String,
        tag ∈ placedTags delimiters (before ++ written) rest →
          before.toList <+: tag.before.toList := by
      intro written found
      have longer := inductionHypothesis found
      rw [String.toList_append] at longer
      exact (List.prefix_append _ _).trans longer
    cases token with
    | text | newline => exact later _ member
    | tag body line =>
      rcases List.mem_cons.1 member with rfl | found
      · exact List.prefix_rfl
      · exact later _ found

/-- The lines of `placedTags` grow in the order of the tags. -/
theorem pairwise_line_placedTags (delimiters : Delimiters) (before : String)
    (tokens : List Token) :
    (placedTags delimiters before tokens).Pairwise (·.line ≤ ·.line) := by
  induction tokens generalizing before with
  | nil => exact .nil
  | cons token rest inductionHypothesis =>
    cases token with
    | text | newline => exact inductionHypothesis _
    | tag body line =>
      refine .cons ?_ (inductionHypothesis _)
      intro later member
      have found := prefix_before_of_mem_placedTags member
      rw [String.toList_append] at found
      have counted := ((List.prefix_append _ _).trans found).sublist.count_le '\n'
      exact Nat.add_le_add_left counted 1

/-- Why a tag does not end, from what comes after its opening marker: there is no closing marker,
or the body takes a brace that is not there. -/
inductive Unended (delimiters : Delimiters) (line : Nat) (rest : List Char) :
    StructuralError → Prop where
  | unterminated (nowhere : ¬ delimiters.closing.toList <:+: rest) :
      Unended delimiters line rest (.unterminated line)
  | unescaped {body after : List Char} (cut : rest = body ++ delimiters.closing.toList ++ after)
      (first : EndsAtFirst delimiters.closing.toList body)
      (takes : takesBrace delimiters.closing.toList body = true)
      (missing : after.head? ≠ some '\x7d') :
      Unended delimiters line rest (.unterminatedUnescaped line)

/-- A tag whose body `readBody` cannot read is `Unended`. -/
theorem unended_of_readBody {line : Nat} {rest : List Char} {fault : StructuralError}
    (unread : readBody delimiters.closing.toList line rest = .error fault) :
    Unended delimiters line rest fault := by
  unfold readBody at unread
  split at unread
  · next nowhere =>
    cases unread
    exact .unterminated (notHeld_of_splitAtMarker? nowhere)
  · next found =>
    obtain ⟨cut, first⟩ := splitAtMarker?_eq_some_iff.1 found
    split at unread
    · next takes =>
      split at unread
      · cases unread
      · next after noBrace =>
        cases unread
        refine .unescaped cut first takes ?_
        intro brace
        obtain ⟨others, same⟩ := List.head?_eq_some_iff.1 brace
        exact noBrace others same
    · cases unread

section Cut

variable {text run rest : List Char}

/-- No tag begins in a literal run up to a line end. -/
theorem runsUpTo_newline_of_cut
    (cut : spanLiteral delimiters.opening.toList text = (run, '\n' :: rest))
    (tokens : List Token) : '\n' ∉ run ∧ RunsUpTo delimiters run (.newline :: tokens) := by
  obtain ⟨_, unbroken, nowhere, _⟩ := spanLiteral_eq_iff.1 cut
  exact ⟨unbroken, (forall_drop_iff_notHeld delimiters.opening_isMarker.1
    delimiters.opening_isMarker.unbroken (Or.inr rfl)).1 nowhere⟩

/-- No tag begins in a literal run up to a tag, which begins with the opening marker. -/
theorem runsUpTo_tag_of_cut {head : Char}
    (cut : spanLiteral delimiters.opening.toList text = (run, head :: rest))
    (marker : head ≠ '\n') (body : String) (line : Nat) (tokens : List Token) :
    '\n' ∉ run ∧ RunsUpTo delimiters run (.tag body line :: tokens) ∧
      head :: rest = delimiters.opening.toList ++
        (head :: rest).drop delimiters.opening.toList.length := by
  obtain ⟨_, unbroken, nowhere, stops⟩ := spanLiteral_eq_iff.1 cut
  obtain ⟨following, opened⟩ : delimiters.opening.toList <+: head :: rest := by
    simpa [marker] using stops
  rw [← opened, ← List.append_assoc] at nowhere
  refine ⟨unbroken, (endsAtFirst_iff_following following).2 nowhere, ?_⟩
  rw [← opened, List.drop_left]

end Cut

/-- Where `scanFrom` fails, a tag does not end; the tokens before it are canonical in front of a tag
on its line. -/
theorem scanFrom_eq_error {line : Nat} {text : List Char} {fault : StructuralError}
    (failed : scanFrom delimiters line text = .error fault) :
    ∃ tokens number rest,
      text = (writeAll delimiters tokens).toList ++ delimiters.opening.toList ++ rest ∧
      Canonical delimiters line (tokens ++ [.tag "" number]) ∧
      readBody delimiters.closing.toList number rest = .error fault := by
  fun_induction scanFrom delimiters line text with
  | case1 | case3 | case6 => cases failed
  | case2 line text run head rest cut _ lineEnd error recursive inductionHypothesis =>
    cases failed
    rw [eq_of_beq lineEnd] at cut
    obtain ⟨tokens, number, after, whole, canonical, unread⟩ := inductionHypothesis recursive
    obtain ⟨unbroken, runsUpTo⟩ := runsUpTo_newline_of_cut cut (tokens ++ [.tag "" number])
    refine ⟨consText run (.newline :: tokens), number, after, ?_, ?_, unread⟩
    · rw [toList_writeAll_consText, toList_writeAll_cons, eq_append_of_spanLiteral cut, whole]
      simp [write]
    · rw [← consText_append]
      exact canonical_consText (by simp) unbroken runsUpTo (canonical_newline_iff.2 canonical)
  | case4 line text run head rest cut _ marker error unread =>
    cases failed
    have notLineEnd : head ≠ '\n' := by simpa using marker
    obtain ⟨unbroken, runsUpTo, opened⟩ := runsUpTo_tag_of_cut cut notLineEnd "" line []
    refine ⟨consText run [], line, _, ?_, ?_, unread⟩
    · rw [toList_writeAll_consText, toList_writeAll_nil, List.append_nil, List.append_assoc,
        ← opened]
      exact eq_append_of_spanLiteral cut
    · rw [← consText_append]
      exact canonical_consText (by simp) unbroken runsUpTo
        (canonical_tag_iff.2 ⟨rfl, endsAtFirst_nil _, canonical_nil⟩)
  | case5 line text run head rest cut _ marker body after read _ error recursive
      inductionHypothesis =>
    cases failed
    have notLineEnd : head ≠ '\n' := by simpa using marker
    obtain ⟨tokens, number, remaining, whole, canonical, unread⟩ := inductionHypothesis recursive
    obtain ⟨unbroken, runsUpTo, opened⟩ := runsUpTo_tag_of_cut cut notLineEnd
      (String.ofList body) line (tokens ++ [.tag "" number])
    obtain ⟨tagText, first⟩ := readBody_eq_ok_iff.1 read
    refine ⟨consText run (.tag (String.ofList body) line :: tokens), number, remaining, ?_, ?_,
      unread⟩
    · rw [toList_writeAll_consText, toList_writeAll_cons, toList_write_tag,
        eq_append_of_spanLiteral cut, opened, tagText, whole]
      simp
    · rw [← consText_append]
      refine canonical_consText (by simp) unbroken runsUpTo
        (canonical_tag_iff.2 ⟨rfl, ?_, ?_⟩)
      · rw [String.toList_ofList]
        exact first
      · rw [String.toList_ofList]
        exact canonical

/-- Where `scan` fails, a tag does not end (`Unended`). The fault is reported at the line on which
the tag stands, and were the tag closed at once, it would be the last token. -/
theorem scan_eq_error {source : String} {fault : StructuralError}
    (failed : scan delimiters source = .error fault) :
    ∃ before rest tokens,
      source = before ++ delimiters.opening ++ rest ∧
      fault.line = 1 + before.toList.count '\n' ∧
      Unended delimiters fault.line rest.toList fault ∧
      scan delimiters (before ++ delimiters.opening ++ delimiters.closing) =
        .ok (tokens ++ [.tag "" fault.line]) := by
  obtain ⟨tokens, number, rest, whole, canonical, unread⟩ := scanFrom_eq_error failed
  have sameLine : fault.line = number := by
    have unended := unended_of_readBody unread
    cases unended <;> rfl
  have counted : number = 1 + (writeAll delimiters tokens).toList.count '\n' :=
    (canonical tokens _ [] rfl).2
  have closedAtOnce : (writeAll delimiters (tokens ++ [.tag "" number])).toList =
      (writeAll delimiters tokens ++ delimiters.opening ++ delimiters.closing).toList := by
    have noBrace : brace delimiters.closing.toList [] = [] := rfl
    rw [writeAll_append, String.toList_append, toList_writeAll_cons, toList_write_tag]
    simp [noBrace]
  refine ⟨writeAll delimiters tokens, String.ofList rest, tokens, ?_, ?_, ?_, ?_⟩
  · rw [← String.toList_inj, whole]
    simp
  · rw [sameLine, counted]
  · rw [sameLine, String.toList_ofList]
    exact unended_of_readBody unread
  · rw [scan, ← closedAtOnce, sameLine]
    exact (scanFrom_eq_ok_iff _ _ _ _).2 canonical.scanned

end Token

end Mustache
