import Mustache.Proofs.Template.Scanning
import Mustache.Proofs.Text.Occurrence

/-!
# Canonical tokens

Scanning and writing undo each other. Of all sequences of tokens that are written as one text,
only one is canonical: in it every token fits its place, which can be checked without scanning.
`scan_eq_ok_iff` says that the scanner finds this sequence whenever there is one.
-/

namespace Mustache.Token

open Text

variable (delimiters : Delimiters)

/-- Tokens as they stand in a template, each written by `Token.write`. -/
def writeAll (tokens : List Token) : String :=
  String.join (tokens.map (write delimiters))

/-- No tag begins within a literal run: the opening marker stands nowhere before that of the tag
that follows, or nowhere in the run if no tag follows. -/
def RunsUpTo (run : List Char) : List Token → Prop
  | .tag _ _ :: _ => EndsAtFirst delimiters.opening.toList run
  | [] | .text _ :: _ | .newline :: _ => ¬ delimiters.opening.toList <:+: run

/-- A token fits between the tokens before it and those after it, the first line having the
number `firstLine`. A text holds something, ends no line, is not followed by another one, and no
tag begins in it. A tag's body ends where the closing marker stands first, and its line is
counted by the line ends written before it. -/
def Fits (firstLine : Nat) (before : List Token) (token : Token) (after : List Token) : Prop :=
  match token with
  | .text content =>
    content ≠ "" ∧ '\n' ∉ content.toList ∧ (∀ other, after.head? ≠ some (.text other)) ∧
      RunsUpTo delimiters content.toList after
  | .newline => True
  | .tag body line =>
    EndsAtFirst delimiters.closing.toList body.toList ∧
      line = firstLine + (writeAll delimiters before).toList.count '\n'

/-- A sequence of tokens is canonical if every token `Fits` its place. -/
def Canonical (firstLine : Nat) (tokens : List Token) : Prop :=
  ∀ before token after, tokens = before ++ token :: after →
    Fits delimiters firstLine before token after

variable {delimiters} {line : Nat}

@[simp]
theorem toList_writeAll_nil : (writeAll delimiters []).toList = [] := rfl

@[simp]
theorem toList_writeAll_cons (token : Token) (rest : List Token) :
    (writeAll delimiters (token :: rest)).toList =
      (token.write delimiters).toList ++ (writeAll delimiters rest).toList := by
  simp [writeAll, String.toList_join]

/-- The brace after a tag, if the tag takes one. -/
def brace (closing body : List Char) : List Char :=
  if takesBrace closing body then ['\x7d'] else []

theorem toList_write_tag (body : String) (number : Nat) :
    ((Token.tag body number).write delimiters).toList =
      delimiters.opening.toList ++ (body.toList ++ delimiters.closing.toList ++
        brace delimiters.closing.toList body.toList) := by
  rw [write, brace]
  split <;> simp

/-- The line ends that `Token.write` writes for a tag are those of its body. -/
theorem count_write_tag (body : String) (number : Nat) :
    ((Token.tag body number).write delimiters).toList.count '\n' = body.toList.count '\n' := by
  have noBrace : '\n' ∉ brace delimiters.closing.toList body.toList := by
    unfold brace
    split <;> simp
  simp [toList_write_tag, List.count_append,
    List.count_eq_zero_of_not_mem delimiters.opening_isMarker.unbroken,
    List.count_eq_zero_of_not_mem delimiters.closing_isMarker.unbroken,
    List.count_eq_zero_of_not_mem noBrace]

/-- A tag's body is read by `readBody` up to the first closing marker and the `brace` that the tag
takes. -/
theorem readBody_eq_ok_iff {closing text body after : List Char} :
    readBody closing line text = .ok (body, after) ↔
      text = body ++ closing ++ brace closing body ++ after ∧ EndsAtFirst closing body := by
  unfold readBody
  constructor
  · intro read
    split at read
    · cases read
    · next cut =>
      obtain ⟨whole, first⟩ := splitAtMarker?_eq_some_iff.1 cut
      split at read
      · next takes =>
        split at read
        · cases read
          rw [brace, if_pos takes]
          exact ⟨by simpa using whole, first⟩
        · cases read
      · next plain =>
        cases read
        rw [brace, if_neg plain]
        exact ⟨by simpa using whole, first⟩
  · rintro ⟨whole, first⟩
    rw [List.append_assoc (body ++ closing)] at whole
    rw [splitAtMarker?_eq_some_iff.2 ⟨whole, first⟩]
    by_cases takes : takesBrace closing body = true
    · simp [brace, takes]
    · simp [brace, takes]

/-- Before what is not a text, `spanLiteral` ends a run exactly if it ends no line and no tag begins
in it (`RunsUpTo`). -/
theorem spanLiteral_writeAll_iff {run : List Char} {tokens : List Token}
    (noText : ∀ other, tokens.head? ≠ some (.text other)) :
    spanLiteral delimiters.opening.toList (run ++ (writeAll delimiters tokens).toList) =
        (run, (writeAll delimiters tokens).toList) ↔
      '\n' ∉ run ∧ RunsUpTo delimiters run tokens := by
  have notEmpty := delimiters.opening_isMarker.1
  have unbroken := delimiters.opening_isMarker.unbroken
  rw [spanLiteral_eq_iff]
  cases tokens with
  | nil =>
    have stops : (writeAll delimiters []).toList = [] ∨
        (writeAll delimiters []).toList.head? = some '\n' := Or.inl rfl
    rw [forall_drop_iff_notHeld notEmpty unbroken stops, RunsUpTo]
    simp
  | cons token rest =>
    cases token with
    | text content => exact absurd rfl (noText content)
    | newline =>
      have lineEnd : (writeAll delimiters (.newline :: rest)).toList.head? = some '\n' := by
        simp [write]
      rw [forall_drop_iff_notHeld notEmpty unbroken (Or.inr lineEnd), RunsUpTo]
      simp only [lineEnd, true_and, true_or, or_true, and_true]
    | tag body number =>
      have opens : ∃ following, (writeAll delimiters (.tag body number :: rest)).toList =
          delimiters.opening.toList ++ following := by
        rw [toList_writeAll_cons, toList_write_tag, List.append_assoc]
        exact ⟨_, rfl⟩
      obtain ⟨following, opens⟩ := opens
      rw [opens, RunsUpTo, endsAtFirst_iff_following following, List.append_assoc]
      simp

/-- A sequence is `Canonical` token by token: the first one `Fits`, and the others are canonical
after it. -/
theorem canonical_cons_iff {token : Token} {rest : List Token} :
    Canonical delimiters line (token :: rest) ↔
      Fits delimiters line [] token rest ∧
        Canonical delimiters (line + (token.write delimiters).toList.count '\n') rest := by
  have later : ∀ before other after, Fits delimiters line (token :: before) other after ↔
      Fits delimiters (line + (token.write delimiters).toList.count '\n') before other after := by
    intro before other after
    cases other with
    | text | newline => rfl
    | tag body number =>
      simp only [Fits, toList_writeAll_cons, List.count_append, Nat.add_assoc]
  constructor
  · intro canonical
    refine ⟨canonical [] token rest rfl, ?_⟩
    intro before other after same
    exact (later before other after).1 (canonical (token :: before) other after (by rw [same]; rfl))
  · rintro ⟨fits, canonical⟩ before other after same
    cases before with
    | nil =>
      obtain ⟨rfl, rfl⟩ := List.cons.inj same
      exact fits
    | cons head before =>
      obtain ⟨rfl, rfl⟩ := List.cons.inj same
      exact (later before other after).2 (canonical before other after rfl)

theorem canonical_nil : Canonical delimiters line [] := by
  intro before token after same
  simp at same

theorem canonical_newline_iff {rest : List Token} :
    Canonical delimiters line (.newline :: rest) ↔ Canonical delimiters (line + 1) rest := by
  rw [canonical_cons_iff]
  simp [Fits, write]

theorem canonical_tag_iff {body : String} {number : Nat} {rest : List Token} :
    Canonical delimiters line (.tag body number :: rest) ↔
      number = line ∧ EndsAtFirst delimiters.closing.toList body.toList ∧
        Canonical delimiters (line + body.toList.count '\n') rest := by
  rw [canonical_cons_iff, count_write_tag]
  simp [Fits, and_assoc, and_left_comm]

theorem canonical_text_iff {content : String} {rest : List Token} :
    Canonical delimiters line (.text content :: rest) ↔
      Fits delimiters line [] (.text content) rest ∧ Canonical delimiters line rest := by
  rw [canonical_cons_iff]
  refine and_congr_right fun fits => ?_
  obtain ⟨_, unbroken, _, _⟩ := fits
  rw [write, List.count_eq_zero_of_not_mem unbroken, Nat.add_zero]

/-- A literal run fits in front of `Canonical` tokens if it ends where it has to. -/
theorem canonical_consText {run : List Char} {tokens : List Token}
    (noText : ∀ other, tokens.head? ≠ some (.text other)) (unbroken : '\n' ∉ run)
    (runsUpTo : RunsUpTo delimiters run tokens) (canonical : Canonical delimiters line tokens) :
    Canonical delimiters line (consText run tokens) := by
  unfold consText
  split
  · exact canonical
  · next some =>
    rw [List.isEmpty_iff] at some
    have fits : Fits delimiters line [] (.text (String.ofList run)) tokens := by
      refine ⟨?_, ?_, noText, ?_⟩
      · simpa using some
      · rw [String.toList_ofList]
        exact unbroken
      · rw [String.toList_ofList]
        exact runsUpTo
    exact canonical_text_iff.2 ⟨fits, canonical⟩

theorem toList_writeAll_consText (run : List Char) (tokens : List Token) :
    (writeAll delimiters (consText run tokens)).toList =
      run ++ (writeAll delimiters tokens).toList := by
  unfold consText
  split
  · next none =>
    rw [List.isEmpty_iff.1 none]
    rfl
  · simp [write]

/-- No tag begins in an empty run (`RunsUpTo`). -/
theorem runsUpTo_nil (tokens : List Token) : RunsUpTo delimiters [] tokens := by
  have notHeld : ¬ delimiters.opening.toList <:+: [] := by
    rw [List.infix_nil]
    exact delimiters.opening_isMarker.1
  unfold RunsUpTo
  split
  · exact endsAtFirst_nil _
  all_goals exact notHeld

/-- A `Canonical` sequence begins with a literal run, perhaps an empty one, which ends where it has
to. -/
theorem Canonical.exists_run {tokens : List Token} (canonical : Canonical delimiters line tokens) :
    ∃ run rest, tokens = consText run rest ∧ (∀ other, rest.head? ≠ some (.text other)) ∧
      rest.length ≤ tokens.length ∧ Canonical delimiters line rest ∧
      spanLiteral delimiters.opening.toList (run ++ (writeAll delimiters rest).toList) =
        (run, (writeAll delimiters rest).toList) := by
  have withoutRun : (∀ other, tokens.head? ≠ some (.text other)) →
      spanLiteral delimiters.opening.toList ([] ++ (writeAll delimiters tokens).toList) =
        ([], (writeAll delimiters tokens).toList) := by
    intro noText
    exact (spanLiteral_writeAll_iff noText).2 ⟨List.not_mem_nil, runsUpTo_nil tokens⟩
  match tokens with
  | .text content :: rest =>
    obtain ⟨⟨some, unbroken, noText, runsUpTo⟩, following⟩ := canonical_text_iff.1 canonical
    refine ⟨content.toList, rest, ?_, noText, Nat.le_succ _, following,
      (spanLiteral_writeAll_iff noText).2 ⟨unbroken, runsUpTo⟩⟩
    simp [consText, some]
  | [] =>
    have noText : ∀ other, ([] : List Token).head? ≠ some (.text other) := by simp
    exact ⟨[], [], rfl, noText, Nat.le_refl _, canonical, withoutRun noText⟩
  | .newline :: rest =>
    have noText : ∀ other, (Token.newline :: rest).head? ≠ some (.text other) := by simp
    exact ⟨[], .newline :: rest, rfl, noText, Nat.le_refl _, canonical, withoutRun noText⟩
  | .tag body number :: rest =>
    have noText : ∀ other, (Token.tag body number :: rest).head? ≠ some (.text other) := by simp
    exact ⟨[], .tag body number :: rest, rfl, noText, Nat.le_refl _, canonical, withoutRun noText⟩

/-- The marker of a tag is no line end. -/
theorem exists_opening_eq_cons (delimiters : Delimiters) :
    ∃ head tail, delimiters.opening.toList = head :: tail ∧ head ≠ '\n' := by
  obtain ⟨head, tail, opening⟩ := List.exists_cons_of_ne_nil delimiters.opening_isMarker.1
  refine ⟨head, tail, opening, ?_⟩
  rintro rfl
  exact delimiters.opening_isMarker.unbroken (opening ▸ List.mem_cons_self)

/-- What is `Scanned` is `Canonical`, and written it is the text again. -/
theorem Scanned.canonical {text : List Char} {tokens : List Token}
    (scanned : Scanned delimiters line text tokens) :
    Canonical delimiters line tokens ∧ (writeAll delimiters tokens).toList = text := by
  induction scanned with
  | @last line text run cut =>
    have noText : ∀ other, ([] : List Token).head? ≠ some (.text other) := by simp
    have whole := eq_append_of_spanLiteral cut
    rw [whole] at cut
    obtain ⟨unbroken, runsUpTo⟩ := (spanLiteral_writeAll_iff noText).1 cut
    refine ⟨canonical_consText noText unbroken runsUpTo canonical_nil, ?_⟩
    rw [toList_writeAll_consText, whole, toList_writeAll_nil]
  | @lineEnd line text run rest tokens cut _ inductionHypothesis =>
    have noText : ∀ other, (Token.newline :: tokens).head? ≠ some (.text other) := by simp
    obtain ⟨following, written⟩ := inductionHypothesis
    have here : (writeAll delimiters (.newline :: tokens)).toList = '\n' :: rest := by
      simp [write, written]
    have whole := eq_append_of_spanLiteral cut
    rw [whole, ← here] at cut
    obtain ⟨unbroken, runsUpTo⟩ := (spanLiteral_writeAll_iff noText).1 cut
    refine ⟨canonical_consText noText unbroken runsUpTo (canonical_newline_iff.2 following), ?_⟩
    rw [toList_writeAll_consText, here, whole]
  | @tag line text run rest body after head tokens cut marker read _ inductionHypothesis =>
    have noText : ∀ other,
        (Token.tag (String.ofList body) line :: tokens).head? ≠ some (.text other) := by simp
    obtain ⟨following, written⟩ := inductionHypothesis
    obtain ⟨opened, markerFirst⟩ : delimiters.opening.toList <+: head :: rest := by
      rw [← List.isPrefixOf_iff_prefix]
      exact (stops_of_spanLiteral cut).resolve_left marker
    rw [← markerFirst, List.drop_left] at read
    obtain ⟨tagText, first⟩ := readBody_eq_ok_iff.1 read
    have here : (writeAll delimiters (.tag (String.ofList body) line :: tokens)).toList =
        head :: rest := by
      rw [toList_writeAll_cons, toList_write_tag, written, String.toList_ofList, List.append_assoc,
        ← tagText, markerFirst]
    have whole := eq_append_of_spanLiteral cut
    rw [whole, ← here] at cut
    obtain ⟨unbroken, runsUpTo⟩ := (spanLiteral_writeAll_iff noText).1 cut
    refine ⟨canonical_consText noText unbroken runsUpTo (canonical_tag_iff.2 ⟨rfl, ?_, ?_⟩), ?_⟩
    · rw [String.toList_ofList]
      exact first
    · rw [String.toList_ofList]
      exact following
    · rw [toList_writeAll_consText, here, whole]

/-- A line end is `Scanned` from its written form. -/
theorem Scanned.newline_writeAll {run : List Char} {rest : List Token}
    (cut : spanLiteral delimiters.opening.toList
      (run ++ (writeAll delimiters (.newline :: rest)).toList) =
        (run, (writeAll delimiters (.newline :: rest)).toList))
    (following : Scanned delimiters (line + 1) (writeAll delimiters rest).toList rest) :
    Scanned delimiters line (run ++ (writeAll delimiters (.newline :: rest)).toList)
      (consText run (.newline :: rest)) := by
  have here : (writeAll delimiters (.newline :: rest)).toList =
      '\n' :: (writeAll delimiters rest).toList := by
    simp [write]
  rw [here] at cut ⊢
  exact .lineEnd cut following

/-- A tag whose body ends at the first closing marker (`EndsAtFirst`) is scanned from its written
form. -/
theorem Scanned.tag_writeAll {run : List Char} {body : String} {rest : List Token}
    (cut : spanLiteral delimiters.opening.toList
      (run ++ (writeAll delimiters (.tag body line :: rest)).toList) =
        (run, (writeAll delimiters (.tag body line :: rest)).toList))
    (first : EndsAtFirst delimiters.closing.toList body.toList)
    (following : Scanned delimiters (line + body.toList.count '\n')
      (writeAll delimiters rest).toList rest) :
    Scanned delimiters line (run ++ (writeAll delimiters (.tag body line :: rest)).toList)
      (consText run (.tag body line :: rest)) := by
  obtain ⟨head, tail, opening, marker⟩ := exists_opening_eq_cons delimiters
  have here : (writeAll delimiters (.tag body line :: rest)).toList =
      delimiters.opening.toList ++ (body.toList ++ delimiters.closing.toList ++
        brace delimiters.closing.toList body.toList ++ (writeAll delimiters rest).toList) := by
    rw [toList_writeAll_cons, toList_write_tag, List.append_assoc]
  have begins : (writeAll delimiters (.tag body line :: rest)).toList =
      head :: (tail ++ (body.toList ++ delimiters.closing.toList ++
        brace delimiters.closing.toList body.toList ++ (writeAll delimiters rest).toList)) := by
    rw [here, opening, List.cons_append]
  have read : readBody delimiters.closing.toList line
      ((writeAll delimiters (.tag body line :: rest)).toList.drop
        delimiters.opening.toList.length) =
      .ok (body.toList, (writeAll delimiters rest).toList) := by
    rw [here, List.drop_left]
    exact readBody_eq_ok_iff.2 ⟨rfl, first⟩
  rw [begins] at cut read ⊢
  have scanned := Scanned.tag cut marker read following
  rwa [String.ofList_toList] at scanned

/-- A `Canonical` sequence is scanned from what `writeAll` writes. -/
theorem Canonical.scanned {line : Nat} {tokens : List Token}
    (canonical : Canonical delimiters line tokens) :
    Scanned delimiters line (writeAll delimiters tokens).toList tokens := by
  obtain ⟨run, rest, whole, noText, bounded, following, cut⟩ := canonical.exists_run
  rw [whole, toList_writeAll_consText]
  cases rest with
  | nil => exact .last cut
  | cons token later =>
    cases token with
    | text content => exact absurd rfl (noText content)
    | newline =>
      exact Scanned.newline_writeAll cut (Canonical.scanned (canonical_newline_iff.1 following))
    | tag body number =>
      obtain ⟨rfl, first, afterTag⟩ := canonical_tag_iff.1 following
      exact Scanned.tag_writeAll cut first (Canonical.scanned afterTag)
  termination_by tokens.length

/-- The tokens that `scan` finds in a source are `Canonical`, and written they are the source again.
-/
theorem canonical_of_scan {source : String} {tokens : List Token}
    (scanned : scan delimiters source = .ok tokens) :
    Canonical delimiters 1 tokens ∧ writeAll delimiters tokens = source := by
  obtain ⟨canonical, written⟩ := ((scanFrom_eq_ok_iff _ _ _ _).1 scanned).canonical
  exact ⟨canonical, String.toList_inj.1 written⟩

/-- What `scan` gives is the one `Canonical` sequence of tokens that is written as the text: a text
is scanned to some tokens exactly if they are canonical, counted from the first line, and written
one after the other by `writeAll` they are the text. -/
theorem scan_eq_ok_iff (delimiters : Delimiters) (source : String) (tokens : List Token) :
    scan delimiters source = .ok tokens ↔
      Canonical delimiters 1 tokens ∧ writeAll delimiters tokens = source := by
  rw [scan, scanFrom_eq_ok_iff, ← String.toList_inj]
  constructor
  · exact Scanned.canonical
  · rintro ⟨canonical, written⟩
    rw [← written]
    exact canonical.scanned

end Mustache.Token
