import Mustache.Template.Delimiters
import Mustache.Template.StructuralError
import Mustache.Text.Search

/-!
# Tokens

A template read as a sequence of literal runs, line ends and tags. A tag runs from the first
opening marker on its line to the first closing marker after it, over line ends if need be.
A tag whose body starts with a brace takes one brace more after a closing marker that ends in
one. `Token.scan` reads the sequence, `Token.write` writes it back.
-/

namespace Mustache

/-- One piece of a template's text. -/
inductive Token where
  /-- Literal text within one line. -/
  | text (content : String)
  /-- The end of a line. -/
  | newline
  /-- What stands between two markers, and the line of the first. -/
  | tag (body : String) (line : Nat)
  deriving Repr, DecidableEq, Inhabited

namespace Token

/-- Whether a tag with this body is followed by a brace after its closing marker. -/
def takesBrace (closing body : List Char) : Bool :=
  (Text.trimStart body).head? == some '\x7b' && closing.getLast? == some '\x7d'

/-- A tag's body and the text after the tag, from the text after the opening marker. -/
def readBody (closing : List Char) (line : Nat) (text : List Char) :
    Except StructuralError (List Char × List Char) :=
  match Text.splitAtMarker? closing text with
  | none => .error (.unterminated line)
  | some (body, after) =>
    if takesBrace closing body then
      match after with
      | '\x7d' :: rest => .ok (body, rest)
      | _ => .error (.unterminatedUnescaped line)
    else .ok (body, after)

/-- What `readBody` leaves after a tag is no longer than the text from the tag's body on. -/
theorem length_readBody_le {closing text body after : List Char} {line : Nat}
    (read : readBody closing line text = .ok (body, after)) : after.length ≤ text.length := by
  unfold readBody at read
  split at read
  · simp at read
  · next cut =>
    have lengths := congrArg List.length (Text.splitAtMarker?_eq_some cut)
    simp only [List.length_append] at lengths
    split at read
    · split at read
      · simp only [Except.ok.injEq, Prod.mk.injEq] at read
        obtain ⟨rfl, rfl⟩ := read
        simp only [List.length_cons] at lengths
        omega
      · simp at read
    · simp only [Except.ok.injEq, Prod.mk.injEq] at read
      obtain ⟨rfl, rfl⟩ := read
      omega

/-- A literal run in front of a sequence of tokens; an empty run adds nothing. -/
def consText (run : List Char) (tokens : List Token) : List Token :=
  if run.isEmpty then tokens else .text (String.ofList run) :: tokens

/-- The tokens of a text whose first line has the number `line`. -/
def scanFrom (delimiters : Delimiters) (line : Nat) (text : List Char) :
    Except StructuralError (List Token) :=
  match cut : Text.spanLiteral delimiters.opening.toList text with
  | (run, []) => .ok (consText run [])
  | (run, head :: rest) =>
    have shorter : (head :: rest).length ≤ text.length := by
      simpa [cut] using Text.length_spanLiteral_le delimiters.opening.toList text
    if head == '\n' then
      match scanFrom delimiters (line + 1) rest with
      | .error error => .error error
      | .ok tokens => .ok (consText run (.newline :: tokens))
    else
      match found : readBody delimiters.closing.toList line
          ((head :: rest).drop delimiters.opening.toList.length) with
      | .error error => .error error
      | .ok (body, after) =>
        have further : after.length < text.length := by
          have bounded := length_readBody_le found
          have marker := List.length_pos_iff.2 delimiters.opening_isMarker.1
          simp only [List.length_drop, List.length_cons] at bounded shorter
          omega
        match scanFrom delimiters (line + body.count '\n') after with
        | .error error => .error error
        | .ok tokens => .ok (consText run (.tag (String.ofList body) line :: tokens))
  termination_by text.length

/-- The tokens of a template. -/
def scan (delimiters : Delimiters) (source : String) : Except StructuralError (List Token) :=
  scanFrom delimiters 1 source.toList

/-- A token as it stands in a template. -/
def write (delimiters : Delimiters) : Token → String
  | .text content => content
  | .newline => "\n"
  | .tag body _ =>
    delimiters.opening ++ body ++ delimiters.closing ++
      if takesBrace delimiters.closing.toList body.toList then "\x7d" else ""

end Token

end Mustache
