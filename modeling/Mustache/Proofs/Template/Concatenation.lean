import Mustache.Proofs.Template.Renumbering

/-!
# Templates one after the other

A template that ends with a line can be read by itself, and so can what follows it. So where the
first of two texts is a template that ends with a line, their concatenation is a template
exactly if the second text is one: the first tree, and after it the second one with its lines
counted from where the first ended.
-/

namespace Mustache

namespace Template

/-- Tokens that spell a template and end with a line are read by themselves by `ofTokens`. -/
theorem ofTokens_append {first : List Token} {template : Template}
    (read : ofTokens first = .ok template)
    (ended : first = [] ∨ first.getLast? = some .newline) (second : List Token) :
    ofTokens (first ++ second) = (ofTokens second).map template.append := by
  rw [ofTokens_eq] at read
  have spelled := (ofItems_eq_ok_iff _ _).1 read
  have itemsEnded : Layout.EndsLine Item.isNewline (first.map Item.ofToken) := by
    rcases ended with rfl | lastToken
    · rfl
    · rw [Layout.EndsLine, List.getLast?_map, lastToken]
      rfl
  rw [ofTokens_eq, ofTokens_eq, List.map_append,
    Layout.elide_append spelled.paired.of_elide itemsEnded, ofItems, ofItems,
    outcome_append spelled]
  cases outcome none (Layout.elide (second.map Item.ofToken)) <;> rfl

/-- A template that ends with a line is read by itself by `parse`, and what follows it as if it
stood alone, but for the lines. -/
theorem parse_append {delimiters : Delimiters} {first : String} {template : Template}
    (parsed : parse delimiters first = .ok template)
    (ended : Layout.EndsLine (· == '\n') first.toList) (second : String) :
    parse delimiters (first ++ second) =
      ((parse delimiters second).map fun following =>
        template.append (following.addLines (first.toList.count '\n'))).mapError
          (StructuralError.addLines (first.toList.count '\n')) := by
  cases scanned : Token.scan delimiters first with
  | error =>
    rw [parse, scanned] at parsed
    cases parsed
  | ok tokens =>
    rw [parse, scanned] at parsed
    have read : ofTokens tokens = .ok template := parsed
    have tokensOf := (Token.scanFrom_eq_ok_iff delimiters 1 first.toList tokens).1 scanned
    have tokensEnded : tokens = [] ∨ tokens.getLast? = some .newline :=
      (tokensOf.endsLine ended).imp_left And.right
    have scannedBoth : Token.scan delimiters (first ++ second) =
        ((Token.scan delimiters second).map fun following =>
          tokens ++ following.map (Token.addLines (first.toList.count '\n'))).mapError
            (StructuralError.addLines (first.toList.count '\n')) := by
      rw [Token.scan, String.toList_append, tokensOf.append ended, Token.scanFrom_addLines,
        Token.scan]
      cases Token.scanFrom delimiters 1 second.toList <;> rfl
    rw [parse, parse, scannedBoth]
    cases Token.scan delimiters second with
    | error => rfl
    | ok following =>
      have readBoth := ofTokens_append read tokensEnded
        (following.map (Token.addLines (first.toList.count '\n')))
      rw [ofTokens_addLines] at readBoth
      simp only [Except.map, Except.mapError, bind, Except.bind, readBoth]
      cases ofTokens following <;> rfl

end Template

end Mustache
