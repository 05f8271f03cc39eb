import Mustache.Text.Quoted

/-!
# Quoted text reads in one way

`readQuotedChar` takes one character back off a quoted text. Since it undoes `quoteChar`
whatever comes after, the written forms of two characters can only begin alike if the
characters are the same, and a quoted text tells where it ends.
-/

namespace Mustache.Text

/-- The number that a lower-case hexadecimal digit stands for. -/
def hexDigitValue (digit : Char) : Nat :=
  if digit.toNat < 'a'.toNat then digit.toNat - '0'.toNat else digit.toNat - 'a'.toNat + 10

/-- The number that lower-case hexadecimal digits stand for. -/
def hexNumber (digits : List Char) : Nat :=
  digits.foldl (fun number digit => 16 * number + hexDigitValue digit) 0

theorem hexDigitValue_digitChar {number : Nat} (small : number < 16) :
    hexDigitValue number.digitChar = number := by
  have everyDigit : ∀ digit : Fin 16, hexDigitValue digit.val.digitChar = digit.val := by decide
  exact everyDigit ⟨number, small⟩

theorem digitChar_ne_brace {number : Nat} (small : number < 16) :
    number.digitChar ≠ '\x7d' := by
  have everyDigit : ∀ digit : Fin 16, digit.val.digitChar ≠ '\x7d' := by decide
  exact everyDigit ⟨number, small⟩

/-- The digits that `hexDigits` writes for a number stand for it. -/
theorem hexNumber_hexDigits (number : Nat) : hexNumber (hexDigits number) = number := by
  induction number using Nat.strongRecOn with
  | ind number inductionHypothesis =>
    rw [hexDigits, Nat.toDigits_eq_if (by decide)]
    split
    · next small =>
      simp [hexNumber, hexDigitValue_digitChar small]
    · next large =>
      have front : hexNumber (Nat.toDigits 16 (number / 16)) = number / 16 :=
        inductionHypothesis (number / 16) (by omega)
      rw [hexNumber, List.foldl_append, ← hexNumber, front]
      simp only [List.foldl_cons, List.foldl_nil]
      rw [hexDigitValue_digitChar (Nat.mod_lt _ (by decide))]
      omega

/-- No digit of `hexDigits` is a closing brace, so the brace after a code point ends it. -/
theorem brace_notMem_hexDigits (number : Nat) : '\x7d' ∉ hexDigits number := by
  induction number using Nat.strongRecOn with
  | ind number inductionHypothesis =>
    rw [hexDigits, Nat.toDigits_eq_if (by decide)]
    split
    · next small =>
      rw [List.mem_singleton]
      exact (digitChar_ne_brace small).symm
    · next large =>
      rw [List.mem_append, List.mem_singleton]
      rintro (inFront | atEnd)
      · exact inductionHypothesis (number / 16) (by omega) inFront
      · exact digitChar_ne_brace (Nat.mod_lt _ (by decide)) atEnd.symm

/-- The character that a letter after a backslash stands for. -/
def unescapeLetter : Char → Char
  | '0' => '\x00'
  | 't' => '\t'
  | 'r' => '\r'
  | 'n' => '\n'
  | other => other

/-- The first character of a text that `quoted` has written and the rest of the text. -/
def readQuotedChar : List Char → Option (Char × List Char)
  | [] => none
  | '\\' :: 'u' :: '\x7b' :: rest =>
    some (Char.ofNat (hexNumber (rest.takeWhile (· != '\x7d'))),
      (rest.dropWhile (· != '\x7d')).drop 1)
  | '\\' :: letter :: rest => some (unescapeLetter letter, rest)
  | character :: rest => some (character, rest)

/-- A character that is written by its code point is read back by `readQuotedChar`. -/
theorem readQuotedChar_codePoint (character : Char) (rest : List Char) :
    readQuotedChar
      ('\\' :: 'u' :: '\x7b' :: (hexDigits character.toNat ++ '\x7d' :: rest)) =
      some (character, rest) := by
  have digitsPass : ∀ digit ∈ hexDigits character.toNat, (digit != '\x7d') = true := by
    intro digit member
    rw [bne_iff_ne]
    rintro rfl
    exact brace_notMem_hexDigits _ member
  simp only [readQuotedChar]
  rw [List.takeWhile_append_of_pos digitsPass, List.dropWhile_append_of_pos digitsPass]
  simp [hexNumber_hexDigits]

/-- A character that `quoteChar` has written is read back by `readQuotedChar`, whatever comes after
it. -/
theorem readQuotedChar_quoteChar (character : Char) (rest : List Char) :
    readQuotedChar (quoteChar '"' character ++ rest) = some (character, rest) := by
  by_cases backslash : character = '\\'
  · subst backslash
    rfl
  · unfold quoteChar
    split
    · next letter escape =>
      unfold letterEscape? at escape
      split at escape <;> cases escape <;> rfl
    · split
      · next mark =>
        rw [beq_iff_eq] at mark
        subst mark
        rfl
      · split
        · rw [List.singleton_append, readQuotedChar]
          · exact fun _ same => absurd same backslash
          · exact fun _ _ same => absurd same backslash
        · simpa using readQuotedChar_codePoint character rest

/-- The forms in which `quoteChar` writes two characters begin alike only if the characters are the
same. -/
theorem quoteChar_append_inj {left right : Char} {leftRest rightRest : List Char}
    (same : quoteChar '"' left ++ leftRest = quoteChar '"' right ++ rightRest) :
    left = right ∧ leftRest = rightRest := by
  have read := congrArg readQuotedChar same
  rw [readQuotedChar_quoteChar, readQuotedChar_quoteChar] at read
  simpa using read

/-- The form in which `quoteChar` writes a character does not begin with the quotation mark. -/
theorem quoteChar_append_ne_mark (character : Char) (rest after : List Char) :
    quoteChar '"' character ++ rest ≠ '"' :: after := by
  unfold quoteChar
  split
  · simp
  · split
    · simp
    · next notMark =>
      split
      · intro same
        exact notMark (by simpa using (List.cons.inj same).1)
      · simp

/-- Two quoted texts that begin alike up to the closing mark are the same text. -/
theorem quoteChars_append_inj {left right leftRest rightRest : List Char}
    (same : quoteChars '"' left ++ '"' :: leftRest = quoteChars '"' right ++ '"' :: rightRest) :
    left = right ∧ leftRest = rightRest := by
  induction left generalizing right with
  | nil =>
    cases right with
    | nil => simpa [quoteChars] using same
    | cons head tail =>
      rw [quoteChars, quoteChars, List.flatMap_nil, List.nil_append, List.flatMap_cons,
        List.append_assoc] at same
      exact absurd same.symm (quoteChar_append_ne_mark _ _ _)
  | cons head tail inductionHypothesis =>
    cases right with
    | nil =>
      rw [quoteChars, quoteChars, List.flatMap_nil, List.nil_append, List.flatMap_cons,
        List.append_assoc] at same
      exact absurd same (quoteChar_append_ne_mark _ _ _)
    | cons otherHead otherTail =>
      rw [quoteChars, quoteChars, List.flatMap_cons, List.flatMap_cons, List.append_assoc,
        List.append_assoc] at same
      obtain ⟨rfl, tails⟩ := quoteChar_append_inj same
      obtain ⟨rfl, rests⟩ := inductionHypothesis tails
      exact ⟨rfl, rests⟩

/-- A text that `quoted` has put in quotation marks tells where it ends. -/
theorem quoted_append_inj {left right : String} {leftRest rightRest : List Char}
    (same : (quoted left).toList ++ leftRest = (quoted right).toList ++ rightRest) :
    left = right ∧ leftRest = rightRest := by
  simp only [quoted, String.toList_ofList, List.cons_append, List.append_assoc,
    List.nil_append, List.cons.injEq, true_and] at same
  obtain ⟨texts, rests⟩ := quoteChars_append_inj same
  exact ⟨String.toList_inj.1 texts, rests⟩

end Mustache.Text
