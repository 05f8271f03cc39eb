import Mustache.Json.Printer

/-!
# Written documents are read back

A document without numbers, written in either layout, is read back as the tree with the same
parts. A string is read character by character, for no character is written as something that
ends the string; a value tells by itself where it ends, so whatever follows it is left.
-/

namespace Mustache.Document

open Json Tree

mutual

/-- The `Tree` as which the text of a document is read. -/
def tree : Document → Tree
  | .null => .null
  | .bool value => .bool value
  | .number value => .number (some value)
  | .string text => .string (some text)
  | .array items => .array (treeItems items)
  | .object members => .object (treeMembers members)

/-- The trees of a list of documents. -/
def treeItems : List Document → List Tree
  | [] => []
  | item :: rest => tree item :: treeItems rest

/-- The trees of named documents. -/
def treeMembers : List (String × Document) → List (Option String × Tree)
  | [] => []
  | (name, value) :: rest => (some name, tree value) :: treeMembers rest

end

mutual

/-- A document in which no number occurs. -/
def Numberless : Document → Prop
  | .number _ => False
  | .array items => NumberlessItems items
  | .object members => NumberlessMembers members
  | .null | .bool _ | .string _ => True

/-- Documents in which no number occurs. -/
def NumberlessItems : List Document → Prop
  | [] => True
  | item :: rest => Numberless item ∧ NumberlessItems rest

/-- Named documents in which no number occurs. -/
def NumberlessMembers : List (String × Document) → Prop
  | [] => True
  | (_, value) :: rest => Numberless value ∧ NumberlessMembers rest

end

theorem treeMembers_eq (members : List (String × Document)) :
    treeMembers members = members.map fun (name, value) => (some name, tree value) := by
  induction members with
  | nil => rfl
  | cons member rest inductionHypothesis =>
    rw [treeMembers, inductionHypothesis]
    rfl

theorem numberlessMembers_iff (members : List (String × Document)) :
    NumberlessMembers members ↔ ∀ name value, (name, value) ∈ members → value.Numberless := by
  induction members with
  | nil => simp [NumberlessMembers]
  | cons member rest inductionHypothesis =>
    rw [NumberlessMembers, inductionHypothesis]
    constructor
    · rintro ⟨first, others⟩ name value (_ | ⟨_, later⟩)
      · exact first
      · exact others name value later
    · intro all
      exact ⟨all _ _ List.mem_cons_self, fun name value later =>
        all name value (List.mem_cons_of_mem _ later)⟩

section Strings

/-- The digits by which a control character is written give its code. -/
theorem hexValues?_control : ∀ code < 0x20,
    hexValues? '0' '0' (Text.Hex.digit (code / 16)) (Text.Hex.digit code) = some code := by
  decide

/-- After a backslash a letter stands for a character. -/
theorem readCodes?_letter {letter character : Char} (stands : escaped? letter = some character)
    (rest : List Char) :
    readCodes? ('\\' :: letter :: rest) =
      (readCodes? rest).map fun (codes, after) => (character.toNat :: codes, after) := by
  rw [readCodes?, stands]
  · cases readCodes? rest <;> rfl
  · rintro _ _ _ _ _ rfl
    cases stands

/-- A character that is not marked stands for itself. -/
theorem readCodes?_plain {character : Char} (noQuote : character ≠ '"')
    (noBackslash : character ≠ '\\') (printable : ¬ character.toNat < 0x20) (rest : List Char) :
    readCodes? (character :: rest) =
      (readCodes? rest).map fun (codes, after) => (character.toNat :: codes, after) := by
  rw [readCodes?, if_neg]
  · cases readCodes? rest <;> rfl
  · simp [printable, noBackslash]
  · exact noQuote
  · rintro _ _ _ _ _ rfl
    exact absurd rfl noBackslash
  · rintro _ _ rfl
    exact absurd rfl noBackslash

/-- A character is read by `readCodes?` as `writeCharacter` wrote it. -/
theorem readCodes?_writeCharacter (character : Char) (rest : List Char) :
    readCodes? (writeCharacter character ++ rest) =
      (readCodes? rest).map fun (codes, after) => (character.toNat :: codes, after) := by
  unfold writeCharacter
  cases letter : escapeLetter? character with
  | some letter' =>
    refine readCodes?_letter ?_ rest
    unfold escapeLetter? at letter
    split at letter <;> cases letter <;> rfl
  | none =>
    simp only
    split
    · next control =>
      have code : (UInt8.ofNat character.toNat).toNat = character.toNat := by
        rw [UInt8.toNat_ofNat']
        omega
      simp only [Text.Hex.encodeByte, code, List.cons_append, List.nil_append, readCodes?,
        hexValues?_control _ control]
      cases readCodes? rest <;> rfl
    · next printable =>
      refine readCodes?_plain ?_ ?_ printable rest <;> rintro rfl <;> cases letter

/-- The codes of a string are those of the characters that were written. -/
theorem readCodes?_written (characters rest : List Char) :
    readCodes? (characters.flatMap writeCharacter ++ '"' :: rest) =
      some (characters.map Char.toNat, rest) := by
  induction characters with
  | nil => rw [List.flatMap_nil, List.nil_append, readCodes?, List.map_nil]
  | cons character others inductionHypothesis =>
    rw [List.flatMap_cons, List.append_assoc, readCodes?_writeCharacter, inductionHypothesis]
    rfl

/-- The codes of characters stand for these characters. -/
theorem charactersOfCodes?_map_toNat (characters : List Char) :
    charactersOfCodes? (characters.map Char.toNat) = some characters := by
  induction characters with
  | nil => rw [List.map_nil, charactersOfCodes?]
  | cons character others inductionHypothesis =>
    have valid : character.toNat < 0xd800 ∨ 0xdfff < character.toNat ∧ character.toNat < 0x110000 :=
      character.valid
    have noHalf : ∀ low high, 0xd800 ≤ low → high ≤ 0xdfff →
        ¬ (decide (low ≤ character.toNat) && decide (character.toNat ≤ high)) = true := by
      intro low high lowBound highBound within
      rw [Bool.and_eq_true, decide_eq_true_eq, decide_eq_true_eq] at within
      omega
    rw [List.map_cons, charactersOfCodes?.eq_def]
    simp only
    rw [if_neg (noHalf 0xd800 0xdbff (by decide) (by decide)),
      if_neg (noHalf 0xdc00 0xdfff (by decide) (by decide)), inductionHypothesis,
      Option.map_some, Char.ofNat_toNat]

/-- A string is read by `readString?` as it was written. -/
theorem readString?_written (text : String) (rest : List Char) :
    readString? (text.toList.flatMap writeCharacter ++ '"' :: rest) = some (some text, rest) := by
  rw [readString?, readCodes?_written, Option.map_some]
  simp only
  rw [charactersOfCodes?_map_toNat, Option.map_some, String.ofList_toList]

/-- A string begins with a quotation mark and ends with one. -/
theorem writeString_append (text : String) (rest : List Char) :
    writeString text ++ rest = '"' :: (text.toList.flatMap writeCharacter ++ '"' :: rest) := by
  rw [writeString, List.cons_append, List.cons_append, List.append_assoc, List.singleton_append]

end Strings

section Values

/-- Blanks are passed over. -/
theorem skipBlanks_lineBreak (style : Style) (depth : Nat) (text : List Char) :
    skipBlanks (style.lineBreak depth ++ text) = skipBlanks text := by
  refine List.dropWhile_append_of_pos ?_
  intro character member
  cases style with
  | compact => cases member
  | pretty =>
    rcases List.mem_cons.1 member with rfl | member
    · rfl
    · rw [List.eq_of_mem_replicate member]
      rfl

/-- The characters with which a value may start, unless it is a number. -/
def valueStarts : List Char := ['n', 't', 'f', '"', '[', '\x7b']

/-- A document that `writeAt` has written starts as a value does (`valueStarts`). -/
theorem exists_writeAt_eq_cons (style : Style) (depth : Nat) {document : Document}
    (plain : document.Numberless) :
    ∃ head ∈ valueStarts, ∃ rest, writeAt style depth document = head :: rest := by
  cases document with
  | null => exact ⟨'n', by decide, _, by rw [writeAt]⟩
  | bool value =>
    cases value with
    | false => exact ⟨'f', by decide, _, by rw [writeAt]⟩
    | true => exact ⟨'t', by decide, _, by rw [writeAt]⟩
  | number => exact plain.elim
  | string text => exact ⟨'"', by decide, _, by rw [writeAt, writeString]; rfl⟩
  | array items =>
    cases items with
    | nil => exact ⟨'[', by decide, _, by rw [writeAt]⟩
    | cons => exact ⟨'[', by decide, _, by rw [writeAt]; rfl⟩
  | object members =>
    cases members with
    | nil => exact ⟨'\x7b', by decide, _, by rw [writeAt]⟩
    | cons => exact ⟨'\x7b', by decide, _, by rw [writeAt]; rfl⟩

/-- What starts as a value does starts with no blank, so `skipBlanks` leaves it alone, and closes no
bracket. -/
theorem skipBlanks_cons_of_valueStarts : ∀ head ∈ valueStarts, ∀ rest,
    skipBlanks (head :: rest) = head :: rest ∧ head ≠ ']' ∧ head ≠ '\x7d' := by
  simp [valueStarts, skipBlanks]

/-- A list that is not empty is read item by item: `readValue?` goes on with `readItems?`. -/
theorem readValue?_array (fuel : Nat) {text following : List Char} {head : Char}
    (start : skipBlanks text = head :: following) (open' : head ≠ ']') :
    readValue? (fuel + 1) ('[' :: text) =
      (readItems? fuel (head :: following)).map fun (items, rest) => (.array items, rest) := by
  rw [readValue?, start]
  split
  · next closed =>
    cases closed
    exact absurd rfl open'
  · rfl

/-- An object that is not empty is read member by member: `readValue?` goes on with `readMembers?`.
-/
theorem readValue?_object (fuel : Nat) {text following : List Char} {head : Char}
    (start : skipBlanks text = head :: following) (open' : head ≠ '\x7d') :
    readValue? (fuel + 1) ('\x7b' :: text) =
      (readMembers? fuel (head :: following)).map fun (members, rest) =>
        (.object members, rest) := by
  rw [readValue?, start]
  split
  · next closed =>
    cases closed
    exact absurd rfl open'
  · rfl

/-- What stands before a value is passed over. -/
theorem exists_skipBlanks_lineBreak_writeAt (style : Style) (breakDepth depth : Nat)
    {document : Document} (plain : document.Numberless) (rest : List Char) :
    ∃ head following, writeAt style depth document ++ rest = head :: following ∧
      head ≠ ']' ∧ head ≠ '\x7d' ∧
      skipBlanks (style.lineBreak breakDepth ++ (writeAt style depth document ++ rest)) =
        head :: following := by
  obtain ⟨head, isStart, following, written⟩ := exists_writeAt_eq_cons style depth plain
  obtain ⟨kept, noBracket, noBrace⟩ :=
    skipBlanks_cons_of_valueStarts head isStart (following ++ rest)
  refine ⟨head, following ++ rest, by rw [written, List.cons_append], noBracket, noBrace, ?_⟩
  rw [skipBlanks_lineBreak, written, List.cons_append, kept]

/-- What stands between a name and its value is passed over. -/
theorem exists_colon_eq_cons (style : Style) {text following : List Char} {head : Char}
    (start : skipBlanks text = head :: following) :
    ∃ blanks, style.colon ++ text = ':' :: blanks ∧ skipBlanks blanks = head :: following := by
  cases style with
  | compact => exact ⟨text, rfl, start⟩
  | pretty => exact ⟨' ' :: text, rfl, start⟩

/-- The last item that `readItems?` reads is the one before the bracket. -/
theorem readItems?_last {fuel : Nat} {text rest after : List Char} {item : Tree}
    (read : readValue? fuel text = some (item, rest)) (closed : skipBlanks rest = ']' :: after) :
    readItems? (fuel + 1) text = some ([item], after) := by
  rw [readItems?, read, Option.bind_eq_bind, Option.bind_some]
  simp only [closed]
  rfl

/-- After a comma there are more items. -/
theorem readItems?_more {fuel : Nat} {text rest after : List Char} {item : Tree}
    (read : readValue? fuel text = some (item, rest)) (goesOn : skipBlanks rest = ',' :: after) :
    readItems? (fuel + 1) text =
      (readItems? fuel (skipBlanks after)).map fun (items, last) => (item :: items, last) := by
  rw [readItems?, read, Option.bind_eq_bind, Option.bind_some]
  simp only [goesOn]
  cases readItems? fuel (skipBlanks after) <;> rfl

section Member

variable {fuel : Nat} {text afterName blanks afterValue after : List Char}
  {name : Option String} {value : Tree}
  (named : readString? text = some (name, afterName))
  (colon : skipBlanks afterName = ':' :: blanks)
  (read : readValue? fuel (skipBlanks blanks) = some (value, afterValue))

include named colon read

/-- The last member that `readMembers?` reads is the one before the brace. -/
theorem readMembers?_last (closed : skipBlanks afterValue = '\x7d' :: after) :
    readMembers? (fuel + 1) ('"' :: text) = some ([(name, value)], after) := by
  rw [readMembers?, named, Option.bind_eq_bind, Option.bind_some]
  simp only [colon, read, Option.bind_eq_bind, Option.bind_some, closed]
  rfl

/-- After a comma there are more members. -/
theorem readMembers?_more (goesOn : skipBlanks afterValue = ',' :: after) :
    readMembers? (fuel + 1) ('"' :: text) =
      (readMembers? fuel (skipBlanks after)).map fun (members, last) =>
        ((name, value) :: members, last) := by
  rw [readMembers?, named, Option.bind_eq_bind, Option.bind_some]
  simp only [colon, read, Option.bind_eq_bind, Option.bind_some, goesOn]
  cases readMembers? fuel (skipBlanks after) <;> rfl

end Member

mutual

/-- A document is read by `readValue?` as `writeAt` wrote it, and what follows it is left. -/
theorem readValue?_written (style : Style) (depth : Nat) (document : Document)
    (plain : document.Numberless) (fuel : Nat) (rest : List Char)
    (enough : 2 * (writeAt style depth document).length ≤ fuel) :
    readValue? fuel (writeAt style depth document ++ rest) = some (document.tree, rest) := by
  cases fuel with
  | zero =>
    obtain ⟨head, isStart, following, written⟩ := exists_writeAt_eq_cons style depth plain
    rw [written] at enough
    cases enough
  | succ fuel =>
    cases document with
    | null => rw [writeAt, tree]; rfl
    | bool value => cases value <;> rw [writeAt, tree] <;> rfl
    | number => exact plain.elim
    | string text =>
      rw [writeAt, writeString_append, tree, readValue?, readString?_written]
      rfl
    | array items =>
      cases items with
      | nil => rw [writeAt, tree, treeItems]; rfl
      | cons item items =>
        rw [writeAt] at enough ⊢
        simp only [List.cons_append, List.append_assoc, List.nil_append, List.length_cons,
          List.length_append] at enough ⊢
        obtain ⟨head, following, written, noBracket, _, start⟩ :=
          exists_skipBlanks_lineBreak_writeAt style (depth + 1) (depth + 1) plain.1
            (writeItems style (depth + 1) items ++ (style.lineBreak depth ++ ']' :: rest))
        rw [readValue?_array fuel start noBracket, ← written,
          readItems?_written style (depth + 1) depth item items plain.1 plain.2 fuel rest
            (by omega), tree, treeItems, Option.map_some]
    | object members =>
      cases members with
      | nil => rw [writeAt, tree, treeMembers]; rfl
      | cons member members =>
        obtain ⟨name, value⟩ := member
        rw [writeAt] at enough ⊢
        simp only [List.cons_append, List.append_assoc, List.nil_append, List.length_cons,
          List.length_append] at enough ⊢
        have start := (skipBlanks_lineBreak style (depth + 1) _).trans
          (congrArg skipBlanks (writeString_append name (style.colon ++
            (writeAt style (depth + 1) value ++ (writeMembers style (depth + 1) members ++
              (style.lineBreak depth ++ '\x7d' :: rest))))))
        rw [readValue?_object fuel start (by decide), ← writeString_append,
          readMembers?_written style (depth + 1) depth name value members plain.1 plain.2 fuel rest
            (by omega), tree, treeMembers, Option.map_some]
  termination_by fuel

/-- The items of a list are read by `readItems?` as they were written. -/
theorem readItems?_written (style : Style) (depth outer : Nat) (item : Document)
    (items : List Document) (plain : item.Numberless) (plainItems : NumberlessItems items)
    (fuel : Nat) (rest : List Char)
    (enough : 2 * ((writeAt style depth item).length + (writeItems style depth items).length) + 1 ≤
      fuel) :
    readItems? fuel (writeAt style depth item ++
        (writeItems style depth items ++ (style.lineBreak outer ++ ']' :: rest))) =
      some (treeItems (item :: items), rest) := by
  cases fuel with
  | zero => cases enough
  | succ fuel =>
    have read := readValue?_written style depth item plain fuel
      (writeItems style depth items ++ (style.lineBreak outer ++ ']' :: rest)) (by omega)
    cases items with
    | nil =>
      exact readItems?_last read (skipBlanks_lineBreak style outer _)
    | cons next items =>
      rw [writeItems] at enough read ⊢
      simp only [List.cons_append, List.append_assoc, List.length_cons, List.length_append]
        at enough read ⊢
      obtain ⟨_, _, written, _, _, start⟩ :=
        exists_skipBlanks_lineBreak_writeAt style depth depth plainItems.1
          (writeItems style depth items ++ (style.lineBreak outer ++ ']' :: rest))
      rw [readItems?_more read rfl, start, ← written,
        readItems?_written style depth outer next items plainItems.1 plainItems.2 fuel rest
          (by omega), Option.map_some, treeItems, treeItems, treeItems]
  termination_by fuel

/-- The members of an object are read by `readMembers?` as they were written. -/
theorem readMembers?_written (style : Style) (depth outer : Nat) (name : String)
    (value : Document) (members : List (String × Document)) (plain : value.Numberless)
    (plainMembers : NumberlessMembers members) (fuel : Nat) (rest : List Char)
    (enough : 2 * ((writeAt style depth value).length +
      (writeMembers style depth members).length) + 1 ≤ fuel) :
    readMembers? fuel (writeString name ++ (style.colon ++ (writeAt style depth value ++
        (writeMembers style depth members ++ (style.lineBreak outer ++ '\x7d' :: rest))))) =
      some (treeMembers ((name, value) :: members), rest) := by
  cases fuel with
  | zero => cases enough
  | succ fuel =>
    have value' := readValue?_written style depth value plain fuel
      (writeMembers style depth members ++ (style.lineBreak outer ++ '\x7d' :: rest)) (by omega)
    obtain ⟨_, _, written, _, _, start⟩ :=
      exists_skipBlanks_lineBreak_writeAt style depth depth plain
        (writeMembers style depth members ++ (style.lineBreak outer ++ '\x7d' :: rest))
    obtain ⟨blanks, colon, valueStart⟩ :=
      exists_colon_eq_cons style ((skipBlanks_lineBreak style depth _).symm.trans start)
    rw [← written] at valueStart
    have named := readString?_written name (':' :: blanks)
    have read := (congrArg (readValue? fuel) valueStart).trans value'
    rw [writeString_append, colon]
    cases members with
    | nil => exact readMembers?_last named rfl read (skipBlanks_lineBreak style outer _)
    | cons next members =>
      obtain ⟨nextName, nextValue⟩ := next
      rw [writeMembers] at enough read
      simp only [List.cons_append, List.append_assoc, List.length_cons, List.length_append]
        at enough read
      rw [readMembers?_more named rfl read rfl, skipBlanks_lineBreak, writeString_append,
        show ∀ rest, skipBlanks ('"' :: rest) = '"' :: rest from fun _ => rfl,
        ← writeString_append,
        readMembers?_written style depth outer nextName nextValue members plainMembers.1
          plainMembers.2 fuel rest (by omega), Option.map_some, treeMembers, treeMembers,
        treeMembers]
  termination_by fuel

end

/-- A document without numbers is read back by `Tree.parse?` from its text in any `Style`. -/
theorem parse?_write (style : Style) {document : Document} (plain : document.Numberless) :
    Tree.parse? (document.write style) = some document.tree := by
  obtain ⟨head, isStart, following, written⟩ := exists_writeAt_eq_cons style 0 plain
  have start : skipBlanks (writeAt style 0 document) = writeAt style 0 document := by
    rw [written, (skipBlanks_cons_of_valueStarts head isStart following).1]
  have read := readValue?_written style 0 document plain
    (2 * (writeAt style 0 document).length + 2) [] (Nat.le_add_right _ _)
  rw [List.append_nil] at read
  rw [Tree.parse?, write, String.length_ofList, String.toList_ofList, start, read]
  rfl

end Values

end Mustache.Document
