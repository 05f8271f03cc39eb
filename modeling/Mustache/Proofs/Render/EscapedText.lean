import Mathlib.Data.List.Basic
import Mustache.Proofs.Text.Bytes
import Mustache.Render.Escape

/-!
# Text without markup

A text is inert if none of the characters that have a meaning in markup is in it, but for
ampersands at the start of an entity. Escaped texts are inert whatever they were, and texts that
are put together from inert ones are.
-/

namespace Mustache.Escape

/-- The characters that have a meaning in markup, for which `escapeChar` writes something else. -/
def specials : List Char := ['&', '<', '>', '"', '\'']

/-- What may be written for them. -/
def entities : List String := ["&amp;", "&lt;", "&gt;", "&quot;", "&#39;"]

/-- A text in which nothing has a meaning in markup: of the characters that have one there are
only ampersands, and each of them begins an entity. -/
structure IsInert (text : List Char) : Prop where
  /-- There are no angle brackets and no quotes. -/
  unmarked : ∀ character ∈ ['<', '>', '"', '\''], character ∉ text
  /-- Every ampersand begins an entity. -/
  begins : ∀ following, '&' :: following <:+ text →
    ∃ entity ∈ entities, entity.toList <+: '&' :: following

namespace IsInert

/-- A text without any of the characters is inert. -/
theorem of_free {text : List Char} (free : ∀ character ∈ specials, character ∉ text) :
    IsInert text := by
  constructor
  · intro character member
    exact free character (List.mem_cons_of_mem _ member)
  · intro following ends
    exact absurd (ends.subset List.mem_cons_self) (free '&' List.mem_cons_self)

/-- A text that `IsInert` may follow another one. -/
theorem append {first second : List Char} (left : IsInert first) (right : IsInert second) :
    IsInert (first ++ second) := by
  constructor
  · intro character member present
    rcases List.mem_append.1 present with here | there
    · exact left.unmarked character member here
    · exact right.unmarked character member there
  · rintro following ⟨before, split⟩
    -- The ampersand is in the second text, or in the first with its entity after it.
    rcases List.append_eq_append_iff.1 split with ⟨between, inFirst, rest⟩ | ⟨between, _, inSecond⟩
    · cases between with
      | nil => exact right.begins following ⟨[], rest⟩
      | cons head between =>
        obtain ⟨rfl, rfl⟩ := List.cons.inj rest
        obtain ⟨entity, known, starts⟩ := left.begins between ⟨before, inFirst.symm⟩
        exact ⟨entity, known, starts.trans (List.prefix_append ('&' :: between) second)⟩
    · exact right.begins following ⟨between, inSecond.symm⟩

/-- An entity `IsInert`. -/
theorem of_mem_entities {entity : String} (known : entity ∈ entities) : IsInert entity.toList := by
  constructor
  · revert entity
    simp [entities]
  · intro following ends
    -- The ampersand is the first character, for there is no other.
    have single : ∀ other ∈ entities,
        other.toList = '&' :: other.toList.tail ∧ '&' ∉ other.toList.tail := by simp [entities]
    obtain ⟨characters, only⟩ := single entity known
    rw [characters] at ends
    rcases List.suffix_cons_iff.1 ends with same | later
    · rw [same, ← characters]
      exact ⟨entity, known, List.prefix_refl _⟩
    · exact absurd (later.subset List.mem_cons_self) only

end IsInert

/-- What `entity?` says is written for a character is one of the entities. -/
theorem mem_entities_of_entity? {code : Nat} {entity : String}
    (found : entity? code = some entity) : entity ∈ entities := by
  unfold entity? at found
  repeat' split at found
  all_goals simp only [Option.some.injEq, reduceCtorEq] at found
  all_goals
    subst found
    decide

/-- A character for which `entity?` says nothing else is written has no meaning in markup. -/
theorem notMem_specials_of_entity? {character : Char} (plain : entity? character.toNat = none) :
    character ∉ specials := by
  have special : ∀ other ∈ specials, entity? other.toNat ≠ none := by simp [specials, entity?]
  exact fun member => special character member plain

/-- A character as `escapeChar` writes it is inert. -/
theorem isInert_escapeChar (character : Char) : IsInert (escapeChar character) := by
  unfold escapeChar
  split
  · next entity found => exact .of_mem_entities (mem_entities_of_entity? found)
  · next plain =>
    refine .of_free fun other member present => ?_
    rw [List.mem_singleton] at present
    exact notMem_specials_of_entity? plain (present ▸ member)

/-- A text that `escape` has escaped is inert. -/
theorem isInert_escape (text : String) : IsInert (escape text).toList := by
  rw [escape, String.toList_ofList]
  induction text.toList with
  | nil => exact .of_free fun _ _ => List.not_mem_nil
  | cons character rest inductionHypothesis =>
    rw [List.flatMap_cons]
    exact (isInert_escapeChar character).append inductionHypothesis

/-- Nothing else is written by `entity?` for what is beyond ASCII. -/
theorem entity?_of_le {code : Nat} (large : 128 ≤ code) : entity? code = none := by
  have codes : '&'.toNat < 128 ∧ '<'.toNat < 128 ∧ '>'.toNat < 128 ∧ '"'.toNat < 128 ∧
      '\''.toNat < 128 := by decide
  unfold entity?
  rw [if_neg (by omega), if_neg (by omega), if_neg (by omega), if_neg (by omega),
    if_neg (by omega)]

/-- The bytes of a character are written by `escapeByte` as the bytes of what `escapeChar` writes
for it. -/
theorem flatMap_escapeByte_utf8EncodeChar (character : Char) :
    (String.utf8EncodeChar character).flatMap escapeByte =
      (escapeChar character).flatMap String.utf8EncodeChar := by
  rcases Nat.lt_or_ge character.toNat 128 with small | large
  · have code : (UInt8.ofNat character.toNat).toNat = character.toNat := by
      rw [UInt8.toNat_ofNat']
      omega
    rw [Text.utf8EncodeChar_of_lt small, List.flatMap_singleton, escapeByte, escapeChar, code]
    cases entity? character.toNat with
    | none => rw [List.flatMap_singleton, Text.utf8EncodeChar_of_lt small]
    | some entity => exact Text.toList_data_toByteArray entity
  · have unchanged : ∀ byte ∈ String.utf8EncodeChar character, escapeByte byte = [byte] := by
      intro byte member
      rw [escapeByte, entity?_of_le (Text.le_of_mem_utf8EncodeChar large member)]
    rw [List.flatMap_congr unchanged, List.flatMap_singleton', escapeChar, entity?_of_le large,
      List.flatMap_singleton]

/-- The bytes of a text are escaped by `escapeBytes` to the bytes of what `escape` makes of the
text. -/
theorem escapeBytes_toByteArray (text : String) :
    escapeBytes text.toByteArray = (escape text).toByteArray := by
  rw [escapeBytes, escape, String.toByteArray_ofList, List.utf8Encode, Text.toList_data_toByteArray,
    List.flatMap_assoc, List.flatMap_assoc, ByteArray.ext_iff, List.data_toByteArray]
  simp only [flatMap_escapeByte_utf8EncodeChar]

end Mustache.Escape
