import Mustache.Proofs.Render.EscapedText

/-!
# Taking escapes back

Escaping loses nothing: where the five entities are put back, from the left and each where it
stands, the text comes back that was escaped (`Escape.unescape_escape`). An entity that was in the
text before is no danger, for its ampersand was escaped itself.
-/

namespace Mustache.Escape

/-- The characters that have a meaning in markup (`specials`), each with its entity. -/
def table : List (Char × String) := specials.zip entities

/-- The entity at the start of a text, given by what it stands for and by its length. -/
def entityAt? (text : List Char) : Option (Char × Nat) :=
  table.findSome? fun (special, entity) =>
    if entity.toList.isPrefixOf text then some (special, entity.toList.length) else none

/-- A text with its entities put back, from where some characters of one have been read. -/
def unescapeFrom : Nat → List Char → List Char
  | _, [] => []
  | skipped + 1, _ :: rest => unescapeFrom skipped rest
  | 0, character :: rest =>
    match entityAt? (character :: rest) with
    | some (special, length) => special :: unescapeFrom (length - 1) rest
    | none => character :: unescapeFrom 0 rest

/-- A text with its entities put back, which undoes `escape`. -/
def unescape (text : String) : String :=
  String.ofList (unescapeFrom 0 text.toList)

/-- What `entity?` says is written for a character is told by the `table`. -/
theorem entity?_eq_lookup (character : Char) :
    entity? character.toNat = table.lookup character := by
  simp only [entity?, table, specials, entities, List.zip_cons_cons, List.zip_nil_left,
    List.lookup_cons, List.lookup_nil, Char.toNat_inj]
  repeat' split
  all_goals simp_all

theorem escapeChar_eq (character : Char) :
    escapeChar character = (table.lookup character).elim [character] String.toList := by
  rw [escapeChar, entity?_eq_lookup]
  cases table.lookup character <;> rfl

/-- All entities begin with an ampersand. -/
theorem toList_of_mem_table {special : Char} {entity : String} (known : (special, entity) ∈ table) :
    entity.toList = '&' :: entity.toList.tail := by
  have each : ∀ entry ∈ table, entry.2.toList = '&' :: entry.2.toList.tail := by decide
  exact each _ known

/-- An entity is read by `entityAt?` where it stands, whatever comes after it. -/
theorem entityAt?_append {special : Char} {entity : String} (known : (special, entity) ∈ table)
    (rest : List Char) :
    entityAt? (entity.toList ++ rest) = some (special, entity.toList.length) := by
  simp only [table, specials, entities, List.zip_cons_cons, List.zip_nil_left, List.mem_cons,
    List.not_mem_nil, or_false, Prod.mk.injEq] at known
  rcases known with ⟨rfl, rfl⟩ | ⟨rfl, rfl⟩ | ⟨rfl, rfl⟩ | ⟨rfl, rfl⟩ | ⟨rfl, rfl⟩ <;> rfl

/-- No entity is found by `entityAt?` where there is no ampersand. -/
theorem entityAt?_of_ne {character : Char} (differs : character ≠ '&') (rest : List Char) :
    entityAt? (character :: rest) = none := by
  rw [entityAt?, List.findSome?_eq_none_iff]
  rintro ⟨special, entity⟩ known
  simp only
  rw [toList_of_mem_table known]
  simp [differs.symm]

/-- Characters of an entity that are still to be read are skipped by `unescapeFrom`. -/
theorem unescapeFrom_append (skipped rest : List Char) :
    unescapeFrom skipped.length (skipped ++ rest) = unescapeFrom 0 rest := by
  induction skipped with
  | nil => rfl
  | cons character skipped inductionHypothesis => exact inductionHypothesis

/-- What `escapeChar` writes for a character is read as the character. -/
theorem unescapeFrom_escapeChar (character : Char) (rest : List Char) :
    unescapeFrom 0 (escapeChar character ++ rest) = character :: unescapeFrom 0 rest := by
  rw [escapeChar_eq]
  cases found : table.lookup character with
  | none =>
    have differs : character ≠ '&' := by
      rintro rfl
      exact absurd found (by decide)
    rw [Option.elim_none, List.singleton_append, unescapeFrom, entityAt?_of_ne differs]
  | some entity =>
    have known : (character, entity) ∈ table := by
      obtain ⟨before, after, same, _⟩ := List.lookup_eq_some_iff.1 found
      exact same ▸ List.mem_append_right before List.mem_cons_self
    have read := entityAt?_append known rest
    rw [toList_of_mem_table known, List.cons_append] at read
    rw [Option.elim_some, toList_of_mem_table known, List.cons_append, unescapeFrom, read]
    exact congrArg (character :: ·) (unescapeFrom_append entity.toList.tail rest)

/-- What `escape` does is undone by `unescape`, which puts the characters back for the entities. -/
theorem unescape_escape (text : String) : unescape (escape text) = text := by
  have characters : ∀ list : List Char, unescapeFrom 0 (list.flatMap escapeChar) = list := by
    intro list
    induction list with
    | nil => rfl
    | cons character rest inductionHypothesis =>
      rw [List.flatMap_cons, unescapeFrom_escapeChar, inductionHypothesis]
  rw [unescape, escape, String.toList_ofList, characters, String.ofList_toList]

end Mustache.Escape
