import Mustache.Storage.Disk

/-!
# Changes in one directory

Putting an entry into a directory and taking one out change the list of names of that directory
and nothing else. As long as no directory is lost in the change, every way that led to a directory
still leads to one at the same location.
-/

namespace Mustache

/-- Under every name but one that is left out is what was there. -/
theorem lookup_filter_of_ne {α : Type} {name other : String} (differ : other ≠ name)
    (entries : List (String × α)) :
    (entries.filter (·.1 != name)).lookup other = entries.lookup other := by
  induction entries with
  | nil => rfl
  | cons first rest inductionHypothesis =>
    obtain ⟨firstName, held⟩ := first
    rw [List.filter_cons]
    split
    · rw [List.lookup_cons, List.lookup_cons, inductionHypothesis]
    · next same =>
      have taken : firstName = name := by simpa using same
      subst taken
      rw [List.lookup_cons, beq_eq_false_iff_ne.2 differ, inductionHypothesis]

namespace Entry

variable {name other : String} {entry added : Entry} {entries changed : List (String × Entry)}

/-- The entry under a name, if this is a directory that holds it. -/
def child? (entry : Entry) (name : String) : Option Entry :=
  match entry with
  | .file _ => none
  | .directory entries => entries.lookup name

theorem find?_cons (entry : Entry) (name : String) (rest : List String) :
    entry.find? (name :: rest) = (entry.child? name).bind (·.find? rest) := by
  cases entry with
  | file => rfl
  | directory entries =>
    rw [find?, child?]
    cases entries.lookup name <;> rfl

/-- A location is reached by `find?` one part after the other. -/
theorem find?_append (entry : Entry) (front rest : List String) :
    entry.find? (front ++ rest) = (entry.find? front).bind (·.find? rest) := by
  induction front generalizing entry with
  | nil => rfl
  | cons name front inductionHypothesis =>
    rw [List.cons_append, find?_cons, find?_cons]
    cases entry.child? name with
    | none => rfl
    | some child => exact inductionHypothesis child

/-- What is under a name in a directory is what `find?` finds at the location of that name. -/
theorem find?_concat {location : List String}
    (found : entry.find? location = some (.directory entries)) (name : String) :
    entry.find? (location ++ [name]) = entries.lookup name := by
  rw [find?_append, found, Option.bind_some, find?_cons, child?]
  cases entries.lookup name <;> rfl

/-- There is something under a name exactly if the name is in the directory. -/
theorem exists_lookup_iff :
    (∃ entry, entries.lookup name = some entry) ↔ name ∈ entries.map (·.1) := by
  rw [← Option.isSome_iff_exists, List.lookup_isSome_iff, List.mem_map]
  apply exists_congr
  intro entry
  rw [beq_iff_eq, eq_comm]

/-- Under the name that `upsert` puts in is what was put in. -/
theorem lookup_upsert_self (name : String) (added : Entry) (entries : List (String × Entry)) :
    (upsert name added entries).lookup name = some added := by
  induction entries with
  | nil => simp [upsert]
  | cons first rest inductionHypothesis =>
    obtain ⟨firstName, firstEntry⟩ := first
    rw [upsert]
    split
    · rw [List.lookup_cons_self]
    · next differs =>
      rw [beq_iff_eq] at differs
      rw [List.lookup_cons, beq_eq_false_iff_ne.2 (Ne.symm differs)]
      exact inductionHypothesis

/-- Under every other name `upsert` leaves what was there. -/
theorem lookup_upsert_of_ne (differ : other ≠ name) (added : Entry)
    (entries : List (String × Entry)) :
    (upsert name added entries).lookup other = entries.lookup other := by
  induction entries with
  | nil => rw [upsert, List.lookup_cons, beq_eq_false_iff_ne.2 differ]
  | cons first rest inductionHypothesis =>
    obtain ⟨firstName, firstEntry⟩ := first
    rw [upsert]
    split
    · next same =>
      rw [beq_iff_eq] at same
      subst same
      rw [List.lookup_cons, List.lookup_cons, beq_eq_false_iff_ne.2 differ]
    · rw [List.lookup_cons, List.lookup_cons, inductionHypothesis]

/-- An entry with the names of the directory at a location changed. -/
def changeAt (change : List (String × Entry) → List (String × Entry)) :
    List String → Entry → Entry
  | _, .file content => .file content
  | [], .directory entries => .directory (change entries)
  | name :: rest, .directory entries =>
    match entries.lookup name with
    | some child => .directory (upsert name (changeAt change rest child) entries)
    | none => .directory entries

/-- To `insert` an entry under a name changes the names of its directory. -/
theorem insert_concat (location : List String) (name : String) (added entry : Entry) :
    entry.insert (location ++ [name]) added = changeAt (upsert name added) location entry := by
  induction location generalizing entry with
  | nil => cases entry <;> rw [List.nil_append, insert, changeAt]
  | cons first rest inductionHypothesis =>
    cases entry with
    | file => rw [List.cons_append, insert, changeAt]
    | directory entries =>
      obtain ⟨next, others, split⟩ :=
        List.exists_cons_of_ne_nil (List.append_ne_nil_of_right_ne_nil rest (List.cons_ne_nil name []))
      rw [List.cons_append, split, insert, changeAt, ← split]
      cases entries.lookup first with
      | none => rfl
      | some child => simp only [inductionHypothesis]

/-- To `erase` what is under a name changes the names of its directory. -/
theorem erase_concat (location : List String) (name : String) (entry : Entry) :
    entry.erase (location ++ [name]) =
      changeAt (fun entries => entries.filter (·.1 != name)) location entry := by
  induction location generalizing entry with
  | nil => cases entry <;> rw [List.nil_append, erase, changeAt]
  | cons first rest inductionHypothesis =>
    cases entry with
    | file => rw [List.cons_append, erase, changeAt]
    | directory entries =>
      obtain ⟨next, others, split⟩ :=
        List.exists_cons_of_ne_nil (List.append_ne_nil_of_right_ne_nil rest (List.cons_ne_nil name []))
      rw [List.cons_append, split, erase, changeAt, ← split]
      cases entries.lookup first with
      | none => rfl
      | some child => simp only [inductionHypothesis]

variable {change : List (String × Entry) → List (String × Entry)}

/-- The directory at the location has the names that `changeAt` has changed. -/
theorem find?_changeAt {location : List String}
    (found : entry.find? location = some (.directory entries)) :
    (changeAt change location entry).find? location = some (.directory (change entries)) := by
  induction location generalizing entry with
  | nil =>
    cases found
    rfl
  | cons name rest inductionHypothesis =>
    cases entry with
    | file => cases found
    | directory others =>
      rw [find?_cons, child?] at found
      cases present : others.lookup name with
      | none =>
        rw [present] at found
        cases found
      | some child =>
        rw [present, Option.bind_some] at found
        rw [changeAt, present, find?_cons, child?, lookup_upsert_self, Option.bind_some]
        exact inductionHypothesis found

/-- Every directory of one entry is a directory of the other. -/
def KeepsDirectories (before after : Entry) : Prop :=
  ∀ location entries, before.find? location = some (.directory entries) →
    ∃ others, after.find? location = some (.directory others)

/-- A change that keeps the directories under the names of one directory keeps all
(`KeepsDirectories`). -/
theorem keepsDirectories_changeAt {location : List String}
    (found : entry.find? location = some (.directory entries))
    (keeps : ∀ name inside, entries.lookup name = some (.directory inside) →
      (change entries).lookup name = some (.directory inside)) :
    entry.KeepsDirectories (changeAt change location entry) := by
  induction location generalizing entry with
  | nil =>
    cases found
    rintro (_ | ⟨name, rest⟩) inside reached
    · exact ⟨_, rfl⟩
    · rw [find?_cons, child?] at reached
      rw [changeAt, find?_cons, child?]
      cases present : entries.lookup name with
      | none =>
        rw [present] at reached
        cases reached
      | some child =>
        rw [present, Option.bind_some] at reached
        cases child with
        | file =>
          cases rest <;> cases reached
        | directory others =>
          rw [keeps name others present]
          exact ⟨inside, reached⟩
  | cons first others inductionHypothesis =>
    cases entry with
    | file => cases found
    | directory siblings =>
      rw [find?_cons, child?] at found
      cases present : siblings.lookup first with
      | none =>
        rw [present] at found
        cases found
      | some child =>
        rw [present, Option.bind_some] at found
        rintro (_ | ⟨name, rest⟩) inside reached
        · rw [changeAt, present]
          exact ⟨_, rfl⟩
        · rw [changeAt, present, find?_cons, child?]
          rw [find?_cons, child?] at reached
          by_cases same : name = first
          · subst same
            rw [present, Option.bind_some] at reached
            rw [lookup_upsert_self, Option.bind_some]
            exact inductionHypothesis found rest inside reached
          · rw [lookup_upsert_of_ne same]
            exact ⟨inside, reached⟩

end Entry

end Mustache
