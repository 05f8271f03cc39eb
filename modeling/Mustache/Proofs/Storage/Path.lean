import Mustache.Storage.Path

/-!
# Names in directories

The path of a plain name below a directory leads through the names of the directory to that
name, starts where the directory's path starts, and does not end in a slash.
-/

namespace Mustache

namespace Text

/-- A separator divides for `splitOn` the pieces before it from those after it. -/
theorem splitOn_append_separator (separator : Char) (left right : List Char) :
    splitOn separator (left ++ separator :: right) =
      splitOn separator left ++ splitOn separator right := by
  induction left with
  | nil => simp [splitOn]
  | cons character rest inductionHypothesis =>
    rw [List.cons_append, splitOn, splitOn, inductionHypothesis]
    split
    · rfl
    · cases pieces : splitOn separator rest with
      | nil => exact absurd pieces (splitOn_ne_nil separator rest)
      | cons => rfl

/-- A text without a separator is one piece for `splitOn`. -/
theorem splitOn_of_notMem {separator : Char} {text : List Char} (free : separator ∉ text) :
    splitOn separator text = [text] := by
  induction text with
  | nil => rfl
  | cons character rest inductionHypothesis =>
    rw [List.mem_cons, not_or] at free
    rw [splitOn, if_neg, inductionHypothesis free.2]
    rw [beq_iff_eq]
    exact Ne.symm free.1

end Text

namespace Path

section Relative

variable {name : String} (relative : isAbsolute name.toList = false) (base : String)
include relative

/-- What is no absolute path is written by `join` after the directory below which it is, perhaps
with a slash between. -/
theorem toList_join_of_relative :
    (join base name).toList =
      if base.toList.isEmpty || base.toList.getLast? == some '/' then base.toList ++ name.toList
      else base.toList ++ '/' :: name.toList := by
  rw [join, String.toList_ofList, joinChars, relative]
  rfl

/-- The `names` of a path below a directory come after those of the directory. -/
theorem names_join_of_relative : names (join base name) = names base ++ names name := by
  rw [names, names, names, toList_join_of_relative relative]
  split
  · next closed =>
    rcases List.eq_nil_or_concat base.toList with empty | ⟨front, slash, split⟩
    · rw [empty]
      rfl
    · have isSlash : slash = '/' := by
        rw [split] at closed
        simpa using closed
      subst isSlash
      rw [split, List.concat_eq_append, List.append_assoc, List.singleton_append,
        Text.splitOn_append_separator, Text.splitOn_append_separator, List.filter_append,
        List.filter_append, List.map_append, List.map_append]
      simp [Text.splitOn]
  · rw [Text.splitOn_append_separator, List.filter_append, List.map_append]

/-- A path that `join` puts below a directory starts where the path of the directory starts. -/
theorem isAbsolute_join_of_relative :
    isAbsolute (join base name).toList = isAbsolute base.toList := by
  rw [toList_join_of_relative relative]
  cases characters : base.toList with
  | nil => exact relative
  | cons head rest => split <;> rfl

end Relative

/-- A name that stands for itself in a directory. -/
structure IsPlain (name : String) : Prop where
  /-- It is not empty. -/
  nonempty : name.toList ≠ []
  /-- It is one name. -/
  noSlash : '/' ∉ name.toList
  /-- It is not the directory itself. -/
  noDot : name ≠ "."
  /-- It is not the directory above. -/
  noDots : name ≠ ".."

namespace IsPlain

variable {name : String}

/-- A plain name is no absolute path. -/
theorem isAbsolute_eq_false (plain : IsPlain name) : isAbsolute name.toList = false := by
  rw [isAbsolute]
  cases characters : name.toList with
  | nil => rfl
  | cons head rest =>
    have noSlash := plain.noSlash
    rw [characters, List.mem_cons, not_or] at noSlash
    simpa using Ne.symm noSlash.1

/-- A plain name below a directory is written by `join` after the directory, perhaps with a slash
between. -/
theorem toList_join (plain : IsPlain name) (base : String) :
    (join base name).toList =
      if base.toList.isEmpty || base.toList.getLast? == some '/' then base.toList ++ name.toList
      else base.toList ++ '/' :: name.toList :=
  toList_join_of_relative plain.isAbsolute_eq_false base

/-- A path that `join` makes with a plain name is not empty. -/
theorem isEmpty_join (plain : IsPlain name) (base : String) : (join base name).isEmpty = false := by
  rw [← Bool.not_eq_true, String.isEmpty_iff, ← String.toList_inj, plain.toList_join]
  split <;> simp [plain.nonempty]

/-- A path that `join` makes with a plain name begins with the path of its directory. -/
theorem exists_join_eq_append (plain : IsPlain name) (base : String) :
    ∃ rest, join base name = base ++ rest := by
  refine ⟨String.ofList ((join base name).toList.drop base.toList.length), ?_⟩
  rw [← String.toList_inj, String.toList_append, String.toList_ofList, plain.toList_join]
  split <;> rw [List.drop_left]

/-- A path leads to a plain name through the `names` of its directory. -/
theorem names_join (plain : IsPlain name) (base : String) :
    names (join base name) = names base ++ [name] := by
  have last : names name = [name] := by
    rw [names, Text.splitOn_of_notMem plain.noSlash, List.filter_cons_of_pos, List.filter_nil,
      List.map_singleton, String.ofList_toList]
    simpa using plain.nonempty
  rw [names_join_of_relative plain.isAbsolute_eq_false, last]

/-- A path that `join` makes with a plain name starts where the path of its directory starts. -/
theorem isAbsolute_join (plain : IsPlain name) (base : String) :
    isAbsolute (join base name).toList = isAbsolute base.toList :=
  isAbsolute_join_of_relative plain.isAbsolute_eq_false base

/-- A path to a plain name does not end in a slash. -/
theorem endsInSlash_join (plain : IsPlain name) (base : String) :
    endsInSlash (join base name) = false := by
  have last : (join base name).toList.getLast? = name.toList.getLast? := by
    have final := List.getLast?_eq_some_getLast plain.nonempty
    rw [plain.toList_join, final]
    split
    · rw [List.getLast?_append, final]
      rfl
    · rw [List.getLast?_append, List.getLast?_cons, final]
      rfl
  rw [endsInSlash, last, beq_eq_false_iff_ne]
  intro ends
  exact plain.noSlash (List.mem_of_getLast? ends)

/-- What is written after a plain name that is put below a directory by `join` belongs to the name.
-/
theorem join_append (plain : IsPlain name) {suffix : String} (longer : IsPlain (name ++ suffix))
    (base : String) : join base name ++ suffix = join base (name ++ suffix) := by
  rw [← String.toList_inj, String.toList_append, plain.toList_join, longer.toList_join,
    String.toList_append]
  split <;> simp

end IsPlain

end Path

end Mustache
