import Mustache.Proofs.Storage.Path

/-!
# Parents of paths

What is left of a path when its last name is taken away starts where the path starts, and its
steps, the names that do not stay in place, are those of the path but the last (`steps_parent`).
So every parent of a path has fewer steps than the path.
-/

namespace Mustache

namespace Text

/-- A separator at the beginning has for `splitOn` an empty piece before it. -/
theorem splitOn_cons_self (separator : Char) (rest : List Char) :
    splitOn separator (separator :: rest) = [] :: splitOn separator rest := by
  rw [splitOn, if_pos (beq_self_eq_true separator)]

/-- The first piece of a text that does not begin with a separator is not empty. -/
theorem ne_nil_of_mem_head?_splitOn {separator character : Char} (differs : character ≠ separator)
    {rest first : List Char}
    (isFirst : first ∈ (splitOn separator (character :: rest)).head?) : first ≠ [] := by
  rw [splitOn, if_neg (fun same => differs (eq_of_beq same))] at isFirst
  cases pieces : splitOn separator rest with
  | nil => exact absurd pieces (splitOn_ne_nil separator rest)
  | cons =>
    rw [pieces] at isFirst
    cases isFirst
    exact List.cons_ne_nil _ _

/-- Pieces without separators that `joinWith` puts together are split again by `splitOn`. -/
theorem splitOn_joinWith {separator : Char} {pieces : List (List Char)} (nonempty : pieces ≠ [])
    (free : ∀ piece ∈ pieces, separator ∉ piece) :
    splitOn separator (joinWith separator pieces) = pieces := by
  induction pieces with
  | nil => exact absurd rfl nonempty
  | cons piece rest inductionHypothesis =>
    have first := splitOn_of_notMem (free piece List.mem_cons_self)
    cases rest with
    | nil => exact first
    | cons next others =>
      rw [joinWith, splitOn_append_separator, first,
        inductionHypothesis (List.cons_ne_nil _ _) fun other member =>
          free other (List.mem_cons_of_mem _ member)]
      · rfl
      · exact List.cons_ne_nil _ _

/-- There is no separator in the pieces that `splitOn` makes of a text. -/
theorem notMem_of_mem_splitOn {separator : Char} {text piece : List Char}
    (member : piece ∈ splitOn separator text) : separator ∉ piece := by
  induction text generalizing piece with
  | nil =>
    rw [List.mem_singleton.1 member]
    exact List.not_mem_nil
  | cons character rest inductionHypothesis =>
    rw [splitOn] at member
    split at member
    · rcases List.mem_cons.1 member with rfl | later
      · exact List.not_mem_nil
      · exact inductionHypothesis later
    · next differs =>
      have apart : separator ≠ character := fun same => differs (beq_iff_eq.2 same.symm)
      cases pieces : splitOn separator rest with
      | nil => exact absurd pieces (splitOn_ne_nil separator rest)
      | cons first others =>
        rw [pieces] at member
        rcases List.mem_cons.1 member with rfl | later
        · rw [List.mem_cons, not_or]
          exact ⟨apart, inductionHypothesis (pieces ▸ List.mem_cons_self)⟩
        · exact inductionHypothesis (pieces ▸ List.mem_cons_of_mem _ later)

end Text

namespace Path

/-- Pieces between slashes that say something, as names. -/
def telling (pieces : List (List Char)) : List String :=
  (pieces.filter (! isIdle ·)).map String.ofList

theorem telling_append (left right : List (List Char)) :
    telling (left ++ right) = telling left ++ telling right := by
  rw [telling, List.filter_append, List.map_append]
  rfl

theorem telling_cons_of_isIdle {piece : List Char} (idle : isIdle piece = true)
    (rest : List (List Char)) : telling (piece :: rest) = telling rest := by
  rw [telling, List.filter_cons_of_neg (by simp [idle])]
  rfl

/-- The names along a path that do not stay in place. -/
def steps (path : String) : List String :=
  telling (Text.splitOn '/' path.toList)

/-- The `names` along a path are its `steps` and single dots. -/
theorem filter_names (path : String) : (names path).filter (· != ".") = steps path := by
  have dot : ∀ piece : List Char, (String.ofList piece != ".") = (piece != ['.']) := by
    intro piece
    rw [Bool.eq_iff_iff, bne_iff_ne, bne_iff_ne, Ne, ← String.toList_inj, String.toList_ofList]
    exact Iff.rfl
  have both : ∀ piece : List Char,
      ((String.ofList piece != ".") && ! piece.isEmpty) = ! isIdle piece := by
    intro piece
    rw [dot, isIdle, Bool.not_or, Bool.and_comm]
    rfl
  rw [names, List.filter_map, List.filter_filter, steps, telling]
  congr 2
  funext piece
  exact both piece

/-- A path that goes back has one of its `steps` that does. -/
theorem dots_mem_steps {path : String} (member : ".." ∈ names path) : ".." ∈ steps path := by
  rw [← filter_names, List.mem_filter]
  exact ⟨member, by decide⟩

/-- Names are trimmed by `trimIdle` of idle ones. -/
theorem exists_trimIdle_append (pieces : List (List Char)) :
    ∃ idle, pieces = trimIdle pieces ++ idle ∧ telling idle = [] := by
  refine ⟨(pieces.reverse.takeWhile isIdle).reverse, ?_, ?_⟩
  · rw [trimIdle, ← List.reverse_append, List.takeWhile_append_dropWhile, List.reverse_reverse]
  · rw [telling, List.map_eq_nil_iff, List.filter_eq_nil_iff]
    intro piece member
    have idle := List.all_eq_true.1 List.all_takeWhile piece (List.mem_reverse.1 member)
    rw [idle]
    exact Bool.false_ne_true

theorem telling_trimIdle (pieces : List (List Char)) :
    telling (trimIdle pieces) = telling pieces := by
  obtain ⟨idle, split, none⟩ := exists_trimIdle_append pieces
  have whole := congrArg telling split
  rw [telling_append, none, List.append_nil] at whole
  exact whole.symm

/-- The last of the names that `trimIdle` leaves says something. -/
theorem isIdle_of_trimIdle {pieces front : List (List Char)} {last : List Char}
    (split : trimIdle pieces = front ++ [last]) : isIdle last = false := by
  have first : pieces.reverse.dropWhile isIdle = last :: front.reverse := by
    rw [← List.reverse_inj, ← trimIdle, split]
    simp
  have head := List.head?_dropWhile_not isIdle pieces.reverse
  rw [first] at head
  simpa using head

/-- What `trimIdle` takes off it takes from the end. -/
theorem trimIdle_isFront (pieces : List (List Char)) : trimIdle pieces <+: pieces := by
  obtain ⟨idle, split, _⟩ := exists_trimIdle_append pieces
  exact ⟨idle, split.symm⟩

/-- The last of the names that `trimIdle` leaves is one more that says something (`telling`). -/
theorem exists_telling_dropLast {pieces others : List (List Char)} {first : List Char}
    (kept : trimIdle pieces = first :: others) :
    ∃ last, telling pieces = telling (first :: others).dropLast ++ [last] := by
  rcases List.eq_nil_or_concat (first :: others) with empty | ⟨front, last, split⟩
  · cases empty
  · rw [List.concat_eq_append] at split
    refine ⟨String.ofList last, ?_⟩
    have tells : telling [last] = [String.ofList last] := by
      rw [telling, List.filter_cons_of_pos, List.filter_nil, List.map_singleton]
      rw [isIdle_of_trimIdle (kept.trans split)]
      rfl
    rw [← telling_trimIdle, kept, split, List.dropLast_concat, telling_append, tells]

/-- The parts of a path: what it starts with and the pieces after it. -/
structure Parts (path head : List Char) (pieces : List (List Char)) : Prop where
  /-- There is no slash in the pieces. -/
  noSlash : ∀ piece ∈ pieces, '/' ∉ piece
  /-- They tell the steps of the path. -/
  telling : telling pieces = telling (Text.splitOn '/' path)
  /-- What the path starts with, and which piece comes first then. -/
  start : head = ['/'] ∧ isAbsolute path = true ∨
    head = ['.'] ∧ isAbsolute path = false ∧ (∀ first ∈ pieces.head?, first = []) ∨
    head = [] ∧ isAbsolute path = false ∧ (∀ first ∈ pieces.head?, first ≠ [])

theorem parts_splitHead (path : List Char) : Parts path (splitHead path).1 (splitHead path).2 := by
  unfold splitHead
  split
  · next rest =>
    refine ⟨fun piece => Text.notMem_of_mem_splitOn, ?_, .inl ⟨rfl, rfl⟩⟩
    rw [Text.splitOn_cons_self, telling_cons_of_isIdle rfl]
  · exact ⟨nofun, rfl, .inr (.inl ⟨rfl, rfl, nofun⟩)⟩
  · next rest =>
    have split : Text.splitOn '/' ('.' :: '/' :: rest) = ['.'] :: Text.splitOn '/' rest :=
      Text.splitOn_append_separator '/' ['.'] rest
    refine ⟨fun piece => Text.notMem_of_mem_splitOn, ?_, .inr (.inl ⟨rfl, rfl, ?_⟩)⟩
    · rw [split, Text.splitOn_cons_self, telling_cons_of_isIdle rfl, telling_cons_of_isIdle rfl]
    · rw [Text.splitOn_cons_self]
      rintro _ ⟨⟩
      rfl
  · exact ⟨nofun, rfl, .inr (.inr ⟨rfl, rfl, nofun⟩)⟩
  · next absolute _ _ nonempty =>
    cases path with
    | nil => exact absurd rfl nonempty
    | cons character rest =>
      have noSlash : character ≠ '/' := fun same => absolute rest (same ▸ rfl)
      refine ⟨fun piece => Text.notMem_of_mem_splitOn, rfl, .inr (.inr ⟨rfl, ?_, ?_⟩)⟩
      · simpa [isAbsolute] using noSlash
      · exact fun first => Text.ne_nil_of_mem_head?_splitOn noSlash

/-- What a path starts with and the first of its pieces make a path with the steps that these
pieces tell. It starts where the whole path starts, or it is empty. -/
theorem Parts.rejoin {path head : List Char} {pieces kept : List (List Char)}
    (parts : Parts path head pieces) (first : kept <+: pieces) :
    head ++ Text.joinWith '/' kept = [] ∨
      isAbsolute (head ++ Text.joinWith '/' kept) = isAbsolute path ∧
        Path.telling (Text.splitOn '/' (head ++ Text.joinWith '/' kept)) = Path.telling kept := by
  cases kept with
  | nil =>
    rcases parts.start with ⟨rfl, absolute⟩ | ⟨rfl, relative, _⟩ | ⟨rfl, _⟩
    · exact .inr ⟨absolute ▸ rfl, rfl⟩
    · exact .inr ⟨relative ▸ rfl, rfl⟩
    · exact .inl rfl
  | cons piece rest =>
    obtain ⟨others, rfl⟩ := first
    have split : Text.splitOn '/' (Text.joinWith '/' (piece :: rest)) = piece :: rest :=
      Text.splitOn_joinWith (List.cons_ne_nil _ _) fun other member =>
        parts.noSlash other (List.mem_append_left _ member)
    refine .inr ?_
    rcases parts.start with ⟨rfl, absolute⟩ | ⟨rfl, relative, isFirst⟩ | ⟨rfl, relative, isFirst⟩
    · refine ⟨absolute ▸ rfl, ?_⟩
      rw [List.singleton_append, Text.splitOn_cons_self, split, telling_cons_of_isIdle rfl]
    · have empty : piece = [] := isFirst piece rfl
      subst empty
      refine ⟨relative ▸ rfl, ?_⟩
      rw [List.singleton_append, Text.splitOn, if_neg (by decide), split,
        telling_cons_of_isIdle rfl, telling_cons_of_isIdle rfl]
    · refine ⟨relative ▸ ?_, by rw [List.nil_append, split]⟩
      have noSlash := parts.noSlash piece (List.mem_append_left _ List.mem_cons_self)
      obtain ⟨character, characters, rfl⟩ := List.exists_cons_of_ne_nil (isFirst piece rfl)
      have differs : character ≠ '/' := fun same => noSlash (same ▸ List.mem_cons_self)
      cases rest <;> simpa [Text.joinWith, isAbsolute] using differs

/-- What `parent?` finds has all `steps` of a path but the last, and starts where the path starts;
or it is the empty path. -/
theorem steps_parent {path parent : String} (found : parent? path = some parent) :
    parent.isEmpty = true ∨ isAbsolute parent.toList = isAbsolute path.toList ∧
      ∃ last, steps path = steps parent ++ [last] := by
  obtain ⟨characters, cut, rfl⟩ := Option.map_eq_some_iff.1 found
  have parts := parts_splitHead path.toList
  unfold parentChars? at cut
  generalize splitHead path.toList = split at parts cut
  obtain ⟨head, pieces⟩ := split
  simp only at cut parts
  split at cut
  · split at cut
    · cases cut
      exact .inl rfl
    · cases cut
  · next first others kept =>
    cases cut
    have within : first :: others <+: pieces := kept ▸ trimIdle_isFront pieces
    have shorter : (first :: others).dropLast <+: first :: others := List.dropLast_prefix _
    have above : trimIdle (first :: others).dropLast <+: pieces :=
      ((trimIdle_isFront _).trans shorter).trans within
    obtain ⟨last, steps⟩ := exists_telling_dropLast kept
    rcases parts.rejoin above with empty | ⟨start, told⟩
    · exact .inl (by rw [empty]; rfl)
    · refine .inr ⟨by rw [String.toList_ofList, start], last, ?_⟩
      rw [Path.steps, Path.steps, String.toList_ofList, told, telling_trimIdle, ← parts.telling,
        steps]

/-- Every one of the `parents` of a path has fewer of its `steps`, and starts where the path starts;
or it is the empty path. -/
theorem steps_parents {count : Nat} {path parent : String} (member : parent ∈ parents count path) :
    parent.isEmpty = true ∨ isAbsolute parent.toList = isAbsolute path.toList ∧
      ∃ last rest, steps path = steps parent ++ last :: rest := by
  induction count generalizing path with
  | zero => exact absurd member List.not_mem_nil
  | succ count inductionHypothesis =>
    rw [parents] at member
    split at member
    · exact absurd member List.not_mem_nil
    · next nearest found =>
      have above := steps_parent found
      rcases List.mem_cons.1 member with rfl | further
      · rcases above with empty | ⟨start, last, steps⟩
        · exact .inl empty
        · exact .inr ⟨start, last, [], steps⟩
      · rcases above with empty | ⟨start, last, steps⟩
        · rw [String.isEmpty_iff.1 empty] at further
          cases count <;> exact absurd further List.not_mem_nil
        · rcases inductionHypothesis further with empty | ⟨startAbove, first, rest, stepsAbove⟩
          · exact .inl empty
          · refine .inr ⟨startAbove.trans start, first, rest ++ [last], ?_⟩
            rw [steps, stepsAbove, List.append_assoc, List.cons_append]

end Path

end Mustache
