import Mustache.Proofs.Storage.MadeDirectories

/-!
# Paths on paper

Where a path leads can be worked out from its names alone: a dot stays, double dots take back the
name before them or, if there is none, climb above the start. What comes of a path below another one
is told by what comes of both (`reduce_join_of_relative`), and the second leads below the first
exactly if it comes back into every name that it has climbed out of (`contains_join_of_relative`).
On a disk a path that leads anywhere leads to where it leads on paper
(`Disk.location_eq_under`).
-/

namespace Mustache

namespace Text

/-- What holds no separator and is written after a text belongs for `splitOn` to the last piece of
the text. -/
theorem exists_splitOn_append {separator : Char} {suffix : List Char} (free : separator ∉ suffix)
    (text : List Char) :
    ∃ pieces last, splitOn separator text = pieces ++ [last] ∧
      splitOn separator (text ++ suffix) = pieces ++ [last ++ suffix] := by
  induction text with
  | nil => exact ⟨[], [], rfl, splitOn_of_notMem free⟩
  | cons character rest inductionHypothesis =>
    obtain ⟨pieces, last, before, after⟩ := inductionHypothesis
    rw [List.cons_append, splitOn, splitOn, before, after]
    split
    · exact ⟨[] :: pieces, last, rfl, rfl⟩
    · cases pieces with
      | nil => exact ⟨[], character :: last, rfl, rfl⟩
      | cons piece pieces => exact ⟨(character :: piece) :: pieces, last, rfl, rfl⟩

end Text

namespace Path

/-- What comes of a path when its dots and double dots are worked out. -/
structure Reduced where
  /-- Whether it starts at the root. -/
  absolute : Bool
  /-- How often it climbs above its start, which is never above the root. -/
  climbs : Nat
  /-- The names that lead from there. -/
  names : List String
  deriving Repr, DecidableEq

namespace Reduced

variable {base told : Reduced}

/-- One name further. -/
def follow (place : Reduced) (name : String) : Reduced :=
  if name == "." then place
  else if name == ".." then
    if place.names.isEmpty then
      { place with climbs := if place.absolute then place.climbs else place.climbs + 1 }
    else { place with names := place.names.dropLast }
  else { place with names := place.names ++ [name] }

/-- Where relative paths start. -/
def start : Reduced := ⟨false, 0, []⟩

/-- A relative path below another one. Each climb takes back one name, as long as there are any. -/
def append (base told : Reduced) : Reduced where
  absolute := base.absolute
  climbs :=
    if base.absolute then base.climbs else base.climbs + (told.climbs - base.names.length)
  names := base.names.take (base.names.length - told.climbs) ++ told.names

/-- The names from the root, when relative paths start at a directory. -/
def under (place : Reduced) (directory : List String) : List String :=
  if place.absolute then place.names
  else directory.take (directory.length - place.climbs) ++ place.names

/-- The second place is the first one or below it. -/
def Contains (base place : Reduced) : Prop :=
  base.absolute = place.absolute ∧ base.climbs = place.climbs ∧ base.names <+: place.names

instance (base place : Reduced) : Decidable (base.Contains place) :=
  inferInstanceAs (Decidable (_ ∧ _ ∧ _))

theorem absolute_follow (place : Reduced) (name : String) :
    (place.follow name).absolute = place.absolute := by
  rw [follow]
  repeat' split
  all_goals rfl

theorem absolute_foldl_follow (names : List String) (place : Reduced) :
    (names.foldl follow place).absolute = place.absolute := by
  induction names generalizing place with
  | nil => rfl
  | cons name rest inductionHypothesis =>
    rw [List.foldl_cons, inductionHypothesis, absolute_follow]

/-- Without double dots nothing `climbs`. -/
theorem climbs_foldl_follow {names : List String} (forward : ".." ∉ names) (place : Reduced) :
    (names.foldl follow place).climbs = place.climbs := by
  induction names generalizing place with
  | nil => rfl
  | cons name rest inductionHypothesis =>
    rw [List.mem_cons, not_or] at forward
    rw [List.foldl_cons, inductionHypothesis forward.2, follow]
    split
    · rfl
    · rw [if_neg (by simpa using Ne.symm forward.1)]

theorem append_start (base : Reduced) : base.append start = base := by
  simp [append, start]

/-- A name that `follow` takes after the second path is one after both. -/
theorem follow_append (relative : told.absolute = false) (name : String) :
    (base.append told).follow name = base.append (told.follow name) := by
  obtain ⟨absolute, climbs, names⟩ := told
  cases relative
  rw [follow, follow]
  split
  · rfl
  · split
    · -- The name is taken from the second path, or from the first if the second has none.
      cases names with
      | nil =>
        simp only [append, List.append_nil, List.isEmpty_nil, if_true, Bool.false_eq_true, if_false]
        by_cases exhausted : base.names.length ≤ climbs
        · have here : base.names.length - climbs = 0 := by omega
          have above : base.names.length - (climbs + 1) = 0 := by omega
          have higher : climbs + 1 - base.names.length = climbs - base.names.length + 1 := by omega
          simp only [here, above, higher, List.take_zero, List.isEmpty_nil, if_true]
          split <;> rfl
        · have shorter : base.names.length - (climbs + 1) = base.names.length - climbs - 1 := by
            omega
          have within : climbs - base.names.length = 0 := by omega
          have withinNext : climbs + 1 - base.names.length = 0 := by omega
          have remains : (base.names.take (base.names.length - climbs)).isEmpty = false := by
            rw [List.isEmpty_eq_false_iff, ne_eq, List.take_eq_nil_iff]
            rintro (none | none)
            · omega
            · rw [none] at exhausted
              exact exhausted (Nat.zero_le _)
          simp only [remains, shorter, within, withinNext, Bool.false_eq_true, if_false]
          rw [List.dropLast_eq_take, List.take_take, List.length_take]
          congr 2
          omega
      | cons first rest =>
        have longer : (base.names.take (base.names.length - climbs) ++ first :: rest).isEmpty =
            false := by simp
        simp only [append, longer, List.isEmpty_cons, Bool.false_eq_true, if_false,
          List.dropLast_append_of_ne_nil (List.cons_ne_nil first rest)]
    · simp only [append, List.append_assoc]

/-- The names that `follow` takes after the second path are names after both. -/
theorem foldl_follow_append (relative : told.absolute = false) (names : List String) :
    names.foldl follow (base.append told) = base.append (names.foldl follow told) := by
  induction names generalizing told with
  | nil => rfl
  | cons name rest inductionHypothesis =>
    rw [List.foldl_cons, List.foldl_cons, follow_append relative]
    exact inductionHypothesis ((absolute_follow told name).trans relative)

/-- A path leads below the one before it (`Contains`) exactly if it climbs no higher than this has
names, or nobody can, and comes back into the names that it climbed out of. -/
theorem contains_append_iff :
    base.Contains (base.append told) ↔
      (base.absolute = true ∨ told.climbs ≤ base.names.length) ∧
        base.names.drop (base.names.length - told.climbs) <+: told.names := by
  have names : base.names <+: (base.append told).names ↔
      base.names.drop (base.names.length - told.climbs) <+: told.names := by
    -- The first names of the base are kept, so only the others have to come back.
    have others := @List.prefix_append_right_inj _
      (base.names.drop (base.names.length - told.climbs)) told.names
      (base.names.take (base.names.length - told.climbs))
    rwa [List.take_append_drop] at others
  have climbs : base.climbs = (base.append told).climbs ↔
      base.absolute = true ∨ told.climbs ≤ base.names.length := by
    rw [append]
    cases base.absolute with
    | true => simp
    | false =>
      simp only [Bool.false_eq_true, if_false, false_or]
      omega
  rw [Contains, names, climbs]
  exact and_iff_right rfl

/-- What is below a place (`Contains`) stays below it wherever relative paths start. -/
theorem Contains.under_prefix {place : Reduced} (contains : base.Contains place)
    (directory : List String) : base.under directory <+: place.under directory := by
  obtain ⟨absolute, climbs, names⟩ := contains
  rw [under, under, ← absolute, ← climbs]
  split
  · exact names
  · exact (List.prefix_append_right_inj _).2 names

/-- From a directory below the root `follow` takes names where it takes them from the start of a
relative path. -/
theorem names_foldl_follow (directory names : List String) :
    (names.foldl follow ⟨true, 0, directory⟩).names =
      (names.foldl follow start).under directory := by
  have relative : (names.foldl follow start).absolute = false := absolute_foldl_follow names start
  have below := @foldl_follow_append ⟨true, 0, directory⟩ start rfl names
  rw [append_start] at below
  rw [below, append, under, relative]
  rfl

/-- Above the root there is only the root. -/
theorem follow_root (directory : List String) (name : String) :
    follow ⟨true, 0, directory⟩ name = ⟨true, 0,
      if name == "." then directory else if name == ".." then directory.dropLast
      else directory ++ [name]⟩ := by
  rw [follow]
  split
  · rfl
  · split
    · cases directory <;> rfl
    · rfl

end Reduced

/-- What comes of a path when its `names` are worked out one after another. -/
def reduce (path : String) : Reduced :=
  (names path).foldl Reduced.follow ⟨isAbsolute path.toList, 0, []⟩

theorem absolute_reduce (path : String) : (reduce path).absolute = isAbsolute path.toList :=
  Reduced.absolute_foldl_follow _ _

theorem reduce_of_relative {name : String} (relative : isAbsolute name.toList = false) :
    reduce name = (names name).foldl Reduced.follow Reduced.start := by
  rw [reduce, relative]
  rfl

/-- What `reduce` makes of a relative path below another one. -/
theorem reduce_join_of_relative {name : String} (relative : isAbsolute name.toList = false)
    (base : String) : reduce (join base name) = (reduce base).append (reduce name) := by
  have below := @Reduced.foldl_follow_append (reduce base) Reduced.start rfl (names name)
  rw [Reduced.append_start, ← reduce_of_relative relative] at below
  rw [reduce, names_join_of_relative relative, isAbsolute_join_of_relative relative,
    List.foldl_append]
  exact below

/-- An absolute path stands for itself in `join`. -/
theorem join_of_absolute {name : String} (absolute : isAbsolute name.toList = true)
    (base : String) : join base name = name := by
  rw [join, joinChars, if_pos absolute, String.ofList_toList]

/-- When a relative path leads below the path before it (`Contains`). -/
theorem contains_join_of_relative {name : String} (relative : isAbsolute name.toList = false)
    (base : String) :
    (reduce base).Contains (reduce (join base name)) ↔
      ((reduce base).absolute = true ∨ (reduce name).climbs ≤ (reduce base).names.length) ∧
        (reduce base).names.drop ((reduce base).names.length - (reduce name).climbs) <+:
          (reduce name).names := by
  rw [reduce_join_of_relative relative, Reduced.contains_append_iff]

/-- The paths that lead below every path before them (`Contains`) are the relative ones that do not
climb. -/
theorem forall_contains_join_iff (name : String) :
    (∀ base, (reduce base).Contains (reduce (join base name))) ↔
      (reduce name).absolute = false ∧ (reduce name).climbs = 0 := by
  constructor
  · intro contains
    -- The empty path takes nothing back.
    have alone : join "" name = name := by
      rw [join, joinChars]
      split <;> exact String.ofList_toList
    obtain ⟨absolute, climbs, _⟩ := contains ""
    rw [alone] at absolute climbs
    exact ⟨absolute.symm, climbs.symm⟩
  · rintro ⟨relative, level⟩ base
    rw [absolute_reduce] at relative
    rw [contains_join_of_relative relative, level, Nat.sub_zero, List.drop_length]
    exact ⟨.inr (Nat.zero_le _), List.nil_prefix⟩

/-- A path without double dots `climbs` nowhere. -/
theorem climbs_reduce_of_forward {path : String} (forward : ".." ∉ names path) :
    (reduce path).climbs = 0 :=
  Reduced.climbs_foldl_follow forward _

/-- The `names` of a path are its pieces that are not empty. -/
theorem mem_names_iff {name path : String} :
    name ∈ names path ↔ name.toList ≠ [] ∧ name.toList ∈ Text.splitOn '/' path.toList := by
  rw [names, List.mem_map]
  constructor
  · rintro ⟨piece, member, rfl⟩
    rw [List.mem_filter] at member
    rw [String.toList_ofList]
    exact ⟨by simpa using member.2, member.1⟩
  · rintro ⟨nonempty, member⟩
    exact ⟨name.toList, List.mem_filter.2 ⟨member, by simpa using nonempty⟩, String.ofList_toList⟩

/-- An extension that is not empty, starts with no dot and leads nowhere does not lead back
(`names`). -/
theorem forward_append_extension {name extension : String} (forward : ".." ∉ names name)
    (nonempty : extension.toList ≠ []) (noSlash : '/' ∉ extension.toList)
    (noDot : extension.toList.head? ≠ some '.') : ".." ∉ names (name ++ "." ++ extension) := by
  have free : '/' ∉ '.' :: extension.toList := by simpa using noSlash
  obtain ⟨pieces, last, before, after⟩ := Text.exists_splitOn_append free name.toList
  have longer : (name ++ "." ++ extension).toList = name.toList ++ '.' :: extension.toList := by
    simp
  rw [mem_names_iff, longer, after, List.mem_append, List.mem_singleton]
  rintro ⟨_, member | ends⟩
  · exact forward (mem_names_iff.2 ⟨by decide, before ▸ List.mem_append_left _ member⟩)
  · -- Only one dot stands before the extension, so the other one would be in it.
    rcases characters : extension.toList with _ | ⟨first, rest⟩
    · exact nonempty characters
    · rw [characters] at ends noDot
      have dots : "..".toList = ['.', '.'] := rfl
      rw [dots] at ends
      rcases last with _ | ⟨head, _ | ⟨next, last⟩⟩
      · simp only [List.nil_append, List.cons.injEq] at ends
        exact noDot (ends.2.1 ▸ rfl)
      · simp at ends
      · simp at ends

end Path

namespace Disk

/-- Names along which a `walk` comes anywhere lead to where they lead on paper. -/
theorem location_of_walk_reduced {root : Entry} {start names : List String} {place : Place}
    (walked : walk root start names = .ok place) :
    place.location = (names.foldl Path.Reduced.follow ⟨true, 0, start⟩).names := by
  induction names generalizing start with
  | nil =>
    rw [walk] at walked
    split at walked <;> cases walked
    rfl
  | cons name rest inductionHypothesis =>
    obtain ⟨entries, _, ⟨next, followed, goesOn⟩ | ⟨free, rfl, rfl⟩⟩ := walk_cons_eq_ok walked
    · rw [inductionHypothesis goesOn, List.foldl_cons, Path.Reduced.follow_root]
      rw [follow] at followed
      split at followed
      · next isDot =>
        cases followed
        rw [if_pos isDot]
      · next noDot =>
        rw [if_neg noDot]
        split at followed
        · next isDots =>
          cases followed
          rw [if_pos isDots]
        · next noDots =>
          obtain ⟨_, _, rfl⟩ := Option.map_eq_some_iff.1 followed
          rw [if_neg noDots]
    · obtain ⟨noDot, noDots, _⟩ := follow_eq_none_iff.1 free
      rw [List.foldl_cons, Path.Reduced.follow_root, if_neg (by simpa using noDot),
        if_neg (by simpa using noDots)]
      rfl

/-- A path for which `locate` finds a place leads to where it leads on paper (`reduce`). -/
theorem location_eq_under {disk : Disk} {path : String} {place : Place}
    (located : disk.locate path = .ok place) :
    place.location = (Path.reduce path).under disk.workingDirectory := by
  rw [locate_of_fits (fits_of_locate located)] at located
  rw [location_of_walk_reduced located]
  cases relative : Path.isAbsolute path.toList with
  | true =>
    rw [Path.Reduced.under, Path.absolute_reduce, relative, Path.reduce, relative]
    rfl
  | false =>
    rw [Path.reduce_of_relative relative]
    exact Path.Reduced.names_foldl_follow _ _

end Disk

end Mustache
