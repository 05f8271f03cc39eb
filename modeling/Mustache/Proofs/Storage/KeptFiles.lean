import Mustache.Proofs.Storage.MadeDirectories

/-!
# Files that are kept

Each operation on files touches one or two of them, and none loses a directory. So all files but
those that some operations touch are kept through them (`KeepsFiles`), and a path that led to one of
those still leads to it (`KeepsFiles.keepsFileAt`).
-/

namespace Mustache

namespace Entry

variable {name : String} {entry added : Entry} {location target : List String}
  {entries changed : List (String × Entry)} {content : ByteArray}

/-- The content of a file. -/
def content? : Entry → Option ByteArray
  | .file content => some content
  | .directory _ => none

/-- The content of the file at a location, if there is one. -/
def fileAt? (entry : Entry) (location : List String) : Option ByteArray :=
  (entry.find? location).bind content?

theorem fileAt?_eq_some_iff :
    entry.fileAt? location = some content ↔ entry.find? location = some (.file content) := by
  rw [fileAt?, Option.bind_eq_some_iff]
  constructor
  · rintro ⟨_ | _, found, isContent⟩
    · cases isContent
      exact found
    · cases isContent
  · exact fun found => ⟨_, found, rfl⟩

theorem fileAt?_cons (entry : Entry) (name : String) (rest : List String) :
    entry.fileAt? (name :: rest) = (entry.child? name).bind (·.fileAt? rest) := by
  rw [fileAt?, find?_cons, Option.bind_assoc]
  rfl

/-- What `find?` finds under a name is in a directory. -/
theorem exists_directory_of_find?_concat
    (found : entry.find? (location ++ [name]) = some (.file content)) :
    ∃ entries, entry.find? location = some (.directory entries) ∧
      entries.lookup name = some (.file content) := by
  rw [find?_append] at found
  rcases reached : entry.find? location with _ | (_ | entries)
  · rw [reached] at found
    cases found
  · rw [reached] at found
    cases found
  · exact ⟨entries, rfl, by rw [← find?_concat reached, find?_append]; exact found⟩

/-- There is nothing under the name that is left out. -/
theorem lookup_filter_self (name : String) (entries : List (String × Entry)) :
    (entries.filter (·.1 != name)).lookup name = none := by
  rw [List.lookup_eq_none_iff]
  intro entry member
  rw [List.mem_filter] at member
  exact bne_iff_ne.2 (Ne.symm (bne_iff_ne.1 member.2))

/-- Of the names of a directory one is touched, under which there was no directory, and there is
nothing below it afterwards. -/
structure TouchesOnly (name : String) (entries changed : List (String × Entry)) : Prop where
  /-- The other names are left alone. -/
  others : ∀ other, other ≠ name → changed.lookup other = entries.lookup other
  /-- There was no directory under the name. -/
  free : ∀ inside, entries.lookup name ≠ some (.directory inside)
  /-- Nothing is below the name. -/
  barren : ∀ entry, changed.lookup name = some entry → ∀ below, entry.child? below = none

namespace TouchesOnly

/-- Putting in a file touches one name. -/
theorem upsert (free : ∀ inside, entries.lookup name ≠ some (.directory inside))
    (barren : ∀ below, added.child? below = none) :
    TouchesOnly name entries (Entry.upsert name added entries) := by
  refine ⟨fun other differ => lookup_upsert_of_ne differ added entries, free, ?_⟩
  intro entry found
  rw [lookup_upsert_self, Option.some.injEq] at found
  exact found ▸ barren

/-- To take out a file `TouchesOnly` its name. -/
theorem filter (free : ∀ inside, entries.lookup name ≠ some (.directory inside)) :
    TouchesOnly name entries (entries.filter (·.1 != name)) := by
  refine ⟨fun other differ => lookup_filter_of_ne differ entries, free, ?_⟩
  intro entry found
  rw [lookup_filter_self] at found
  cases found

/-- Nothing was below the name that a change `TouchesOnly`. -/
theorem child?_eq_none (touches : TouchesOnly name entries changed) (found : entries.lookup name =
    some entry) (below : String) : entry.child? below = none := by
  cases entry with
  | file => rfl
  | directory inside => exact absurd found (touches.free inside)

/-- No directory is lost by a change that `TouchesOnly` one name. -/
theorem keeps (touches : TouchesOnly name entries changed) (other : String)
    (inside : List (String × Entry)) (found : entries.lookup other = some (.directory inside)) :
    changed.lookup other = some (.directory inside) := by
  rw [touches.others, found]
  rintro rfl
  exact touches.free inside found

end TouchesOnly

/-- If one name of a directory is touched, only the file under this name may be another one
(`fileAt?`). -/
theorem fileAt?_changeAt {change : List (String × Entry) → List (String × Entry)}
    (found : entry.find? location = some (.directory entries))
    (touches : TouchesOnly name entries (change entries)) (elsewhere : target ≠ location ++ [name]) :
    (changeAt change location entry).fileAt? target = entry.fileAt? target := by
  induction location generalizing entry target with
  | nil =>
    cases found
    cases target with
    | nil => rfl
    | cons other rest =>
      rw [changeAt, fileAt?_cons, fileAt?_cons, child?, child?]
      by_cases same : other = name
      · subst same
        -- The location is below the name, where nothing is before and after.
        obtain ⟨below, further, rfl⟩ : ∃ below further, rest = below :: further :=
          List.exists_cons_of_ne_nil fun isEnd => elsewhere (by rw [isEnd, List.nil_append])
        have lost : ∀ entry? : Option Entry,
            (∀ entry, entry? = some entry → ∀ below, entry.child? below = none) →
              entry?.bind (·.fileAt? (below :: further)) = none := by
          rintro (_ | entry) barren
          · rfl
          · rw [Option.bind_some, fileAt?_cons, barren entry rfl]
            rfl
        rw [lost _ touches.barren, lost _ fun _ => touches.child?_eq_none]
      · rw [touches.others other same]
  | cons first others inductionHypothesis =>
    cases entry with
    | file => cases found
    | directory siblings =>
      rw [find?_cons, child?] at found
      cases present : siblings.lookup first with
      | none =>
        rw [present] at found
        cases found
      | some child =>
        rw [present, Option.bind_some] at found
        rw [changeAt, present]
        cases target with
        | nil => rfl
        | cons other rest =>
          rw [fileAt?_cons, fileAt?_cons, child?, child?]
          by_cases same : other = first
          · subst same
            rw [lookup_upsert_self, present, Option.bind_some, Option.bind_some]
            exact inductionHypothesis found fun further => elsewhere (further ▸ rfl)
          · rw [lookup_upsert_of_ne same]

end Entry

namespace Disk

variable {disk after : Disk} {base path name : String} {location : List String}
  {entries : List (String × Entry)} {content : ByteArray} {touched others : List (List String)}

/-- All files but those at some locations are what they were (`fileAt?`), no directory is lost, and
relative paths start where they did. -/
structure KeepsFiles (touched : List (List String)) (before after : Disk) : Prop where
  /-- The other files are kept. -/
  files : ∀ location, location ∉ touched →
    after.root.fileAt? location = before.root.fileAt? location
  /-- The directories are kept. -/
  directories : before.root.KeepsDirectories after.root
  /-- Relative paths start at the same directory. -/
  workingDirectory : after.workingDirectory = before.workingDirectory

/-- A path leads to the file to which it led; and if it leads to a file, that one was there. -/
structure KeepsFileAt (path : String) (before after : Disk) : Prop where
  /-- The path leads to its file. -/
  kept : ∀ content, before.entry path = .ok (.file content) →
    after.entry path = .ok (.file content)
  /-- The file to which it leads was there. -/
  old : ∀ location content, after.locate path = .ok (.present location (.file content)) →
    before.root.fileAt? location = some content

/-- A plain name leads to where it is in some directory. -/
theorem exists_location_eq (plain : Path.IsPlain name) {place : Place}
    (located : disk.locate (Path.join base name) = .ok place) :
    ∃ folder, place.location = folder ++ [name] := by
  obtain ⟨folder, entries, _, rfl⟩ := exists_directoryAt plain located
  refine ⟨folder, ?_⟩
  rw [placeIn]
  split <;> rfl

/-- A file with a plain name is in some directory (`DirectoryAt`). -/
theorem directoryAt_of_file (plain : Path.IsPlain name)
    (found : disk.entry (Path.join base name) = .ok (.file content)) :
    Fits (Path.join base name) ∧ ∃ folder entries, disk.DirectoryAt base folder entries ∧
      entries.lookup name = some (.file content) := by
  obtain ⟨place, located⟩ := exists_locate_of_entry found
  have fits := fits_of_locate located
  obtain ⟨folder, entries, there, rfl⟩ := exists_directoryAt plain located
  refine ⟨fits, folder, entries, there, ?_⟩
  cases present : entries.lookup name with
  | none =>
    rw [there.entry_join_of_free plain fits present] at found
    cases found
  | some child =>
    rw [there.entry_join plain fits present, Except.ok.injEq] at found
    rw [found]

namespace KeepsFiles

theorem refl (touched : List (List String)) (disk : Disk) : KeepsFiles touched disk disk :=
  ⟨fun _ _ => rfl, fun _ entries found => ⟨entries, found⟩, rfl⟩

theorem trans {first second third : Disk} (left : KeepsFiles touched first second)
    (right : KeepsFiles touched second third) : KeepsFiles touched first third := by
  refine ⟨fun location elsewhere => ?_, ?_, right.workingDirectory.trans left.workingDirectory⟩
  · exact (right.files location elsewhere).trans (left.files location elsewhere)
  · intro location entries found
    obtain ⟨between, foundBetween⟩ := left.directories location entries found
    exact right.directories location between foundBetween

/-- Files that are kept (`KeepsFiles`) are kept where more may be touched. -/
theorem mono (kept : KeepsFiles touched disk after) (more : touched ⊆ others) :
    KeepsFiles others disk after :=
  ⟨fun location elsewhere => kept.files location fun member => elsewhere (more member),
    kept.directories, kept.workingDirectory⟩

/-- A file that is the same afterwards counts as kept (`KeepsFiles`). -/
theorem of_cons (kept : KeepsFiles (location :: touched) disk after)
    (same : after.root.fileAt? location = disk.root.fileAt? location) :
    KeepsFiles touched disk after := by
  refine ⟨fun other elsewhere => ?_, kept.directories, kept.workingDirectory⟩
  by_cases isLocation : other = location
  · exact isLocation ▸ same
  · exact kept.files other (by simp [isLocation, elsewhere])

/-- If nothing changes all files are kept (`KeepsFiles`). -/
theorem of_sameFiles (same : disk.SameFiles after) : KeepsFiles touched disk after := by
  refine ⟨fun location _ => by rw [same.root], fun location entries found => ?_,
    same.workingDirectory⟩
  rw [same.root]
  exact ⟨entries, found⟩

/-- A directory is still there (`DirectoryAt`) where files are kept. -/
theorem directoryAt (kept : KeepsFiles touched disk after)
    (there : disk.DirectoryAt base location entries) :
    ∃ others, after.DirectoryAt base location others := by
  rw [DirectoryAt, ← kept.workingDirectory] at there
  exact walk_of_keepsDirectories kept.directories there

/-- If one name of a directory is touched, all files but the one under it are kept (`KeepsFiles`).
-/
theorem of_changeAt {change : List (String × Entry) → List (String × Entry)}
    (found : disk.root.find? location = some (.directory entries))
    (touches : Entry.TouchesOnly name entries (change entries)) {changed : Entry}
    (isChanged : changed = Entry.changeAt change location disk.root) :
    KeepsFiles [location ++ [name]] disk { disk with root := changed } := by
  subst isChanged
  refine ⟨fun other elsewhere => ?_, ?_, rfl⟩
  · exact Entry.fileAt?_changeAt found touches fun same => elsewhere (by simp [same])
  · exact Entry.keepsDirectories_changeAt found touches.keeps

/-- To `insert` a file under a name keeps the other files. -/
theorem insert (there : disk.DirectoryAt base location entries)
    (free : ∀ inside, entries.lookup name ≠ some (.directory inside)) (content : ByteArray) :
    KeepsFiles [location ++ [name]] disk
      { disk with root := disk.root.insert (location ++ [name]) (.file content) } :=
  of_changeAt (find?_of_walk there) (.upsert free fun _ => rfl)
    (Entry.insert_concat location name _ _)

/-- To `erase` a file keeps the other files. -/
theorem erase (there : disk.DirectoryAt base location entries)
    (free : ∀ inside, entries.lookup name ≠ some (.directory inside)) :
    KeepsFiles [location ++ [name]] disk
      { disk with root := disk.root.erase (location ++ [name]) } :=
  of_changeAt (find?_of_walk there) (.filter free) (Entry.erase_concat location name _)

/-- A file with a plain name is kept (`KeepsFileAt`) if no file of this name is touched. -/
theorem keepsFileAt (kept : KeepsFiles touched disk after) (plain : Path.IsPlain name)
    (elsewhere : ∀ folder, folder ++ [name] ∉ touched) :
    KeepsFileAt (Path.join base name) disk after := by
  refine ⟨fun content found => ?_, fun location content located => ?_⟩
  · obtain ⟨fits, folder, entries, there, present⟩ := directoryAt_of_file plain found
    obtain ⟨others, thereAfter⟩ := kept.directoryAt there
    rw [← Entry.find?_concat (find?_of_walk there), ← Entry.fileAt?_eq_some_iff,
      ← kept.files _ (elsewhere folder), Entry.fileAt?_eq_some_iff,
      Entry.find?_concat (find?_of_walk thereAfter)] at present
    exact thereAfter.entry_join plain fits present
  · obtain ⟨folder, isLocation⟩ := exists_location_eq plain located
    rw [Place.location] at isLocation
    subst isLocation
    rw [← kept.files _ (elsewhere folder), Entry.fileAt?_eq_some_iff]
    rw [locate_of_fits (fits_of_locate located)] at located
    exact find?_of_walk located

/-- Where a path does not go back, a file with a plain name is the `entry` at its end exactly if it
was so before, unless a file of this name is touched. -/
theorem entry_eq_file_iff (kept : KeepsFiles touched disk after) (plain : Path.IsPlain name)
    (elsewhere : ∀ folder, folder ++ [name] ∉ touched) (forward : ".." ∉ Path.names base) :
    after.entry (Path.join base name) = .ok (.file content) ↔
      disk.entry (Path.join base name) = .ok (.file content) := by
  refine ⟨fun found => ?_, (kept.keepsFileAt plain elsewhere).kept content⟩
  obtain ⟨fits, folder, entries, there, present⟩ := directoryAt_of_file plain found
  have isFolder := location_of_walk forward there
  rw [Place.location, kept.workingDirectory] at isFolder
  rw [← Entry.find?_concat (find?_of_walk there), ← Entry.fileAt?_eq_some_iff,
    kept.files _ (elsewhere folder), Entry.fileAt?_eq_some_iff] at present
  -- The file was there before in a directory, to which the same way led.
  obtain ⟨others, before, within⟩ := Entry.exists_directory_of_find?_concat present
  rw [isFolder] at before
  exact DirectoryAt.entry_join (walk_of_find? forward before) plain fits within

end KeepsFiles

/-- Making a directory with `createDirectory` touches no file. -/
theorem keepsFiles_createDirectory (path : String) (disk : Disk) :
    KeepsFiles [] disk (createDirectory path disk).2 := by
  have counted : KeepsFiles [] disk (attempt disk).2 := .of_sameFiles (sameFiles_attempt disk)
  rcases createDirectory_cases path disk with
    ⟨error, failed⟩ | ⟨directory, name, located, succeeded⟩
  · rw [failed]
    exact counted
  · rw [succeeded]
    refine counted.trans ?_
    rw [locate_of_fits (fits_of_locate located)] at located
    obtain ⟨entries, found, free, _⟩ := find?_of_walk_absent located
    have noDirectory : ∀ inside, entries.lookup name ≠ some (.directory inside) :=
      fun _ => by rw [free]; exact nofun
    have inserted := Entry.insert_concat directory name (.directory []) (attempt disk).2.root
    refine (KeepsFiles.of_changeAt found (.upsert noDirectory fun _ => rfl) inserted).of_cons ?_
    -- Where the directory is now, there was nothing before.
    rw [Entry.fileAt?, Entry.fileAt?, Entry.find?_concat found, free, inserted,
      Entry.find?_concat (Entry.find?_changeAt found), Entry.lookup_upsert_self]
    rfl

/-- Making directories with `createDirectories` touches no file. -/
theorem keepsFiles_createDirectories (path : String) (disk : Disk) :
    KeepsFiles [] disk (createDirectories path disk).2 :=
  createChain_reaches (KeepsFiles []) (.refl []) .trans
    (fun disk => .of_sameFiles (sameFiles_attempt disk))
    (fun path _ _ disk => keepsFiles_createDirectory path disk) disk

end Disk

end Mustache
