import Mustache.Proofs.Storage.KeptFiles

/-!
# Files that are read and written

Looking at files changes nothing but the count of operations (`Disk.Looks`). A file that was written
at a path is there with its content, whatever the path is, one that goes back on its way included
(`Disk.entry_of_write`): no directory is lost, so the way that led to the place of the file still
does.
-/

namespace Mustache

namespace Entry

variable {root : Entry} {location : List String} {content added : ByteArray}

/-- A file that `find?` finds is at the root or in a directory. -/
theorem eq_nil_or_exists_directory (found : root.find? location = some (.file content)) :
    (location = [] ∧ root = .file content) ∨
      ∃ folder name entries, location = folder ++ [name] ∧
        root.find? folder = some (.directory entries) ∧
        entries.lookup name = some (.file content) := by
  rcases List.eq_nil_or_concat location with rfl | ⟨folder, name, isFolder⟩
  · exact .inl ⟨rfl, Option.some.inj found⟩
  · rw [List.concat_eq_append] at isFolder
    subst isFolder
    obtain ⟨entries, there, present⟩ := exists_directory_of_find?_concat found
    exact .inr ⟨folder, name, entries, rfl, there, present⟩

/-- To `insert` a file in the place of another one loses no directory. -/
theorem keepsDirectories_insert (found : root.find? location = some (.file content)) :
    root.KeepsDirectories (root.insert location (.file added)) := by
  rcases eq_nil_or_exists_directory found with
    ⟨rfl, rfl⟩ | ⟨folder, name, entries, rfl, there, present⟩
  · -- Where the root is a file there are no directories.
    rintro (_ | ⟨_, _⟩) entries ⟨⟩
  · have noDirectory : ∀ inside, entries.lookup name ≠ some (.directory inside) :=
      fun _ => by rw [present]; exact nofun
    rw [insert_concat]
    exact keepsDirectories_changeAt there (TouchesOnly.upsert noDirectory fun _ => rfl).keeps

/-- A file that `insert` has put in the place of another one is what `find?` finds there. -/
theorem find?_insert (found : root.find? location = some (.file content)) :
    (root.insert location (.file added)).find? location = some (.file added) := by
  rcases eq_nil_or_exists_directory found with ⟨rfl, _⟩ | ⟨folder, name, entries, rfl, there, _⟩
  · rw [insert]
    rfl
  · rw [insert_concat, find?_concat (find?_changeAt there), lookup_upsert_self]

end Entry

namespace Disk

variable {disk after : Disk} {path : String} {content : ByteArray}

/-- What looking at files leads to: the files are the same, and no fault is to come that was not
before. -/
structure Looks (before after : Disk) : Prop extends SameFiles before after where
  /-- Without a fault to come there is none afterwards. -/
  calm : before.fault = none → after.fault = none

namespace Looks

theorem refl (disk : Disk) : disk.Looks disk :=
  ⟨⟨rfl, rfl⟩, id⟩

theorem trans {first second third : Disk} (left : first.Looks second) (right : second.Looks third) :
    first.Looks third :=
  ⟨left.toSameFiles.trans right.toSameFiles, fun start => right.calm (left.calm start)⟩

/-- Without a fault to come nothing changes at all. -/
theorem eq_of_calm (looks : disk.Looks after) (calm : disk.fault = none) : after = disk := by
  obtain ⟨⟨sameRoot, sameDirectory⟩, sameFault⟩ := looks
  rcases disk with ⟨root, workingDirectory, fault⟩
  rcases after with ⟨otherRoot, otherDirectory, otherFault⟩
  cases sameRoot
  cases sameDirectory
  cases calm
  cases sameFault rfl
  rfl

end Looks

/-- Reading a text with `readText` is looking at files (`Looks`). -/
theorem looks_readText (path : String) (disk : Disk) : disk.Looks (readText path disk).2 :=
  ⟨sameFiles_readText path disk, fun calm => by rw [readText_disk_of_calm calm, calm]⟩

/-- A file can be written at a path, whatever its content is. -/
def Writable (path : String) (disk : Disk) : Prop :=
  ∀ content, (write path content disk).1 = .ok ()

/-- A file that `write` has written at a path is the `entry` there. -/
theorem entry_of_write (written : write path content disk = (.ok (), after)) :
    after.entry path = .ok (.file content) := by
  rw [write, attempt_bind_apply] at written
  rcases attempted : attempt disk with ⟨_ | _, counted⟩
  · rw [attempted] at written
    cases written
  rw [attempted] at written
  simp only at written
  -- The path leads to where the file is, if it does not end in a slash.
  suffices leads : ∃ location, after.locate path = .ok (.present location (.file content)) ∧
      Path.endsInSlash path = false by
    obtain ⟨location, located, noSlash⟩ := leads
    rw [Disk.entry, located]
    simp [noSlash]
  rcases located : counted.locate path with _ | ⟨location, old | _⟩ | ⟨directory, name⟩
  · rw [located] at written
    cases written
  · rw [located] at written
    simp only at written
    split at written
    · cases written
    · next noSlash =>
      cases written
      have fits := fits_of_locate located
      rw [locate_of_fits fits] at located
      have found := find?_of_walk located
      refine ⟨location, ?_, by simpa using noSlash⟩
      rw [locate_of_fits fits]
      exact walk_of_find?_location (Entry.keepsDirectories_insert found) located
        (Entry.find?_insert found)
  · rw [located] at written
    cases written
  · rw [located] at written
    simp only at written
    split at written
    · cases written
    · next noSlash =>
      split at written <;> cases written
      have fits := fits_of_locate located
      rw [locate_of_fits fits] at located
      refine ⟨directory ++ [name], ?_, by simpa using noSlash⟩
      rw [locate_of_fits fits]
      exact walk_insert_of_absent located _

end Disk

end Mustache
