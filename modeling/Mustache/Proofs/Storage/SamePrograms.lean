import Mustache.Proofs.Storage.Loading

/-!
# Disks with the same programs

Loading looks at the files of the programs and at nothing else. On two disks where these are the
same each name in a directory is answered alike (`warmFile_alike`); and a name that has not the form
of a program's file name might as well not be there (`countLoaded_filter`).
-/

namespace Mustache

namespace Disk

variable {disk other : Disk} {base path name : String} {location elsewhere : List String}
  {entries others : List (String × Entry)}

/-- A path that cannot be followed (`Fits`) leads nowhere, whatever the files are. -/
theorem exists_error_of_not_fits (unfit : ¬ Fits path) :
    ∃ error, ∀ disk : Disk, disk.entry path = .error error := by
  by_cases nul : path.toList.contains '\x00'
  · exact ⟨.nulInName, fun disk => by rw [Disk.entry, locate, if_pos nul]⟩
  · by_cases empty : path.isEmpty
    · exact ⟨.notFound, fun disk => by rw [Disk.entry, locate, if_neg nul, if_pos empty]⟩
    · refine ⟨.nameTooLong, fun disk => ?_⟩
      have long : maxPathBytes ≤ path.utf8ByteSize := by
        by_contra short
        exact unfit ⟨by simpa using nul, by simpa using empty, Nat.not_le.1 short⟩
      rw [Disk.entry, locate, if_neg nul, if_neg empty, if_pos long]

/-- Under a plain name is the same `entry` on two disks if it is the same in the directory. -/
theorem DirectoryAt.entry_join_eq (there : disk.DirectoryAt base location entries)
    (thereOther : other.DirectoryAt base elsewhere others) (plain : Path.IsPlain name)
    (same : entries.lookup name = others.lookup name) :
    disk.entry (Path.join base name) = other.entry (Path.join base name) := by
  by_cases fits : Fits (Path.join base name)
  · cases found : entries.lookup name with
    | none =>
      rw [there.entry_join_of_free plain fits found,
        thereOther.entry_join_of_free plain fits (same ▸ found)]
    | some child =>
      rw [there.entry_join plain fits found, thereOther.entry_join plain fits (same ▸ found)]
  · obtain ⟨error, failed⟩ := exists_error_of_not_fits fits
    rw [failed, failed]

end Disk

namespace Storage

variable {left right disk : Disk} {root name : String} {hash : ContentHash}

/-- Two disks on which the files of all programs below a root are the same, and on which the same
operation to come fails, if one does. -/
structure SamePrograms (root : String) (left right : Disk) : Prop where
  /-- The same operation fails. -/
  fault : left.fault = right.fault
  /-- The files are the same. -/
  entries : ∀ hash, left.entry (Artifact.path root hash) = right.entry (Artifact.path root hash)

/-- An operation is counted alike. -/
theorem attempt_alike (root : String) : Alike (SamePrograms root) Disk.attempt Disk.attempt := by
  intro left right same
  have entries : ∀ hash, (Disk.attempt left).2.entry (Artifact.path root hash) =
      (Disk.attempt right).2.entry (Artifact.path root hash) := by
    intro hash
    rw [(Disk.sameFiles_attempt left).entry_eq, (Disk.sameFiles_attempt right).entry_eq,
      same.entries hash]
  refine ⟨?_, ?_, entries⟩
  all_goals rw [Disk.attempt_apply, Disk.attempt_apply, ← same.fault]
  · rcases left.fault with _ | _ | _ <;> rfl
  · rcases fault : left.fault with _ | _ | _
    · exact same.fault
    · rfl
    · rfl

/-- A program's file is seen alike by `pathExists` on disks with the `SamePrograms`. -/
theorem pathExists_alike (root : String) (hash : ContentHash) :
    Alike (SamePrograms root) (look (Disk.pathExists (Artifact.path root hash)))
      (look (Disk.pathExists (Artifact.path root hash))) := by
  intro left right same
  obtain ⟨sameResult, after⟩ := attempt_alike root left right same
  rw [look, look, Disk.pathExists_apply, Disk.pathExists_apply]
  revert sameResult after
  rcases Disk.attempt left with ⟨leftResult, leftCounted⟩
  rcases Disk.attempt right with ⟨rightResult, rightCounted⟩
  rintro rfl after
  cases leftResult with
  | error => exact ⟨rfl, after⟩
  | ok => exact ⟨congrArg (fun entry => Except.ok entry.isOk) (after.entries hash), after⟩

/-- A program's file is read alike on disks with the `SamePrograms`. -/
theorem read_alike (root : String) (hash : ContentHash) :
    Alike (SamePrograms root) (Disk.read (Artifact.path root hash))
      (Disk.read (Artifact.path root hash)) := by
  refine (attempt_alike root).bind fun _ => ?_
  intro left right same
  rw [bind_apply, bind_apply, get_apply, get_apply]
  simp only [same.entries hash]
  rcases right.entry (Artifact.path root hash) with _ | _ | _ <;> exact ⟨rfl, same⟩

/-- A program's artifact is read alike by `readArtifact` on disks with the `SamePrograms`. -/
theorem readArtifact_alike (root : String) (hash : ContentHash) :
    Alike (SamePrograms root) (readArtifact (Artifact.path root hash))
      (readArtifact (Artifact.path root hash)) := by
  have readText : Alike (SamePrograms root) (Disk.readText (Artifact.path root hash))
      (Disk.readText (Artifact.path root hash)) := by
    refine (read_alike root hash).bind fun content => ?_
    cases String.fromUTF8? content with
    | none => exact .throw _
    | some text => exact .pure text
  refine Alike.bind ?_ fun source => ?_
  · intro left right same
    obtain ⟨sameResult, after⟩ := readText left right same
    rw [onFile, onFile]
    revert sameResult after
    rcases Disk.readText (Artifact.path root hash) left with ⟨leftResult, leftAfter⟩
    rcases Disk.readText (Artifact.path root hash) right with ⟨rightResult, rightAfter⟩
    rintro rfl after
    cases leftResult <;> exact ⟨rfl, after⟩
  · cases Artifact.parse? source with
    | none => exact .throw _
    | some artifact => exact .pure artifact

/-- A program is loaded alike by `load` from disks with the `SamePrograms`. -/
theorem load_alike (root : String) (hash : ContentHash) :
    Alike (SamePrograms root) (load root hash) (load root hash) := by
  refine (pathExists_alike root hash).bind fun seen => ?_
  cases seen with
  | false => exact .pure none
  | true =>
    refine (readArtifact_alike root hash).bind fun artifact => ?_
    cases checkArtifact (Artifact.path root hash) hash artifact with
    | error error => exact .throw error
    | ok program => exact .pure (some program)

/-- The same cache beside disks with the same programs. -/
def SameShelves (root : String) (left right : ProgramCache × Disk) : Prop :=
  left.1 = right.1 ∧ SamePrograms root left.2 right.2

/-- A name in the directory of the programs is answered alike by `warmFile`. -/
theorem warmFile_alike (root name : String) :
    Alike (SameShelves root) (warmFile root name) (warmFile root name) := by
  unfold warmFile
  cases Artifact.digitsOfName? name with
  | none => exact .pure false
  | some digits =>
    simp only
    cases ContentHash.ofHex digits with
    | error => exact .throw _
    | ok hash =>
      refine Alike.bind (?_ : Alike (SameShelves root) (besideCache (load root hash)) _) ?_
      · rintro ⟨cache, left⟩ ⟨_, right⟩ ⟨rfl, same⟩
        obtain ⟨sameResult, after⟩ := load_alike root hash left right same
        exact ⟨sameResult, rfl, after⟩
      · rintro (_ | program)
        · exact .pure false
        · refine Alike.bind ?_ fun _ => .pure true
          rintro ⟨cache, left⟩ ⟨_, right⟩ ⟨rfl, same⟩
          exact ⟨rfl, rfl, same⟩

/-- How many of some names `warmFile` loaded a program for. -/
def countLoaded (root : String) (names : List String) : WarmAction Nat :=
  return (← names.mapM (warmFile root)).countP id

theorem countLoaded_cons (root name : String) (rest : List String) :
    countLoaded root (name :: rest) = (do
      let loaded ← warmFile root name
      let count ← countLoaded root rest
      return count + loaded.toNat) := by
  simp only [countLoaded, List.mapM_cons, bind_assoc, pure_bind]
  congr 1
  funext loaded
  congr 1
  funext others
  rw [List.countP_cons]
  cases loaded <;> rfl

/-- Names that have not the form of a program's file name do not count for `countLoaded`. -/
theorem countLoaded_filter (root : String) {names : List String} {kept : String → Bool}
    (others : ∀ name ∈ names, kept name = false → Artifact.digitsOfName? name = none) :
    countLoaded root (names.filter kept) = countLoaded root names := by
  induction names with
  | nil => rfl
  | cons name rest inductionHypothesis =>
    have same := inductionHypothesis fun other member =>
      others other (List.mem_cons_of_mem _ member)
    cases isKept : kept name with
    | true => rw [List.filter_cons_of_pos isKept, countLoaded_cons, countLoaded_cons, same]
    | false =>
      have passed : warmFile root name = pure false := by
        rw [warmFile, others name List.mem_cons_self isKept]
      rw [List.filter_cons_of_neg (by simp [isKept]), same, countLoaded_cons, passed, pure_bind]
      exact (bind_pure _).symm

/-- Names are counted alike by `countLoaded`. -/
theorem countLoaded_alike (root : String) (names : List String) :
    Alike (SameShelves root) (countLoaded root names) (countLoaded root names) :=
  (Alike.mapM (warmFile_alike root) names).bind fun _ => .pure _

/-- To `warm` is to count the names in the directory of the programs (`countLoaded`) if the
directory is there. -/
theorem warm_eq (root : String) : warm root = (do
    if ← besideCache (look (Disk.pathExists (Artifact.directory root))) then
      let names ← besideCache (onFile (Artifact.directory root)
        (Disk.list (Artifact.directory root)))
      countLoaded root names
    else return 0) := rfl

/-- Disks have the `SamePrograms` if the directory has the same under the names of their files. -/
theorem SamePrograms.of_directoryAt {leftLocation rightLocation : List String}
    {leftEntries rightEntries : List (String × Entry)} (fault : left.fault = right.fault)
    (leftThere : left.DirectoryAt (Artifact.directory root) leftLocation leftEntries)
    (rightThere : right.DirectoryAt (Artifact.directory root) rightLocation rightEntries)
    (same : ∀ hash, leftEntries.lookup (Artifact.fileName hash) =
      rightEntries.lookup (Artifact.fileName hash)) : SamePrograms root left right :=
  ⟨fault, fun hash =>
    leftThere.entry_join_eq rightThere (Artifact.isPlain_fileName hash) (same hash)⟩

/-- Let the directory of the programs hold some names on one disk and others on the other. If the
names count alike and the programs have the same files, `warm` answers alike. -/
theorem warm_alike {leftLocation rightLocation : List String}
    {leftEntries rightEntries : List (String × Entry)} (same : SamePrograms root left right)
    (leftThere : left.DirectoryAt (Artifact.directory root) leftLocation leftEntries)
    (rightThere : right.DirectoryAt (Artifact.directory root) rightLocation rightEntries)
    (names : countLoaded root (leftEntries.map (·.1)) = countLoaded root (rightEntries.map (·.1)))
    (cache : ProgramCache) :
    (warm root (cache, left)).1 = (warm root (cache, right)).1 ∧
      SameShelves root (warm root (cache, left)).2 (warm root (cache, right)).2 := by
  obtain ⟨seen, counted⟩ := attempt_alike root left right same
  have leftKept := (Disk.sameFiles_attempt left).directoryAt leftThere
  have rightKept := (Disk.sameFiles_attempt right).directoryAt rightThere
  rw [warm_eq, bind_apply, bind_apply, besideCache, besideCache, look, look,
    Disk.pathExists_apply, Disk.pathExists_apply]
  revert seen counted leftKept rightKept
  rcases Disk.attempt left with ⟨result, left⟩
  rcases Disk.attempt right with ⟨_, right⟩
  rintro rfl counted leftKept rightKept
  cases result with
  | error => exact ⟨rfl, rfl, counted⟩
  | ok =>
    by_cases fits : Disk.Fits (Artifact.directory root)
    · obtain ⟨listed, counted⟩ := attempt_alike root left right counted
      have leftListed := ((Disk.sameFiles_attempt left).directoryAt leftKept).entry fits
      have rightListed := ((Disk.sameFiles_attempt right).directoryAt rightKept).entry fits
      simp only [leftKept.entry fits, rightKept.entry fits, Except.isOk, Except.toBool, if_true]
      rw [bind_apply, bind_apply, besideCache, besideCache, onFile, onFile, Disk.list_apply,
        Disk.list_apply]
      revert listed counted leftListed rightListed
      rcases Disk.attempt left with ⟨result, left⟩
      rcases Disk.attempt right with ⟨_, right⟩
      rintro rfl counted leftListed rightListed
      cases result with
      | error => exact ⟨rfl, rfl, counted⟩
      | ok =>
        simp only [leftListed, rightListed, ← names]
        exact countLoaded_alike root _ (cache, left) (cache, right) ⟨rfl, counted⟩
    · obtain ⟨error, failed⟩ := Disk.exists_error_of_not_fits fits
      simp only [failed]
      exact ⟨rfl, rfl, counted⟩

end Storage

end Mustache
