import Mathlib.Data.List.ReduceOption
import Mustache.Proofs.Storage.RoundTrip

/-!
# What loading all programs counts

Loading all programs goes by the names in their directory, but it reads the file of a name where
the hash that the name gives has its file, and that has the hash in lower case. A name in which
the hash is spelled otherwise counts if there is a file of the hash, and through that file
(`warm_accounts`); without one the name is passed over (`warm_capitals`).
-/

namespace Mustache

/-- The hash that the name of a file gives, if it has the form of a program's file name
(`digitsOfName?`) and holds the digits of a hash. -/
def Artifact.hashOfName? (name : String) : Option ContentHash :=
  (digitsOfName? name).bind fun digits => (ContentHash.ofHex digits).toOption

/-- The `fileName` of a program gives `hashOfName?` the hash. -/
theorem Artifact.hashOfName?_fileName (hash : ContentHash) :
    hashOfName? (fileName hash) = some hash := by
  rw [hashOfName?, digitsOfName?_fileName, Option.bind_some, ContentHash.ofHex_text]
  rfl

namespace Storage

/-- What is in the directory of the programs, and nothing if it is not there. -/
def directoryEntries (disk : Disk) (root : String) : List (String × Entry) :=
  match disk.entry (Artifact.directory root) with
  | .ok (.directory entries) => entries
  | .ok (.file _) | .error _ => []

/-- Whether the hash that a name gives has a file. -/
def hasFile (disk : Disk) (root name : String) : Bool :=
  (Artifact.hashOfName? name).any fun hash => (disk.entry (Artifact.path root hash)).isOk

/-- A file is the artifact of a program: it is read as an artifact with the instructions of the
program, and notes down its hash. -/
def Certifies (content : ByteArray) (program : Program) : Prop :=
  ∃ source artifact, String.fromUTF8? content = some source ∧
    Artifact.parse? source = some artifact ∧
    artifact.instructions = program.instructions.toList ∧ artifact.hash = program.hash

/-- A file `Certifies` one program at most. -/
theorem Certifies.unique {content : ByteArray} {first second : Program}
    (left : Certifies content first) (right : Certifies content second) : first = second := by
  obtain ⟨source, artifact, isText, parsed, same, _⟩ := left
  obtain ⟨source', artifact', isText', parsed', same', _⟩ := right
  cases isText.symm.trans isText'
  cases parsed.symm.trans parsed'
  apply Program.ext_instructions
  rw [← Array.toList_inj, ← same, ← same']

/-- What becomes of one name in the directory when no fault is to come. -/
inductive Visited (disk : Disk) (root : String) : String → Option Program → Prop where
  /-- The name has not the form of a program's file name. -/
  | passed {name : String} (other : Artifact.digitsOfName? name = none) :
      Visited disk root name none
  /-- The hash that the name gives has no file. -/
  | missed {name : String} {hash : ContentHash} (named : Artifact.hashOfName? name = some hash)
      (missing : (disk.entry (Artifact.path root hash)).isOk = false) :
      Visited disk root name none
  /-- The file of the hash is the artifact of a program with this hash. -/
  | loaded {name : String} {program : Program} {content : ByteArray}
      (named : Artifact.hashOfName? name = some program.hash)
      (found : disk.entry (Artifact.path root program.hash) = .ok (.file content))
      (certified : Certifies content program) : Visited disk root name (some program)

variable {disk after : Disk} {root name : String} {hash : ContentHash} {program : Program}
  {cache warmed : ProgramCache} {names : List String} {entries : List (String × Entry)}

/-- A program is found for a name exactly where the hash of the name has a file. -/
theorem Visited.isSome_eq {found : Option Program} (visited : Visited disk root name found) :
    found.isSome = hasFile disk root name := by
  cases visited with
  | passed other =>
    rw [hasFile, Artifact.hashOfName?, other]
    rfl
  | missed named missing =>
    rw [hasFile, named, Option.any_some, missing]
    rfl
  | loaded named found =>
    rw [hasFile, named, Option.any_some, found]
    rfl

/-- A name of the form of a program's file name that can be `Visited` gives a hash. -/
theorem Visited.isSome_hashOfName? {found : Option Program}
    (visited : Visited disk root name found) (form : (Artifact.digitsOfName? name).isSome) :
    (Artifact.hashOfName? name).isSome := by
  cases visited with
  | passed other =>
    rw [other] at form
    cases form
  | missed named => rw [named]; rfl
  | loaded named => rw [named]; rfl

/-- Without a fault to come `load` finds no program only where the hash has no file. -/
theorem isOk_eq_false_of_load (calm : disk.fault = none)
    (none : load root hash disk = (.ok none, after)) :
    (disk.entry (Artifact.path root hash)).isOk = false := by
  rw [load, bind_apply, look, Disk.pathExists_of_calm calm] at none
  cases there : (disk.entry (Artifact.path root hash)).isOk with
  | false => rfl
  | true =>
    rw [there] at none
    obtain ⟨artifact, between, _, rest⟩ := bind_eq_ok none
    cases checked : checkArtifact (Artifact.path root hash) hash artifact with
    | error =>
      rw [checked] at rest
      cases rest
    | ok =>
      rw [checked] at rest
      cases rest

/-- Without a fault to come `load` loads nothing where the hash has no file. -/
theorem load_of_missing (calm : disk.fault = none)
    (missing : (disk.entry (Artifact.path root hash)).isOk = false) :
    load root hash disk = (.ok none, disk) := by
  rw [load, bind_apply, look, Disk.pathExists_of_calm calm, missing]
  rfl

/-- One name is `Visited` by `warmFile`: what is found for it is entered, and the answer is whether
anything was. -/
theorem warmFile_visits {flag : Bool} (calm : disk.fault = none)
    (done : warmFile root name (cache, disk) = (.ok flag, warmed, after)) :
    ∃ found, Visited disk root name found ∧ flag = found.isSome ∧
      warmed = cache.insertAll found.toList ∧ after = disk := by
  rw [warmFile_apply] at done
  cases form : Artifact.digitsOfName? name with
  | none =>
    rw [form] at done
    cases done
    exact ⟨none, .passed form, rfl, rfl, rfl⟩
  | some digits =>
    rw [form] at done
    cases read : ContentHash.ofHex digits with
    | error =>
      simp only [read] at done
      cases done
    | ok hash =>
      have named : Artifact.hashOfName? name = some hash := by
        rw [Artifact.hashOfName?, form, Option.bind_some, read]
        rfl
      have unchanged := load_disk_of_calm calm root hash
      simp only [read] at done
      rcases loads : load root hash disk with ⟨_ | _ | program, last⟩
      · rw [loads] at done
        cases done
      · rw [loads] at done unchanged
        cases done
        exact ⟨none, .missed named (isOk_eq_false_of_load calm loads), rfl, rfl, unchanged⟩
      · rw [loads] at done unchanged
        cases done
        obtain ⟨rfl, artifact, ⟨content, source, found, isText, parsed⟩, instructions, noted⟩ :=
          load_eq_ok loads
        exact ⟨some program,
          .loaded named found ⟨source, artifact, isText, parsed, instructions, noted⟩, rfl, rfl,
          unchanged⟩

/-- The names of a directory are `Visited` one after another. -/
theorem mapM_warmFile_visits {flags : List Bool} (calm : disk.fault = none)
    (done : names.mapM (warmFile root) (cache, disk) = (.ok flags, warmed, after)) :
    ∃ found, List.Forall₂ (Visited disk root) names found ∧ flags = found.map Option.isSome ∧
      warmed = cache.insertAll found.reduceOption ∧ after = disk := by
  induction names generalizing cache flags with
  | nil =>
    cases done
    exact ⟨[], .nil, rfl, rfl, rfl⟩
  | cons name rest inductionHypothesis =>
    rw [List.mapM_cons, bind_apply] at done
    rcases first : warmFile root name (cache, disk) with ⟨_ | flag, between, disk'⟩
    · rw [first] at done
      cases done
    · rw [first] at done
      obtain ⟨found, visited, rfl, rfl, rfl⟩ := warmFile_visits calm first
      simp only [bind_apply] at done
      rcases others : rest.mapM (warmFile root) (cache.insertAll found.toList, disk') with
        ⟨_ | flags', last, disk''⟩
      · rw [others] at done
        cases done
      · rw [others] at done
        cases done
        obtain ⟨foundLater, visitedLater, rfl, rfl, rfl⟩ := inductionHypothesis others
        refine ⟨found :: foundLater, .cons visited visitedLater, rfl, ?_, rfl⟩
        rw [← ProgramCache.insertAll_append]
        cases found <;> rfl

/-- The names for which programs are found are those whose hashes have files (`hasFile`). -/
theorem map_isSome_of_visited {found : List (Option Program)}
    (visited : List.Forall₂ (Visited disk root) names found) :
    found.map Option.isSome = names.map (hasFile disk root) := by
  induction visited with
  | nil => rfl
  | cons first _ inductionHypothesis =>
    rw [List.map_cons, List.map_cons, first.isSome_eq, inductionHypothesis]

/-- Each of the names was `Visited`. -/
theorem exists_visited_of_mem {found : List (Option Program)}
    (visited : List.Forall₂ (Visited disk root) names found) (member : name ∈ names) :
    ∃ program? ∈ found, Visited disk root name program? := by
  induction visited with
  | nil => cases member
  | cons first _ inductionHypothesis =>
    rcases List.mem_cons.1 member with rfl | later
    · exact ⟨_, List.mem_cons_self, first⟩
    · obtain ⟨program?, there, visit⟩ := inductionHypothesis later
      exact ⟨program?, List.mem_cons_of_mem _ there, visit⟩

/-- A program that was found is in the file of its hash, which `Certifies` it. -/
theorem exists_certifies_of_visited {found : List (Option Program)}
    (visited : List.Forall₂ (Visited disk root) names found) (member : some program ∈ found) :
    ∃ content, disk.entry (Artifact.path root program.hash) = .ok (.file content) ∧
      Certifies content program := by
  induction visited with
  | nil => cases member
  | cons first _ inductionHypothesis =>
    rcases List.mem_cons.1 member with rfl | later
    · cases first with
      | loaded named file certified => exact ⟨_, file, certified⟩
    · exact inductionHypothesis later

/-- After the warming there is under the hash of a program what was there before, or the
program. -/
def Entered (cache warmed : ProgramCache) (program : Program) : Prop :=
  (warmed.get? program.hash).map (·.program) =
    ((cache.get? program.hash).map (·.program)).or (some program)

/-- No two programs that were found have the same hash. -/
theorem eq_of_visited {found : List (Option Program)}
    (visited : List.Forall₂ (Visited disk root) names found) {first second : Program}
    (firstMember : first ∈ found.reduceOption) (secondMember : second ∈ found.reduceOption)
    (same : first.hash = second.hash) : first = second := by
  obtain ⟨content, file, certified⟩ :=
    exists_certifies_of_visited visited (List.reduceOption_mem_iff.1 firstMember)
  obtain ⟨content', file', certified'⟩ :=
    exists_certifies_of_visited visited (List.reduceOption_mem_iff.1 secondMember)
  rw [← same, file, Except.ok.injEq, Entry.file.injEq] at file'
  subst file'
  exact certified.unique certified'

/-- A program that was found is `Entered`, for no other that was found has its hash. -/
theorem entered_of_visited {found : List (Option Program)}
    (visited : List.Forall₂ (Visited disk root) names found) (member : some program ∈ found) :
    Entered cache (cache.insertAll found.reduceOption) program := by
  have only : ∀ other ∈ found.reduceOption, other.hash = program.hash → other = program :=
    fun other otherMember =>
      eq_of_visited visited otherMember (List.reduceOption_mem_iff.2 member)
  rw [Entered, ProgramCache.get?_insertAll]
  congr 1
  cases search : found.reduceOption.find? (·.hash == program.hash) with
  | none =>
    have absent := List.find?_eq_none.1 search program (List.reduceOption_mem_iff.2 member)
    exact absurd (beq_self_eq_true _) absent
  | some other =>
    have same : other.hash = program.hash := by simpa using List.find?_some search
    rw [only other (List.mem_of_find?_eq_some search) same]

/-- Where the hash of a name has a file (`hasFile`), the file is the artifact of a program with the
hash, and the program is entered. -/
theorem certified_of_visited {found : List (Option Program)} (cache : ProgramCache)
    (visited : List.Forall₂ (Visited disk root) names found) (member : name ∈ names)
    (named : Artifact.hashOfName? name = some hash) (seen : hasFile disk root name = true) :
    ∃ program content, program.hash = hash ∧
      disk.entry (Artifact.path root hash) = .ok (.file content) ∧ Certifies content program ∧
      Entered cache (cache.insertAll found.reduceOption) program := by
  obtain ⟨program?, there, visit⟩ := exists_visited_of_mem visited member
  rw [← visit.isSome_eq] at seen
  cases visit with
  | passed | missed => cases seen
  | loaded named' file certified =>
    cases named.symm.trans named'
    exact ⟨_, _, rfl, file, certified, entered_of_visited visited there⟩

/-- Where `warm` succeeds it visits the names in the directory of the programs and counts those for
which it finds a program. -/
theorem warm_visits {count : Nat} (calm : disk.fault = none)
    (done : warm root (cache, disk) = (.ok count, warmed, after)) :
    ∃ found, List.Forall₂ (Visited disk root) ((directoryEntries disk root).map (·.1)) found ∧
      count = (found.map Option.isSome).countP id ∧
      warmed = cache.insertAll found.reduceOption := by
  have listed := Disk.list_apply (Artifact.directory root) disk
  rw [Disk.attempt_of_calm calm] at listed
  rw [warm_apply, Disk.pathExists_of_calm calm] at done
  unfold directoryEntries
  rcases found : disk.entry (Artifact.directory root) with _ | (_ | entries)
  · rw [found] at done
    cases done
    exact ⟨[], .nil, rfl, rfl⟩
  · simp only [found] at listed
    simp only [found, Except.isOk, Except.toBool, listed] at done
    cases done
  · simp only [found] at listed
    simp only [found, Except.isOk, Except.toBool, listed] at done
    rcases visits : (entries.map (·.1)).mapM (warmFile root) (cache, disk) with
      ⟨_ | flags, last⟩
    · rw [visits] at done
      cases done
    · rw [visits] at done
      cases done
      obtain ⟨programs, visited, rfl, rfl, rfl⟩ := mapM_warmFile_visits calm visits
      exact ⟨programs, visited, rfl, rfl⟩

theorem directoryEntries_of_directoryAt {location : List String}
    (there : disk.DirectoryAt (Artifact.directory root) location entries)
    (fits : Disk.Fits (Artifact.directory root)) : directoryEntries disk root = entries := by
  unfold directoryEntries
  rw [there.entry fits]

/-- The entry under the `fileName` of a program is the `entry` at the program's path, if the path
can be followed. -/
theorem entry_path_of_lookup {entry : Entry}
    (own : (directoryEntries disk root).lookup (Artifact.fileName hash) = some entry)
    (fits : Disk.Fits (Artifact.path root hash)) :
    disk.entry (Artifact.path root hash) = .ok entry := by
  unfold directoryEntries at own
  rcases found : disk.entry (Artifact.directory root) with _ | (_ | entries)
  · rw [found] at own
    cases own
  · rw [found] at own
    cases own
  · rw [found] at own
    obtain ⟨_, location, there⟩ := Disk.directoryAt_of_entry found
    exact there.entry_join (Artifact.isPlain_fileName hash) fits own

/-- A hash has a file (`hasFile`) if there is an entry under the name of its program's file. -/
theorem hasFile_of_lookup {entry : Entry}
    (own : (directoryEntries disk root).lookup (Artifact.fileName hash) = some entry)
    (fits : Disk.Fits (Artifact.path root hash)) :
    hasFile disk root (Artifact.fileName hash) = true := by
  rw [hasFile, Artifact.hashOfName?_fileName, Option.any_some, entry_path_of_lookup own fits]
  rfl

/-- The only file on a `shelf` is that of a program. -/
theorem shelves_shelf (now : Timestamp) (program : Program) :
    Shelves "/" now [program]
      (shelf program.hash ⟨program.hash, now, program.instructions.toList⟩) :=
  ⟨rfl, .inl ⟨_, [program], .refl _, directoryAt_shelf _ _⟩⟩

/-- What `warmFile` makes of a name that gives a hash is told by `load` of the hash. -/
theorem warmFile_of_hashOfName? (named : Artifact.hashOfName? name = some hash)
    (cache : ProgramCache) (disk : Disk) :
    warmFile root name (cache, disk) =
      match load root hash disk with
      | (.error error, after) => (.error error, cache, after)
      | (.ok none, after) => (.ok false, cache, after)
      | (.ok (some program), after) => (.ok true, (cache.insert program).2, after) := by
  rw [Artifact.hashOfName?, Option.bind_eq_some_iff] at named
  obtain ⟨digits, form, read⟩ := named
  rw [warmFile_apply, form]
  cases isHash : ContentHash.ofHex digits with
  | error =>
    rw [isHash] at read
    cases read
  | ok other =>
    rw [isHash] at read
    cases read
    rcases loaded : load root hash disk with ⟨_ | _ | _, _⟩ <;> simp only [isHash, loaded]

/-- A name whose hash has no file is passed over by `warmFile`, although it gives a hash. -/
theorem warmFile_of_missing (calm : disk.fault = none)
    (named : Artifact.hashOfName? name = some hash)
    (missing : (disk.entry (Artifact.path root hash)).isOk = false) :
    warmFile root name (cache, disk) = (.ok false, cache, disk) := by
  rw [warmFile_of_hashOfName? named, load_of_missing calm missing]

/-- Where the directory holds one file, and its name spells a hash otherwise than the hash is looked
for, `warm` loads nothing. -/
theorem warm_of_misspelled {location : List String} {content : ByteArray}
    (calm : disk.fault = none) (fits : Fits root)
    (there : disk.DirectoryAt (Artifact.directory root) location [(name, .file content)])
    (named : Artifact.hashOfName? name = some hash) (misspelled : Artifact.fileName hash ≠ name) :
    warm root (cache, disk) = (.ok 0, cache, disk) := by
  have free : [(name, Entry.file content)].lookup (Artifact.fileName hash) = none := by
    rw [List.lookup_eq_none_iff]
    simpa using misspelled
  have missing : (disk.entry (Artifact.path root hash)).isOk = false := by
    rw [Artifact.path_eq_join, there.entry_join_of_free (Artifact.isPlain_fileName hash)
      (fits.path hash) free]
    rfl
  rw [warm_apply, Disk.pathExists_of_calm calm, there.entry fits.directory]
  simp only [Except.isOk, Except.toBool, Disk.list_of_directoryAt there calm fits.directory,
    List.map_cons, List.map_nil, List.mapM_cons, List.mapM_nil]
  rw [bind_apply, warmFile_of_missing calm named missing]
  rfl

/-- Let `warm` succeed with no fault to come. Every name of the form of a program's file name gives
a hash, and those are counted whose hash has a file. That file is the artifact of a program with the
hash, and the program is in the cache then. An entry whose name spells its hash in lower case is
counted through its own content, unless its path is too long; so where all entries whose names give
hashes are of this kind, all of them are counted. -/
theorem warm_accounts {count : Nat} (calm : disk.fault = none)
    (done : warm root (cache, disk) = (.ok count, warmed, after)) :
    let names := (directoryEntries disk root).map (·.1)
    (∀ name ∈ names, (Artifact.digitsOfName? name).isSome → (Artifact.hashOfName? name).isSome) ∧
    count = names.countP (hasFile disk root) ∧
    (∀ name ∈ names, ∀ hash, Artifact.hashOfName? name = some hash →
      hasFile disk root name = true →
      ∃ program content, program.hash = hash ∧
        disk.entry (Artifact.path root hash) = .ok (.file content) ∧ Certifies content program ∧
        Entered cache warmed program) ∧
    (∀ hash entry, (directoryEntries disk root).lookup (Artifact.fileName hash) = some entry →
      Disk.Fits (Artifact.path root hash) →
      hasFile disk root (Artifact.fileName hash) = true ∧
        ∃ program content, program.hash = hash ∧ entry = .file content ∧
          Certifies content program ∧ Entered cache warmed program) ∧
    ((∀ name ∈ names, ∀ hash, Artifact.hashOfName? name = some hash →
        name = Artifact.fileName hash ∧ Disk.Fits (Artifact.path root hash)) →
      count = names.countP fun name => (Artifact.hashOfName? name).isSome) := by
  intro names
  obtain ⟨found, visited, rfl, rfl⟩ := warm_visits calm done
  have counted : (found.map Option.isSome).countP id = names.countP (hasFile disk root) := by
    rw [map_isSome_of_visited visited, List.countP_map]
    rfl
  refine ⟨?_, counted, ?_, ?_, ?_⟩
  · intro name member form
    obtain ⟨program?, _, visit⟩ := exists_visited_of_mem visited member
    exact visit.isSome_hashOfName? form
  · intro name member hash named seen
    exact certified_of_visited cache visited member named seen
  · intro hash entry own fits
    have seen := hasFile_of_lookup own fits
    have member : Artifact.fileName hash ∈ names :=
      Entry.exists_lookup_iff.1 ⟨entry, own⟩
    obtain ⟨program, content, same, file, certified, entered⟩ :=
      certified_of_visited cache visited member (Artifact.hashOfName?_fileName hash) seen
    rw [entry_path_of_lookup own fits, Except.ok.injEq] at file
    exact ⟨seen, program, content, same, file, certified, entered⟩
  · intro inPlace
    rw [counted]
    apply List.countP_congr
    intro name member
    cases named : Artifact.hashOfName? name with
    | none => simp [hasFile, named]
    | some hash =>
      obtain ⟨rfl, fits⟩ := inPlace name member hash named
      obtain ⟨entry, own⟩ := Entry.exists_lookup_iff.2 member
      simpa using hasFile_of_lookup own fits

/-- The one file of a program is counted, and its content is what is verified. -/
theorem warm_accounts_letter :
    let content := (Artifact.text ⟨letter.hash, .epoch, letter.instructions.toList⟩).toByteArray
    let disk := shelf letter.hash ⟨letter.hash, .epoch, letter.instructions.toList⟩
    let names := (directoryEntries disk "/").map (·.1)
    disk.fault = none ∧ ∃ warmed, warm "/" (.empty, disk) = (.ok 1, warmed, disk) ∧
      (∀ name ∈ names, ∀ hash, Artifact.hashOfName? name = some hash →
        name = Artifact.fileName hash ∧ Disk.Fits (Artifact.path "/" hash)) ∧
      (1 = names.countP fun name => (Artifact.hashOfName? name).isSome) ∧
      ∃ program, program.hash = letter.hash ∧ Certifies content program ∧
        Entered .empty warmed program := by
  intro content disk names
  have distinct : ([letter].map (·.hash)).Nodup := by simp
  obtain ⟨ordered, _, done⟩ :=
    warm_of_shelves fits_slash distinct (shelves_shelf .epoch letter) .empty
  have entries : directoryEntries disk "/" =
      [(Artifact.fileName letter.hash, .file content)] :=
    directoryEntries_of_directoryAt (directoryAt_shelf _ _) fits_slash.directory
  have inPlace : ∀ name ∈ names, ∀ hash, Artifact.hashOfName? name = some hash →
      name = Artifact.fileName hash ∧ Disk.Fits (Artifact.path "/" hash) := by
    intro name member hash named
    have only : names = [Artifact.fileName letter.hash] := congrArg (List.map (·.1)) entries
    rw [only, List.mem_singleton] at member
    rw [member, Artifact.hashOfName?_fileName, Option.some.injEq] at named
    rw [member, named]
    exact ⟨rfl, fits_path_slash hash⟩
  obtain ⟨_, _, _, own, all⟩ := warm_accounts rfl done
  have found : (directoryEntries disk "/").lookup (Artifact.fileName letter.hash) =
      some (.file content) := by
    rw [entries, List.lookup_cons_self]
  obtain ⟨_, program, read, same, isContent, certified, entered⟩ :=
    own letter.hash (.file content) found (fits_path_slash letter.hash)
  rw [Entry.file.injEq] at isContent
  rw [← isContent] at certified
  exact ⟨rfl, _, done, inPlace, all inPlace, program, same, certified, entered⟩

/-- A file with the artifact of a program is passed over if its name spells the hash in
capitals. -/
theorem warm_capitals :
    let name := Artifact.nameStart ++ letter.hash.text.toUpper ++ Artifact.nameEnd
    let content := (Artifact.text ⟨letter.hash, .epoch, letter.instructions.toList⟩).toByteArray
    let disk : Disk := ⟨.directory [("stache", .directory [("programs",
      .directory [(name, .file content)])])], [], none⟩
    directoryEntries disk "/" = [(name, .file content)] ∧
      Artifact.hashOfName? name = some letter.hash ∧ Certifies content letter ∧
      warm "/" (.empty, disk) = (.ok 0, .empty, disk) := by
  intro name content disk
  have there : disk.DirectoryAt (Artifact.directory "/") ["stache", "programs"]
      [(name, .file content)] := directoryAt_slash _
  obtain ⟨named, misspelled⟩ : Artifact.hashOfName? name = some letter.hash ∧
      Artifact.fileName letter.hash ≠ name := by decide +kernel
  refine ⟨directoryEntries_of_directoryAt there fits_slash.directory, named, ?_, ?_⟩
  · exact ⟨_, _, fromUTF8?_toByteArray _, Artifact.parse?_text _, rfl, rfl⟩
  · exact warm_of_misspelled rfl fits_slash there named misspelled

end Storage

end Mustache
