import Mathlib.Data.List.Induction
import ScriptLint.Files.Store
import ScriptLint.Proofs.Success

/-!
# Changes to files

What writing a file and making directories change. Directories are only ever added where nothing
stood, so paths that led somewhere lead there still. A path that led nowhere may now lead to a file
that has been there all along: `missing/../name` does once the missing directory is made. In a tree,
only paths that go up somewhere can do that.
-/

namespace ScriptLint.FileSystem

variable {files after : FileSystem} {location : Location}

/-! ## Places -/

theorem entry?_put_self (inner : location ≠ []) (entry : Entry) :
    entry? (files.put location entry) location = some entry := by
  simp [put, entry?, inner]

theorem entry?_put_of_ne {other : Location} (ne : other ≠ location) (entry : Entry) :
    entry? (files.put location entry) other = files.entry? other := by
  have apart : ∀ place : Location, place ≠ location ∧ place = other ↔ place = other := by
    rintro place
    constructor
    · exact And.right
    · rintro rfl
      exact ⟨ne, rfl⟩
  simp only [put, entry?, List.find?_cons_of_neg, ne.symm, decide_false, Bool.false_eq_true,
    not_false_eq_true, List.find?_filter, decide_eq_true_eq, apart]

theorem ne_nil_of_entry?_ne (free : files.entry? location ≠ some .directory) : location ≠ [] := by
  rintro rfl
  exact free rfl

/-- Whatever stands somewhere stands in a directory. -/
def IsTree (files : FileSystem) : Prop :=
  ∀ above name, (files.entry? (above ++ [name])).isSome → files.entry? above = some .directory

/-- Files are a tree if whatever is listed stands in a directory. -/
theorem isTree_of_entries
    (stand : ∀ listed ∈ files.entries, files.entry? listed.1.dropLast = some .directory) :
    IsTree files := by
  intro above name stands
  have below : above ++ [name] ≠ [] := by simp
  unfold entry? at stands
  rw [if_neg below, Option.isSome_map] at stands
  obtain ⟨listed, found⟩ := Option.isSome_iff_exists.mp stands
  have place : listed.1 = above ++ [name] := by simpa using List.find?_some found
  simpa [place] using stand listed (List.mem_of_find?_eq_some found)

/-- Everything above a place where something stands is a directory. -/
theorem IsTree.entry?_above (tree : files.IsTree) {above below : Location} (proper : below ≠ [])
    (stands : (files.entry? (above ++ below)).isSome) : files.entry? above = some .directory := by
  induction below using List.reverseRecOn with
  | nil => exact absurd rfl proper
  | append_singleton below name ih =>
    rw [← List.append_assoc] at stands
    have parent := tree _ _ stands
    by_cases top : below = []
    · rwa [top, List.append_nil] at parent
    · exact ih top (by rw [parent]; rfl)

/-- The directory above a directory is one. -/
theorem IsTree.entry?_dropLast (tree : files.IsTree)
    (directory : files.entry? location = some .directory) :
    files.entry? location.dropLast = some .directory := by
  rcases List.eq_nil_or_concat location with rfl | ⟨above, name, rfl⟩
  · exact directory
  · rw [List.concat_eq_append] at directory ⊢
    rw [List.dropLast_concat]
    exact tree _ _ (by rw [directory]; rfl)

/-! ## Paths that lead somewhere -/

/-- A segment leads on from a directory: it stays there, goes up, or goes down by its name. -/
theorem follow_cases {segment : String} {next : Location}
    (led : files.follow location segment = .ok next) :
    files.entry? location = some .directory ∧
      (segment = "." ∧ next = location ∨ segment = ".." ∧ next = location.dropLast ∨
        segment ≠ "." ∧ segment ≠ ".." ∧ next = location ++ [segment]) := by
  unfold follow at led
  split at led
  · simp at led
  · simp at led
  · refine ⟨by assumption, ?_⟩
    split at led
    · exact .inl ⟨by assumption, (Except.ok.inj led).symm⟩
    · split at led
      · exact .inr (.inl ⟨by assumption, (Except.ok.inj led).symm⟩)
      · split at led
        · simp at led
        · exact .inr (.inr ⟨by assumption, by assumption, (Except.ok.inj led).symm⟩)

theorem follow_congr (here : files.entry? location = some .directory)
    (there : after.entry? location = some .directory) (segment : String) :
    after.follow location segment = files.follow location segment := by
  simp only [follow, here, there]

/-- All directories are still directories, and paths start where they started. -/
structure KeepsDirectories (files after : FileSystem) : Prop where
  workingDirectory : after.workingDirectory = files.workingDirectory
  directory : ∀ location, files.entry? location = some .directory →
    after.entry? location = some .directory

theorem KeepsDirectories.foldlM_follow (keeps : KeepsDirectories files after)
    {segments : List String} {start : Location}
    (led : segments.foldlM files.follow start = .ok location) :
    segments.foldlM after.follow start = .ok location := by
  induction segments generalizing start with
  | nil => exact led
  | cons segment segments ih =>
    obtain ⟨next, step, led⟩ := bind_eq_ok_iff.mp led
    have here := (follow_cases step).1
    rw [List.foldlM_cons, follow_congr here (keeps.directory _ here), step]
    exact ih led

/-- The place that the segments of a path start from. -/
def origin (files : FileSystem) (path : Path) : Location :=
  if path.isAbsolute then [] else files.workingDirectory

/-- A path has a place if it can be asked for and its segments lead on. -/
theorem locate_eq_ok_iff {path : Path} :
    files.locate path = .ok location ↔
      ('\x00' ∉ path.text.toList ∧ path.text ≠ "" ∧ path.text.utf8ByteSize ≤ maxPathBytes) ∧
        path.segments.foldlM files.follow (files.origin path) = .ok location := by
  unfold locate resolve origin
  split
  · simp [*]
  · split
    · simp [*]
    · split
      · simp only [reduceCtorEq, false_iff]
        omega
      · simp_all

theorem KeepsDirectories.locate (keeps : KeepsDirectories files after) {path : Path}
    (led : files.locate path = .ok location) : after.locate path = .ok location := by
  rw [locate_eq_ok_iff] at led ⊢
  refine ⟨led.1, ?_⟩
  rw [origin, keeps.workingDirectory]
  exact keeps.foldlM_follow led.2

/-- A text is read from the file that the path leads to. -/
theorem exists_file_of_readText {path : Path} {text : String}
    (read : files.readText path = .ok text) :
    ∃ location content, files.locate path = .ok location ∧
      files.entry? location = some (.file content) := by
  obtain ⟨bytes, read, -⟩ := bind_eq_ok_iff.mp read
  obtain ⟨entry, found, read⟩ := bind_eq_ok_iff.mp read
  obtain ⟨location, led, found⟩ := bind_eq_ok_iff.mp found
  cases stands : files.entry? location with
  | none => simp [stands] at found
  | some standing =>
    cases standing with
    | file content => exact ⟨location, content, led, stands⟩
    | directory =>
      obtain rfl : .directory = entry := by simpa [stands] using found
      simp at read

theorem contains_of_file {path : Path} {content : Bytes} (file : path.endsWithSlash = false)
    (led : files.locate path = .ok location)
    (stands : files.entry? location = some (.file content)) : files.contains path := by
  simp [contains, lookup, led, ok_bind, stands, file]

/-! ## Writing -/

theorem write_eq_ok_iff {path : Path} {content : Bytes} :
    files.write path content = .ok after ↔
      path.endsWithSlash = false ∧ ∃ location, files.locate path = .ok location ∧
        files.entry? location ≠ some .directory ∧ after = files.put location (.file content) := by
  unfold write
  cases path.endsWithSlash with
  | true => simp [bind_eq_ok_iff]
  | false =>
    simp only [Bool.false_eq_true, if_false, bind_eq_ok_iff, true_and]
    refine exists_congr fun location => and_congr_right fun _ => ?_
    split
    · simp [*]
    · next free => simp [free, eq_comm (a := after)]

theorem keepsDirectories_put (free : files.entry? location ≠ some .directory) (content : Bytes) :
    KeepsDirectories files (files.put location (.file content)) where
  workingDirectory := rfl
  directory other directory := by
    have ne : other ≠ location := by
      rintro rfl
      exact free directory
    rw [entry?_put_of_ne ne, directory]

/-- What was written is what is read. -/
theorem readText_of_write {path : Path} {text : String}
    (written : files.write path (Bytes.ofText text) = .ok after) :
    after.readText path = .ok text := by
  obtain ⟨file, location, led, free, rfl⟩ := write_eq_ok_iff.mp written
  have led := (keepsDirectories_put free (Bytes.ofText text)).locate led
  have inner : location ≠ [] := ne_nil_of_entry?_ne free
  have stands : entry? (files.put location (.file (Bytes.ofText text))) location = _ :=
    entry?_put_self inner _
  simp [readText, read, lookup, led, ok_bind, stands, file, decode, Bytes.text?_ofText]

/-! ## Making directories -/

/-- Nothing but directories is new, and they stand where nothing stood. -/
structure Grows (files after : FileSystem) : Prop where
  workingDirectory : after.workingDirectory = files.workingDirectory
  entry? : ∀ location, after.entry? location = files.entry? location ∨
    files.entry? location = none ∧ after.entry? location = some .directory

theorem Grows.refl (files : FileSystem) : files.Grows files :=
  ⟨rfl, fun _ => .inl rfl⟩

theorem Grows.entry?_of_some (grows : files.Grows after) {entry : Entry}
    (stands : files.entry? location = some entry) : after.entry? location = some entry := by
  rcases grows.entry? location with same | ⟨missing, -⟩
  · rw [same, stands]
  · simp [missing] at stands

theorem Grows.trans {middle : FileSystem} (first : files.Grows middle)
    (second : middle.Grows after) : files.Grows after where
  workingDirectory := second.workingDirectory.trans first.workingDirectory
  entry? location := by
    rcases first.entry? location with same | ⟨missing, made⟩
    · rw [← same]
      exact second.entry? location
    · exact .inr ⟨missing, second.entry?_of_some made⟩

theorem Grows.keepsDirectories (grows : files.Grows after) : KeepsDirectories files after :=
  ⟨grows.workingDirectory, fun _ => grows.entry?_of_some⟩

theorem grows_of_makeDirectory {path : Path} (made : files.makeDirectory path = .ok after) :
    files.Grows after := by
  obtain ⟨location, -, made⟩ := bind_eq_ok_iff.mp made
  cases missing : files.entry? location with
  | some entry => simp [missing] at made
  | none =>
    obtain rfl : files.put location .directory = after := by simpa [missing] using made
    have free : files.entry? location ≠ some .directory := by simp [missing]
    have inner : location ≠ [] := ne_nil_of_entry?_ne free
    refine ⟨rfl, fun other => ?_⟩
    by_cases same : other = location
    · rw [same]
      exact .inr ⟨missing, entry?_put_self inner _⟩
    · exact .inl (entry?_put_of_ne same _)

theorem grows_of_ensureDirectory {path : Path} (made : files.ensureDirectory path = .ok after) :
    files.Grows after := by
  unfold ensureDirectory at made
  split at made
  · next new =>
    rw [← Except.ok.inj made]
    exact grows_of_makeDirectory new
  · split at made
    · rw [← Except.ok.inj made]
      exact .refl files
    · simp at made

theorem grows_of_makeDirectories {paths : List Path}
    (made : files.makeDirectories paths = .ok after) : files.Grows after := by
  induction paths generalizing after with
  | nil =>
    rw [← Except.ok.inj made]
    exact .refl files
  | cons path above ih =>
    unfold makeDirectories at made
    split at made
    · rw [← Except.ok.inj made]
      exact .refl files
    · split at made
      · obtain ⟨middle, first, made⟩ := bind_eq_ok_iff.mp made
        exact (ih first).trans (grows_of_ensureDirectory made)
      · exact grows_of_ensureDirectory made

/-! ## Going down only -/

/-- Segments that never go up lead to somewhere below. -/
theorem exists_below_of_foldlM_follow {segments : List String} {start : Location}
    (downward : ".." ∉ segments) (led : segments.foldlM files.follow start = .ok location) :
    ∃ below, location = start ++ below := by
  induction segments generalizing start with
  | nil => exact ⟨[], by simpa using (Except.ok.inj led).symm⟩
  | cons segment segments ih =>
    obtain ⟨next, step, led⟩ := bind_eq_ok_iff.mp led
    obtain ⟨below, rfl⟩ := ih (List.not_mem_of_not_mem_cons downward) led
    obtain ⟨-, ⟨-, rfl⟩ | ⟨rfl, -⟩ | ⟨-, -, rfl⟩⟩ := follow_cases step
    · exact ⟨below, rfl⟩
    · simp at downward
    · exact ⟨segment :: below, by simp⟩

/-- Making directories opens no new way down to a file. -/
theorem Grows.foldlM_follow_of_file (grows : files.Grows after) (tree : files.IsTree)
    {segments : List String} {start : Location} {content : Bytes} (downward : ".." ∉ segments)
    (led : segments.foldlM after.follow start = .ok location)
    (stands : files.entry? location = some (.file content)) :
    segments.foldlM files.follow start = .ok location := by
  induction segments generalizing start with
  | nil => exact led
  | cons segment segments ih =>
    obtain ⟨below, rfl⟩ := exists_below_of_foldlM_follow downward led
    obtain ⟨next, step, led⟩ := bind_eq_ok_iff.mp led
    have there := (follow_cases step).1
    have proper : below ≠ [] := by
      rintro rfl
      rw [List.append_nil] at stands
      rw [grows.entry?_of_some stands] at there
      simp at there
    have here := tree.entry?_above proper (by rw [stands]; rfl)
    rw [List.foldlM_cons, ← follow_congr here there, step]
    exact ih (List.not_mem_of_not_mem_cons downward) led

end ScriptLint.FileSystem
