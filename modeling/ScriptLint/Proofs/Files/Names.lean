import ScriptLint.Proofs.Files.Changes
import ScriptLint.Proofs.Text.Pieces

/-!
# Names at the end of paths

The place of a file ends with the last segment of every path that leads to it, so the report of a
file goes to another place than the file itself.
-/

namespace ScriptLint

/-! ## Last segments -/

namespace Path

/-- A name, as it may stand between slashes. -/
structure IsName (name : String) : Prop where
  nonempty : name ≠ ""
  whole : '/' ∉ name.toList
  ne_current : name ≠ "."
  ne_parent : name ≠ ".."

theorem isName_of_mem_segments {path : Path} {name : String} (member : name ∈ path.segments)
    (ne_current : name ≠ ".") (ne_parent : name ≠ "..") : IsName name := by
  obtain ⟨step, nonempty⟩ : name ∈ path.steps ∧ name ≠ "" := by simpa [segments] using member
  obtain ⟨piece, split, rfl⟩ := List.mem_map.mp step
  exact ⟨nonempty, by simpa using notMem_of_mem_pieces split, ne_current, ne_parent⟩

theorem isName_of_three_le {name : String} (long : 3 ≤ name.length) (whole : '/' ∉ name.toList) :
    IsName name := by
  have other {text : String} (short : text.length ≤ 2) : name ≠ text := by
    rintro rfl
    omega
  exact ⟨other (by decide), whole, other (by decide), other (by decide)⟩

theorem IsName.append {name suffix : String} (isName : IsName name) (long : 2 ≤ suffix.length)
    (whole : '/' ∉ suffix.toList) : IsName (name ++ suffix) := by
  have named : name.length ≠ 0 := by
    simpa using isName.nonempty
  have length : (name ++ suffix).length = name.length + suffix.length := String.length_append ..
  exact isName_of_three_le (by omega) (by simp [isName.whole, whole])

/-- The last component of a path, if it is a name, is one. -/
theorem isName_of_fileName? {path : Path} {name : String} (found : path.fileName? = some name) :
    IsName name := by
  have last : path.components.getLast? = some (.normal name) := by
    unfold fileName? at found
    split at found
    · next known =>
      rw [known, Option.some.inj found]
    · cases found
  have member := List.mem_of_getLast? last
  simp only [components, List.mem_append, List.mem_map, List.mem_filter, decide_eq_true_eq]
    at member
  obtain leading | ⟨segment, ⟨inSegments, ne_current⟩, isNormal⟩ := member
  · cases known : path.start <;> simp [known] at leading
  · split at isNormal
    · cases isNormal
    · next ne_parent =>
      rw [← Component.normal.inj isNormal]
      exact isName_of_mem_segments inSegments ne_current ne_parent

theorem segments_of_text_eq {path : Path} (front back : List Char)
    (text : path.text.toList = front ++ '/' :: back) :
    path.segments = (Path.mk (String.ofList front)).segments ++
      (Path.mk (String.ofList back)).segments := by
  simp [segments, steps, text, pieces_append_cons]

theorem segments_of_whole {name : String} (whole : '/' ∉ name.toList) (nonempty : name ≠ "") :
    (Path.mk name).segments = [name] := by
  simp [segments, steps, pieces_of_notMem whole, nonempty]

theorem segments_empty : (Path.mk "").segments = [] := by
  decide

theorem isAbsolute_of_isName {name : String} (isName : IsName name) :
    (Path.mk name).isAbsolute = false := by
  have whole := isName.whole
  cases text : name.toList with
  | nil => simp [isAbsolute, text]
  | cons c rest =>
    rw [text, List.mem_cons, not_or] at whole
    simpa [isAbsolute, text] using Ne.symm whole.1

/-- A name is put behind a directory with one slash in between, unless there is no directory. -/
theorem join_cases {name : String} (isName : IsName name) (directory : Path) :
    directory = ⟨""⟩ ∧ directory.join ⟨name⟩ = ⟨name⟩ ∨
      ∃ front, (directory.join ⟨name⟩).text.toList = front ++ '/' :: name.toList ∧
        (directory.text.toList = front ++ ['/'] ∨ directory.text.toList = front ∧ front ≠ []) := by
  unfold join
  rw [if_neg (by simp [isAbsolute_of_isName isName])]
  by_cases empty : directory.text = ""
  · obtain rfl : directory = ⟨""⟩ := by
      rw [← empty]
    exact .inl ⟨rfl, by simp⟩
  right
  by_cases slash : directory.endsWithSlash
  · obtain ⟨front, text⟩ : ∃ front, directory.text.toList = front ++ ['/'] :=
      List.getLast?_eq_some_iff.mp (by simpa [endsWithSlash] using slash)
    rw [if_pos (by simp [slash])]
    exact ⟨front, by simp [text], .inl text⟩
  · rw [if_neg (by simp [empty, slash])]
    exact ⟨directory.text.toList, by simp, .inr ⟨rfl, by simpa using empty⟩⟩

/-- A name in a directory is the last segment of its path. -/
theorem segments_join {name : String} (isName : IsName name) (directory : Path) :
    (directory.join ⟨name⟩).segments = directory.segments ++ [name] := by
  have single := segments_of_whole isName.whole isName.nonempty
  obtain ⟨rfl, joined⟩ | ⟨front, joined, text | ⟨text, -⟩⟩ := join_cases isName directory
  · rw [joined, single, segments_empty, List.nil_append]
  · rw [segments_of_text_eq front name.toList joined, segments_of_text_eq front [] text]
    simp [single, segments_empty]
  · rw [segments_of_text_eq front name.toList joined, ← text]
    simp [single]

/-- What stands before a slash says how a path starts. -/
theorem start_of_text_eq {path : Path} {front back : List Char}
    (text : path.text.toList = front ++ '/' :: back) :
    path.start = if front = [] then .root else (Path.mk (String.ofList front)).start := by
  cases front with
  | nil => simp [start, isAbsolute, text]
  | cons c front =>
    have absolute : path.isAbsolute = (Path.mk (String.ofList (c :: front))).isAbsolute := by
      simp [isAbsolute, text]
    have first : path.steps.head? = (Path.mk (String.ofList (c :: front))).steps.head? := by
      obtain ⟨piece, later, split⟩ :=
        List.exists_cons_of_ne_nil (pieces_ne_nil '/' (c :: front))
      rw [steps, steps, text, pieces_append_cons, String.toList_ofList, split]
      rfl
    simp [start, absolute, first]

/-- A name in a directory is reached from where the directory is. -/
theorem start_join {name : String} (isName : IsName name) (directory : Path) :
    (directory.join ⟨name⟩).start = directory.start := by
  obtain ⟨rfl, joined⟩ | ⟨front, joined, text | ⟨text, nonempty⟩⟩ := join_cases isName directory
  · have steps : (Path.mk name).steps = [name] := by simp [steps, pieces_of_notMem isName.whole]
    have plain : (Path.mk "").start = .plain := by decide
    rw [joined, plain]
    simp [start, isAbsolute_of_isName isName, steps, isName.ne_current]
  · rw [start_of_text_eq joined, start_of_text_eq text]
  · rw [start_of_text_eq joined, if_neg nonempty, ← text, String.ofList_toList]

/-- A name in a directory is the last component of its path. -/
theorem components_join {name : String} (isName : IsName name) (directory : Path) :
    (directory.join ⟨name⟩).components = directory.components ++ [.normal name] := by
  simp [components, start_join isName, segments_join isName, isName.ne_current,
    isName.ne_parent]

theorem isAbsolute_eq_start (path : Path) : path.isAbsolute = decide (path.start = .root) := by
  unfold start
  split
  · simp [*]
  · split <;> simp_all

theorem fileName?_of_segments {path : Path} {before : List String} {name : String}
    (last : path.segments = before ++ [name]) (isName : IsName name) :
    path.fileName? = some name := by
  simp [fileName?, components, last, isName.ne_current, isName.ne_parent]

/-- A relative path has a segment, unless it is empty. -/
theorem segments_ne_nil {path : Path} (nonempty : path.text ≠ "")
    (relative : path.isAbsolute = false) : path.segments ≠ [] := by
  cases text : path.text.toList with
  | nil => exact absurd (String.toList_eq_nil_iff.mp text) nonempty
  | cons c rest =>
    have ne : c ≠ '/' := by simpa [isAbsolute, text] using relative
    obtain ⟨piece, later, -, taken⟩ := pieces_cons_of_ne ne rest
    simp [segments, steps, text, taken]

end Path

namespace FileSystem

variable {files : FileSystem} {path : Path} {location : Location}

theorem exists_follow_of_locate {before : List String} {name : String}
    (last : path.segments = before ++ [name]) (led : files.locate path = .ok location) :
    ∃ above, before.foldlM files.follow (files.origin path) = .ok above ∧
      files.follow above name = .ok location := by
  obtain ⟨-, led⟩ := locate_eq_ok_iff.mp led
  rw [last, List.foldlM_append] at led
  obtain ⟨above, way, led⟩ := bind_eq_ok_iff.mp led
  obtain ⟨next, step, done⟩ := bind_eq_ok_iff.mp led
  rw [← Except.ok.inj done]
  exact ⟨above, way, step⟩

/-- A path that ends with a name leads to a place of that name, in the directory that the segments
before it lead to. -/
theorem exists_above_of_locate {before : List String} {name : String}
    (last : path.segments = before ++ [name]) (isName : Path.IsName name)
    (led : files.locate path = .ok location) :
    ∃ above, before.foldlM files.follow (files.origin path) = .ok above ∧
      files.entry? above = some .directory ∧ location = above ++ [name] := by
  obtain ⟨above, way, step⟩ := exists_follow_of_locate last led
  obtain ⟨directory, ⟨current, -⟩ | ⟨parent, -⟩ | ⟨-, -, down⟩⟩ := follow_cases step
  · exact absurd current isName.ne_current
  · exact absurd parent isName.ne_parent
  · exact ⟨above, way, directory, down⟩

/-- In a tree, a path that leads to a file ends with the name of the file. -/
theorem exists_name_of_file (tree : files.IsTree) {content : Bytes}
    (led : files.locate path = .ok location)
    (stands : files.entry? location = some (.file content)) :
    ∃ before name, path.segments = before ++ [name] ∧ Path.IsName name := by
  have noDirectory : files.entry? location ≠ some .directory := by simp [stands]
  rcases List.eq_nil_or_concat path.segments with none | ⟨before, name, last⟩
  · -- Only the root is reached without a segment.
    obtain ⟨⟨-, nonempty, -⟩, led⟩ := locate_eq_ok_iff.mp led
    cases absolute : path.isAbsolute with
    | true =>
      obtain rfl : [] = location := by simpa [none, origin, absolute, pure, Except.pure] using led
      exact absurd rfl noDirectory
    | false => exact absurd none (Path.segments_ne_nil nonempty absolute)
  · rw [List.concat_eq_append] at last
    obtain ⟨above, -, step⟩ := exists_follow_of_locate last led
    obtain ⟨directory, ⟨-, rfl⟩ | ⟨-, rfl⟩ | ⟨ne_current, ne_parent, -⟩⟩ := follow_cases step
    · exact absurd directory noDirectory
    · exact absurd (tree.entry?_dropLast directory) noDirectory
    · have member : name ∈ path.segments := by simp [last]
      exact ⟨before, name, last, Path.isName_of_mem_segments member ne_current ne_parent⟩

/-- A file and the file that is named after it are not the same, wherever that one is. -/
theorem locate_ne_of_suffixed (tree : files.IsTree) {content : Bytes} {place : Location}
    (led : files.locate path = .ok location)
    (stands : files.entry? location = some (.file content)) (directory : Path) {suffix : String}
    (long : 2 ≤ suffix.length) (whole : '/' ∉ suffix.toList)
    (other : files.locate
      (directory.join ⟨path.fileName?.getD path.text ++ suffix⟩) = .ok place) :
    place ≠ location := by
  obtain ⟨before, name, last, isName⟩ := exists_name_of_file tree led stands
  obtain ⟨above, -, -, rfl⟩ := exists_above_of_locate last isName led
  rw [Path.fileName?_of_segments last isName, Option.getD_some] at other
  have suffixed := isName.append long whole
  obtain ⟨otherAbove, -, -, rfl⟩ :=
    exists_above_of_locate (Path.segments_join suffixed directory) suffixed other
  intro same
  have sameName : name ++ suffix = name := by
    simpa using (List.append_inj' same rfl).2
  have sameLength := congrArg String.length sameName
  rw [String.length_append] at sameLength
  omega

end FileSystem

end ScriptLint
