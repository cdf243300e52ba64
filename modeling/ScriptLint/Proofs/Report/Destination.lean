import ScriptLint.Proofs.Files.Names
import ScriptLint.Report.Html

/-!
# Where HTML reports go

The report of a source goes to a file in the destination, named after the last component of the
source's name. A name that has no such component is taken whole. This does no harm as long as there
is no slash in it; but behind `../..` the report is written outside the destination, and behind `/`
wherever the destination is.
-/

namespace ScriptLint

variable {options : ReportOptions} {files after : FileSystem}

/-- The basename has a slash just if the name of the source ends in no name but has a slash. -/
theorem ReportOptions.slash_mem_basename_iff :
    '/' ∈ options.basename.toList ↔
      (Path.mk options.filename).fileName? = none ∧ '/' ∈ options.filename.toList := by
  unfold basename
  cases found : (Path.mk options.filename).fileName? with
  | none => simp
  | some name => simpa using (Path.isName_of_fileName? found).whole

namespace Report

theorem isName_basename_suite (whole : '/' ∉ options.basename.toList) :
    Path.IsName (options.basename ++ "_suite.html") := by
  have length : (options.basename ++ "_suite.html").length = options.basename.length + 11 :=
    String.length_append ..
  exact Path.isName_of_three_le (by omega) (by simp [whole])

theorem print_html_eq_ok_iff {findings : List Finding} {status : String} :
    html.print findings options files = .ok (status, after) ↔
      files.write (htmlPath options) (Bytes.ofText (renderHtml findings options.filename)) =
          .ok after ∧
        status = "Functional pattern analysis of " ++ options.filename ++
          " completed successfully." := by
  simp only [html]
  cases files.write (htmlPath options) (Bytes.ofText (renderHtml findings options.filename)) with
  | error cause => simp
  | ok written => simp [and_comm, eq_comm (a := status)]

/-- The report's directory is where the destination leads to. -/
theorem exists_directory_of_write (whole : '/' ∉ options.basename.toList) {content : Bytes}
    (written : files.write (htmlPath options) content = .ok after) :
    ∃ directory,
      options.destination.segments.foldlM files.follow (files.origin options.destination) =
        .ok directory ∧
      files.entry? directory = some .directory ∧
      after = files.put (directory ++ [options.basename ++ "_suite.html"]) (.file content) := by
  have isName := isName_basename_suite whole
  obtain ⟨-, location, led, -, rfl⟩ := FileSystem.write_eq_ok_iff.mp written
  obtain ⟨directory, way, stands, rfl⟩ := FileSystem.exists_above_of_locate
    (Path.segments_join isName options.destination) isName led
  have origin : files.origin (htmlPath options) = files.origin options.destination := by
    simp only [FileSystem.origin, Path.isAbsolute_eq_start, htmlPath, Path.start_join isName]
  rw [← origin]
  exact ⟨directory, way, stands, rfl⟩

/-- The basename is free of slashes unless the source's name has slashes and ends in no name. If it
is, the report's path is the destination's with one more component, and what is written is the file
of that name in the directory that the destination leads to. -/
theorem html_stays_in_destination (options : ReportOptions) :
    ('/' ∈ options.basename.toList ↔
      (Path.mk options.filename).fileName? = none ∧ '/' ∈ options.filename.toList) ∧
    ('/' ∉ options.basename.toList →
      (htmlPath options).components =
        options.destination.components ++ [.normal (options.basename ++ "_suite.html")] ∧
      ∀ findings files status after, html.print findings options files = .ok (status, after) →
        ∃ directory,
          options.destination.segments.foldlM files.follow (files.origin options.destination) =
            .ok directory ∧
          files.entry? directory = some .directory ∧
          after = files.put (directory ++ [options.basename ++ "_suite.html"])
            (.file (Bytes.ofText (renderHtml findings options.filename)))) := by
  refine ⟨options.slash_mem_basename_iff, fun whole => ⟨?_, ?_⟩⟩
  · exact Path.components_join (isName_basename_suite whole) options.destination
  · intro findings files status after printed
    exact exists_directory_of_write whole (print_html_eq_ok_iff.mp printed).1

/-- A directory named `out` and nothing else. -/
def outDirectory : FileSystem :=
  { entries := [(["out"], .directory)] }

theorem print_html_outDirectory {place : Location}
    (locates : outDirectory.locate (htmlPath options) = .ok place)
    (free : outDirectory.entry? place = none)
    (file : (htmlPath options).endsWithSlash = false) :
    ∃ status after, html.print [] options outDirectory = .ok (status, after) ∧
      after.entry? place = some (.file (Bytes.ofText (renderHtml [] options.filename))) := by
  have notDirectory : outDirectory.entry? place ≠ some .directory := by simp [free]
  have written := FileSystem.write_eq_ok_iff.mpr
    ⟨file, place, locates, notDirectory,
      Eq.refl (outDirectory.put place (.file (Bytes.ofText (renderHtml [] options.filename))))⟩
  exact ⟨_, _, print_html_eq_ok_iff.mpr ⟨written, rfl⟩,
    FileSystem.entry?_put_self (FileSystem.ne_nil_of_entry?_ne notDirectory) _⟩

/-- Options for a source that lies somewhere else than its report. -/
def nestedSource : ReportOptions :=
  { destination := ⟨"out/"⟩, filename := "src/../app.js" }

/-- The directories of the source do not matter, nor does a slash behind the destination. -/
theorem html_stays_in_destination_nestedSource :
    (htmlPath nestedSource).components = [.normal "out", .normal "app.js_suite.html"] ∧
      ∃ status after, html.print [] nestedSource outDirectory = .ok (status, after) ∧
        ∃ content, after = outDirectory.put ["out", "app.js_suite.html"] (.file content) := by
  obtain ⟨-, stays⟩ := html_stays_in_destination nestedSource
  obtain ⟨components, place⟩ := stays (by decide)
  refine ⟨components.trans (by decide), ?_⟩
  have located :
      outDirectory.locate (htmlPath nestedSource) = .ok ["out", "app.js_suite.html"] := by decide
  obtain ⟨status, after, printed, -⟩ := print_html_outDirectory located (by decide) (by decide)
  obtain ⟨directory, way, -, rfl⟩ := place _ _ _ _ printed
  obtain rfl : ["out"] = directory := Except.ok.inj way
  exact ⟨status, _, printed, _, rfl⟩

/-- A source's name that goes up is taken as it is, and the report is written beside the
destination. -/
theorem html_leaves_destination :
    (ReportOptions.mk 1 ⟨"out"⟩ "../..").basename = "../.." ∧
      (htmlPath (.mk 1 ⟨"out"⟩ "../..")).components =
        [.normal "out", .parent, .normal ".._suite.html"] ∧
      ∃ status after, html.print [] (.mk 1 ⟨"out"⟩ "../..") outDirectory = .ok (status, after) ∧
        after.entry? [".._suite.html"] =
          some (.file (Bytes.ofText (renderHtml [] "../.."))) :=
  ⟨by decide, by decide, print_html_outDirectory (by decide) (by decide) (by decide)⟩

end Report

end ScriptLint
