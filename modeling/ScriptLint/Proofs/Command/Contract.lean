import ScriptLint.Proofs.Analysis.Course
import ScriptLint.Proofs.Command.Setup
import ScriptLint.Proofs.Files.Names

/-!
# What commands promise

When a scan ends with which exit code, what it prints and which file it may change, and what a new
configuration file may overwrite. A scan changes one file at most, the report of its source, and
never the source itself. A new configuration is not written over a path that leads somewhere, but
directories are made after that was asked: a path that goes up again from a directory that is
missing leads to an existing file only once the directory is made, and that file is lost.
-/

namespace ScriptLint

namespace Command

/-! ## Scans -/

section Scan

variable (frontEnd : FrontEnd) (environment : Environment) (terminal : Bool)
  (arguments : ScanArguments)

/-- The source is read and parsed, and the enabled rules give the findings. -/
def Finds (config : Config) (findings : List Finding) : Prop :=
  ∃ text root, (Source.ofArgument arguments.path).read environment = .ok text ∧
    (Source.ofArgument arguments.path).parser frontEnd text = .ok root ∧
    config.rules.analyze root = findings

/-- The report is made and leaves the files like this. -/
def Prints (config : Config) (findings : List Finding) (report : String) (after : FileSystem) :
    Prop :=
  (config.report.format.formatter (terminal && !arguments.noColor)).print findings
    (config.report.options (Source.ofArgument arguments.path).displayName) environment.files =
      .ok (report, after)

/-- The ways a scan can go. -/
inductive ScanCourse : Response → Prop where
  | ungoverned {message : String}
      (refused : ∀ config, ¬ Config.Governs frontEnd environment.files arguments config) :
      ScanCourse (.failure environment.files message)
  | unknown {config : Config} {message : String}
      (governs : Config.Governs frontEnd environment.files arguments config)
      (unread : ∀ findings, ¬ Finds frontEnd environment arguments config findings) :
      ScanCourse (.failure environment.files message)
  | nothingFound {config : Config}
      (governs : Config.Governs frontEnd environment.files arguments config)
      (finds : Finds frontEnd environment arguments config []) :
      ScanCourse (.success environment.files exitSuccess ["No results found"])
  | found {config : Config} {findings : List Finding} {report : String} {after : FileSystem}
      (governs : Config.Governs frontEnd environment.files arguments config)
      (finds : Finds frontEnd environment arguments config findings) (nonempty : findings ≠ [])
      (prints : Prints environment terminal arguments config findings report after) :
      ScanCourse (.success after exitFound [report])
  | unprinted {config : Config} {findings : List Finding} {message : String}
      (governs : Config.Governs frontEnd environment.files arguments config)
      (finds : Finds frontEnd environment arguments config findings) (nonempty : findings ≠ [])
      (failed : ∀ report after,
        ¬ Prints environment terminal arguments config findings report after) :
      ScanCourse (.failure environment.files message)

theorem optionsFor_analysis (config : Config) (source : Source) (coloured : Bool) :
    (config.analysis source coloured).optionsFor source =
      config.report.options source.displayName := by
  by_cases unnamed : source.displayName = "" <;>
    simp [Analysis.optionsFor, Config.analysis, ReportSettings.options, unnamed]

theorem scanCourse_runScan :
    ScanCourse frontEnd environment terminal arguments
      (runScan frontEnd environment terminal arguments) := by
  unfold runScan
  cases setup : Config.ofArguments frontEnd environment.files arguments with
  | error error =>
    refine .ungoverned fun config governs => ?_
    cases setup.symm.trans ((Config.ofArguments_eq_ok_iff ..).mpr governs)
  | ok config =>
    have governs := (Config.ofArguments_eq_ok_iff ..).mp setup
    let source := Source.ofArgument arguments.path
    let coloured := terminal && !arguments.noColor
    have options := optionsFor_analysis config source coloured
    obtain ⟨answer, events, files, course⟩ :=
      (config.analysis source coloured).exists_course frontEnd environment
    simp only
    rw [course.run_eq]
    cases course with
    | noSource absent => cases absent
    | noFormatter _ absent => cases absent
    | unread complete failed =>
      cases complete.source
      refine .unknown governs ?_
      rintro findings ⟨text, root, read, -, -⟩
      cases failed.symm.trans read
    | rejected complete read failed =>
      cases complete.source
      refine .unknown governs ?_
      rintro findings ⟨other, root, again, parsed, -⟩
      cases read.symm.trans again
      cases failed.symm.trans parsed
    | nothingFound complete finds =>
      cases complete.source
      exact .nothingFound governs finds
    | rendered complete finds nonempty printed =>
      cases complete.source
      cases complete.formatter
      rw [options] at printed
      exact .found governs finds nonempty printed
    | unprinted complete finds nonempty failed =>
      cases complete.source
      cases complete.formatter
      rw [options] at failed
      refine .unprinted governs finds nonempty fun report after prints => ?_
      cases failed.symm.trans prints

variable {frontEnd environment terminal arguments}

theorem governs_unique {config other : Config}
    (governs : Config.Governs frontEnd environment.files arguments config)
    (also : Config.Governs frontEnd environment.files arguments other) : config = other := by
  have same := (Config.ofArguments_eq_ok_iff ..).mpr governs
  exact Except.ok.inj (same.symm.trans ((Config.ofArguments_eq_ok_iff ..).mpr also))

theorem finds_unique {config : Config} {findings others : List Finding}
    (finds : Finds frontEnd environment arguments config findings)
    (also : Finds frontEnd environment arguments config others) : findings = others := by
  obtain ⟨text, root, read, parsed, rfl⟩ := finds
  obtain ⟨_, _, again, parsedToo, rfl⟩ := also
  cases read.symm.trans again
  cases parsed.symm.trans parsedToo
  rfl

theorem prints_unique {config : Config} {findings : List Finding} {report other : String}
    {after afterToo : FileSystem}
    (prints : Prints environment terminal arguments config findings report after)
    (also : Prints environment terminal arguments config findings other afterToo) :
    report = other ∧ after = afterToo :=
  Prod.mk.inj (Except.ok.inj (prints.symm.trans also))

variable (frontEnd environment terminal arguments)

/-- The file that the report of a scan goes to: it is named for the source. -/
def reportPath (config : Config) : Path :=
  let name := (Source.ofArgument arguments.path).displayName
  config.report.destination.join ⟨(Path.mk name).fileName?.getD name ++ "_suite.html"⟩

/-- What a scan promises. -/
structure ScanContract (response : Response) : Prop where
  found : response.exitCode = exitFound ↔ ∃ config findings report after,
    Config.Governs frontEnd environment.files arguments config ∧
    Finds frontEnd environment arguments config findings ∧ findings ≠ [] ∧
    Prints environment terminal arguments config findings report after
  nothingFound : response.exitCode = exitSuccess ↔ ∃ config,
    Config.Governs frontEnd environment.files arguments config ∧
    Finds frontEnd environment arguments config []
  failed : response.exitCode ≠ exitFound → response.exitCode ≠ exitSuccess →
    response.exitCode = exitError
  stdout_found : ∀ config findings report after,
    Config.Governs frontEnd environment.files arguments config →
    Finds frontEnd environment arguments config findings → findings ≠ [] →
    Prints environment terminal arguments config findings report after →
    response.stdout = report ++ "\n"
  stdout_nothingFound : response.exitCode = exitSuccess → response.stdout = "No results found\n"
  stdout_failed : response.exitCode = exitError → response.stdout = ""
  unchanged : response.files = environment.files ∨
    response.exitCode = exitFound ∧
      ∀ config, Config.Governs frontEnd environment.files arguments config →
        config.report.format = .html
  changed : ∀ config place, Config.Governs frontEnd environment.files arguments config →
    response.files.entry? place ≠ environment.files.entry? place →
    environment.files.locate (reportPath arguments config) = .ok place
  source_apart : ∀ config path place,
    Config.Governs frontEnd environment.files arguments config →
    response.exitCode = exitFound → Source.ofArgument arguments.path = .file path →
    environment.files.locate (reportPath arguments config) = .ok place →
    environment.files.locate path ≠ .ok place

variable {frontEnd environment terminal arguments}

/-- Only HTML reports are files, and they go to one place. -/
theorem prints_cases {config : Config} {findings : List Finding} {report : String}
    {after : FileSystem}
    (prints : Prints environment terminal arguments config findings report after) :
    after = environment.files ∨ config.report.format = .html ∧ ∃ place content,
      environment.files.locate (reportPath arguments config) = .ok place ∧
        after = environment.files.put place (.file content) := by
  unfold Prints at prints
  cases format : config.report.format with
  | html =>
    rw [format] at prints
    simp only [ReportFormat.formatter, Report.html] at prints
    split at prints
    · next written =>
      obtain ⟨-, rfl⟩ := Prod.mk.inj (Except.ok.inj prints)
      obtain ⟨-, place, led, -, rfl⟩ := FileSystem.write_eq_ok_iff.mp written
      exact .inr ⟨rfl, place, _, led, rfl⟩
    · cases prints
  | text | log | json =>
    rw [format] at prints
    exact .inl (Prod.mk.inj (Except.ok.inj prints)).2.symm

/-- The scanned file is not where its report goes. -/
theorem locate_ne_of_reportPath (tree : environment.files.IsTree) {config : Config} {path : Path}
    {text : String} {place : Location} (named : Source.ofArgument arguments.path = .file path)
    (read : (Source.ofArgument arguments.path).read environment = .ok text)
    (led : environment.files.locate (reportPath arguments config) = .ok place) :
    environment.files.locate path ≠ .ok place := by
  rw [named] at read
  simp only [reportPath, named, Source.displayName] at led
  obtain ⟨location, bytes, source, stands⟩ :=
    FileSystem.exists_file_of_readText (mapError_eq_ok_iff.mp read)
  have apart := FileSystem.locate_ne_of_suffixed tree source stands config.report.destination
    (by decide) (by decide) led
  rw [source]
  intro same
  exact apart (Except.ok.inj same).symm

theorem stdout_success (files : FileSystem) (exitCode : Nat) (line : String) :
    (Response.success files exitCode [line]).stdout = line ++ "\n" := by
  simp [Response.success, linesText]

/-- A scan that fails promises nothing but silence, so it has to have had a reason. -/
theorem scanContract_of_failure {message : String}
    (reason : ∀ config findings, Config.Governs frontEnd environment.files arguments config →
      Finds frontEnd environment arguments config findings → findings ≠ [] ∧
        ∀ report after, ¬ Prints environment terminal arguments config findings report after) :
    ScanContract frontEnd environment terminal arguments
      (.failure environment.files message) where
  found := by
    refine ⟨nofun, ?_⟩
    rintro ⟨config, findings, report, after, governs, finds, -, prints⟩
    exact absurd prints ((reason config findings governs finds).2 report after)
  nothingFound := by
    refine ⟨nofun, ?_⟩
    rintro ⟨config, governs, finds⟩
    exact absurd rfl (reason config [] governs finds).1
  failed _ _ := rfl
  stdout_found config findings report after governs finds _ prints :=
    absurd prints ((reason config findings governs finds).2 report after)
  stdout_nothingFound := nofun
  stdout_failed _ := rfl
  unchanged := .inl rfl
  changed _ _ _ differs := absurd rfl differs
  source_apart _ _ _ _ := nofun

theorem scanContract_of_nothingFound {config : Config}
    (governs : Config.Governs frontEnd environment.files arguments config)
    (finds : Finds frontEnd environment arguments config []) :
    ScanContract frontEnd environment terminal arguments
      (.success environment.files exitSuccess ["No results found"]) := by
  have empty : ∀ other findings, Config.Governs frontEnd environment.files arguments other →
      Finds frontEnd environment arguments other findings → findings = [] := by
    intro other findings governsToo findsToo
    cases governs_unique governs governsToo
    exact finds_unique findsToo finds
  exact {
    found := by
      refine ⟨nofun, ?_⟩
      rintro ⟨other, findings, report, after, governsToo, findsToo, nonempty, -⟩
      exact absurd (empty other findings governsToo findsToo) nonempty
    nothingFound := ⟨fun _ => ⟨config, governs, finds⟩, fun _ => rfl⟩
    failed := fun _ notSuccess => absurd rfl notSuccess
    stdout_found := fun other findings _ _ governsToo findsToo nonempty _ =>
      absurd (empty other findings governsToo findsToo) nonempty
    stdout_nothingFound := fun _ => stdout_success ..
    stdout_failed := nofun
    unchanged := .inl rfl
    changed := fun _ _ _ differs => absurd rfl differs
    source_apart := fun _ _ _ _ => nofun }

theorem scanContract_of_found (tree : environment.files.IsTree) {config : Config}
    {findings : List Finding} {report : String} {after : FileSystem}
    (governs : Config.Governs frontEnd environment.files arguments config)
    (finds : Finds frontEnd environment arguments config findings) (nonempty : findings ≠ [])
    (prints : Prints environment terminal arguments config findings report after) :
    ScanContract frontEnd environment terminal arguments (.success after exitFound [report]) where
  found := ⟨fun _ => ⟨config, findings, report, after, governs, finds, nonempty, prints⟩,
    fun _ => rfl⟩
  nothingFound := by
    refine ⟨nofun, ?_⟩
    rintro ⟨other, governsToo, findsToo⟩
    cases governs_unique governs governsToo
    exact absurd (finds_unique finds findsToo) nonempty
  failed notFound _ := absurd rfl notFound
  stdout_found other findingsToo reportToo afterToo governsToo findsToo _ printsToo := by
    cases governs_unique governs governsToo
    cases finds_unique finds findsToo
    obtain ⟨rfl, -⟩ := prints_unique prints printsToo
    exact stdout_success ..
  stdout_nothingFound := nofun
  stdout_failed := nofun
  unchanged := by
    rcases prints_cases prints with same | ⟨html, -⟩
    · exact .inl same
    · refine .inr ⟨rfl, fun other governsToo => ?_⟩
      rw [← governs_unique governs governsToo, html]
  changed other place governsToo differs := by
    cases governs_unique governs governsToo
    rcases prints_cases prints with same | ⟨-, written, content, led, put⟩
    · subst same
      exact absurd rfl differs
    · by_cases here : place = written
      · rw [here, led]
      · subst put
        exact absurd (FileSystem.entry?_put_of_ne here _) differs
  source_apart other path place _ _ named led := by
    obtain ⟨text, root, read, -, -⟩ := finds
    exact locate_ne_of_reportPath tree named read led

theorem scanContract_of_course {response : Response} (tree : environment.files.IsTree)
    (course : ScanCourse frontEnd environment terminal arguments response) :
    ScanContract frontEnd environment terminal arguments response := by
  cases course with
  | ungoverned refused =>
    exact scanContract_of_failure fun config _ governs => absurd governs (refused config)
  | unknown governs unread =>
    refine scanContract_of_failure fun other findings governsToo finds => ?_
    cases governs_unique governs governsToo
    exact absurd finds (unread findings)
  | nothingFound governs finds => exact scanContract_of_nothingFound governs finds
  | found governs finds nonempty prints =>
    exact scanContract_of_found tree governs finds nonempty prints
  | unprinted governs finds nonempty failed =>
    refine scanContract_of_failure fun other findings governsToo findsToo => ?_
    cases governs_unique governs governsToo
    cases finds_unique finds findsToo
    exact ⟨nonempty, failed⟩

end Scan

/-! ## New configurations -/

section Init

variable (files : FileSystem) (output : Path)

/-- The ways writing a new configuration can go. -/
inductive InitCourse : Response → Prop where
  | existing {message : String} {more : List String} (present : files.contains output) :
      InitCourse (.failure files message more)
  | unwritten {message : String} {made : FileSystem} (absent : files.contains output = false)
      (grows : files.Grows made) : InitCourse (.failure made message)
  | written {made after : FileSystem} {lines : List String}
      (absent : files.contains output = false) (grows : files.Grows made)
      (write : made.write output (Bytes.ofText Config.template) = .ok after) :
      InitCourse (.success after exitSuccess lines)

theorem initCourse_runInit : InitCourse files output (runInit files output) := by
  unfold runInit
  cases present : files.contains output with
  | true => exact .existing present
  | false =>
    rw [if_neg (by simp)]
    cases making : files.makeDirectories (neededDirectories output) with
    | error cause => exact .unwritten present (.refl files)
    | ok made =>
      have grows := FileSystem.grows_of_makeDirectories making
      cases writing : made.write output (Bytes.ofText Config.template) with
      | error cause =>
        simp only [writing]
        exact .unwritten present grows
      | ok after =>
        simp only [writing]
        exact .written present grows writing

/-- What writing a new configuration promises. The last promise leaves out a file that the path
leads to only by going up from a directory that had to be made first. -/
structure InitContract (response : Response) : Prop where
  exitCode : response.exitCode = exitSuccess ∨ response.exitCode = exitError
  existing : files.contains output → response.exitCode = exitError ∧ response.files = files
  written : response.exitCode = exitSuccess →
    files.contains output = false ∧ response.files.readText output = .ok Config.template
  failed : response.exitCode = exitError → files.Grows response.files
  kept : ∀ place content, files.entry? place = some (.file content) →
    response.files.entry? place = some (.file content) ∨
      ".." ∈ output.segments ∧ (∀ location, files.locate output ≠ .ok location) ∧
        response.files.locate output = .ok place

variable {files output}

/-- A file is only written over if the path goes up and did not lead anywhere. -/
theorem kept_of_written (tree : files.IsTree) {made after : FileSystem}
    (absent : files.contains output = false) (grows : files.Grows made) {text : String}
    (written : made.write output (Bytes.ofText text) = .ok after) {place : Location}
    {content : Bytes} (stood : files.entry? place = some (.file content)) :
    after.entry? place = some (.file content) ∨
      ".." ∈ output.segments ∧ (∀ location, files.locate output ≠ .ok location) ∧
        after.locate output = .ok place := by
  obtain ⟨file, location, led, free, rfl⟩ := FileSystem.write_eq_ok_iff.mp written
  have stands := grows.entry?_of_some stood
  by_cases here : place = location
  · subst here
    have leads := (FileSystem.keepsDirectories_put free (Bytes.ofText text)).locate led
    have nowhere : ∀ location, files.locate output ≠ .ok location := by
      intro location before
      cases led.symm.trans (grows.keepsDirectories.locate before)
      rw [FileSystem.contains_of_file file before stood] at absent
      cases absent
    refine .inr ⟨?_, nowhere, leads⟩
    apply Classical.byContradiction
    intro downward
    rw [FileSystem.locate_eq_ok_iff] at led
    have start : made.origin output = files.origin output := by
      rw [FileSystem.origin, FileSystem.origin, grows.workingDirectory]
    refine nowhere place (FileSystem.locate_eq_ok_iff.mpr ⟨led.1, ?_⟩)
    exact grows.foldlM_follow_of_file tree downward (start ▸ led.2) stood
  · rw [FileSystem.entry?_put_of_ne here]
    exact .inl stands

theorem initContract_of_course {response : Response} (tree : files.IsTree)
    (course : InitCourse files output response) : InitContract files output response := by
  cases course with
  | existing present =>
    refine ⟨.inr rfl, fun _ => ⟨rfl, rfl⟩, nofun, fun _ => .refl files, ?_⟩
    exact fun _ _ stood => .inl stood
  | unwritten absent grows =>
    refine ⟨.inr rfl, ?_, nofun, fun _ => grows, ?_⟩
    · intro present
      cases absent.symm.trans present
    · exact fun _ _ stood => .inl (grows.entry?_of_some stood)
  | written absent grows write =>
    refine ⟨.inl rfl, ?_, ?_, nofun, ?_⟩
    · intro present
      cases absent.symm.trans present
    · exact fun _ => ⟨absent, FileSystem.readText_of_write write⟩
    · exact fun _ _ => kept_of_written tree absent grows write

end Init

/-- Scans and new configurations do what is promised of them, in files that form a tree. -/
theorem run_contract (frontEnd : FrontEnd) (environment : Environment) (terminal : Bool)
    (tree : environment.files.IsTree) :
    (∀ arguments, ScanContract frontEnd environment terminal arguments
      (run frontEnd environment terminal (.scan arguments))) ∧
    ∀ output, InitContract environment.files output
      (run frontEnd environment terminal (.init output)) := by
  constructor
  · intro arguments
    exact scanContract_of_course tree (scanCourse_runScan ..)
  · intro output
    exact initContract_of_course tree (initCourse_runInit ..)

/-- The concrete tree of `(a, b, c, d) => a;`. -/
def wideArrow : Cst :=
  ⟨{ kind := "program", startByte := 0, endByte := 18 },
    [⟨{ kind := "expression_statement", startByte := 0, endByte := 18 },
      [⟨{ kind := "arrow_function", startByte := 0, endByte := 17 },
        [⟨{ kind := "formal_parameters", field := some .parameters, startByte := 0,
            endByte := 12 },
          [⟨{ kind := "identifier", startByte := 1, endByte := 2 }, []⟩,
           ⟨{ kind := "identifier", startByte := 4, endByte := 5 }, []⟩,
           ⟨{ kind := "identifier", startByte := 7, endByte := 8 }, []⟩,
           ⟨{ kind := "identifier", startByte := 10, endByte := 11 }, []⟩]⟩,
         ⟨{ kind := "identifier", field := some .body, startByte := 16, endByte := 17 }, []⟩]⟩]⟩]⟩

/-- A source with one function in a directory of its own, and a directory for reports. -/
def wideArrowFiles : FileSystem where
  entries :=
    [(["src"], .directory), (["src", "a.js"], .file (Bytes.ofText "(a, b, c, d) => a;")),
     (["out"], .directory)]

/-- The function has a parameter too many, so the scan leaves a report behind, and a configuration
is written to a directory that has to be made. -/
theorem run_contract_wideArrow :
    let environment : Environment := { files := wideArrowFiles }
    let frontEnd : FrontEnd := { cst := fun _ _ => wideArrow, document? := fun _ => none }
    let scan : ScanArguments :=
      { path := ⟨"src/a.js"⟩, format := some "html", destination := some ⟨"out"⟩ }
    let scanned := run frontEnd environment true (.scan scan)
    let started := run frontEnd environment true (.init ⟨"conf/rules.yaml"⟩)
    wideArrowFiles.IsTree ∧
      ScanContract frontEnd environment true scan scanned ∧
      scanned.exitCode = exitFound ∧
      wideArrowFiles.entry? ["out", "a.js_suite.html"] = none ∧
      (scanned.files.entry? ["out", "a.js_suite.html"]).isSome = true ∧
      InitContract wideArrowFiles ⟨"conf/rules.yaml"⟩ started ∧
      started.exitCode = exitSuccess := by
  intro environment frontEnd scan scanned started
  have tree : wideArrowFiles.IsTree := FileSystem.isTree_of_entries (by decide +kernel)
  have promises := run_contract frontEnd environment true tree
  refine ⟨tree, promises.1 scan, ?_, ?_, ?_, promises.2 ⟨"conf/rules.yaml"⟩, ?_⟩
  all_goals decide +kernel

/-- An existing file is lost behind a directory that is made first. -/
theorem runInit_overwrites_behind_missing :
    let files : FileSystem := { entries := [(["b"], .file [120])] }
    files.IsTree ∧ files.contains ⟨"a/../b"⟩ = false ∧
      files.entry? ["b"] = some (.file [120]) ∧
      (runInit files ⟨"a/../b"⟩).exitCode = exitSuccess ∧
      (runInit files ⟨"a/../b"⟩).files.entry? ["b"] =
        some (.file (Bytes.ofText Config.template)) := by
  refine ⟨FileSystem.isTree_of_entries (by decide), ?_, rfl, ?_, ?_⟩
  · decide
  · decide
  · rfl

end Command

end ScriptLint
