import ScriptLint.Command.Run
import ScriptLint.Proofs.Success

/-!
# The configuration of a scan

Which configuration a scan goes by, said without the order in which it is worked out: the one that
the given file holds, or the first default file that is there, or the defaults, with what the
arguments say in its place. It has to be valid in the file already and with the arguments again.
-/

namespace ScriptLint

theorem ReportFormat.ofName?_eq_some_iff {text : String} {format : ReportFormat} :
    ofName? text = some format ↔ format.name = text := by
  constructor
  · intro known
    simpa using List.find?_some known
  · rintro rfl
    cases format <;> decide

namespace Config

/-- No limit forbids everything, and the verbosity is one that reports have. -/
structure Valid (config : Config) : Prop where
  returns : config.rules.tooManyReturns.max ≠ some 0
  params : config.rules.tooManyParams.max ≠ some 0
  verbosity : config.report.verbosity ≤ maxVerbosity

theorem check_eq_ok_iff {config : Config} : config.check = .ok () ↔ config.Valid := by
  unfold check
  constructor
  · intro passed
    split at passed
    · simp at passed
    · split at passed
      · simp at passed
      · split at passed
        · simp at passed
        · exact ⟨by assumption, by assumption, by omega⟩
  · rintro ⟨returns, params, verbosity⟩
    rw [if_neg returns, if_neg params, if_neg (by omega)]

theorem checked_eq_ok_iff {config result : Config} :
    config.checked = .ok result ↔ config.Valid ∧ config = result := by
  rw [← check_eq_ok_iff]
  unfold checked
  split
  · simp [*]
  · simp [*]

variable (frontEnd : FrontEnd) (files : FileSystem)

/-- The file at the path is a text that writes the configuration down. -/
def HeldBy (path : Path) (config : Config) : Prop :=
  ∃ text document, files.readText path = .ok text ∧ frontEnd.document? text = some document ∧
    document.config? = some config

theorem ofFile_eq_ok_iff {path : Path} {config : Config} :
    ofFile frontEnd files path = .ok config ↔ HeldBy frontEnd files path config := by
  unfold ofFile HeldBy
  cases files.readText path with
  | error cause => simp
  | ok text =>
    cases written : frontEnd.document? text with
    | none => simp [written]
    | some document => cases found : document.config? <;> simp [written, found]

/-- The configuration before the arguments have their say. -/
inductive LoadedFrom : Option Path → Config → Prop where
  | given {path : Path} {config : Config} (held : HeldBy frontEnd files path config)
      (valid : config.Valid) : LoadedFrom (some path) config
  | found {name : String} {config : Config}
      (first : defaultNames.find? (files.contains ⟨·⟩) = some name)
      (held : HeldBy frontEnd files ⟨name⟩ config) (valid : config.Valid) : LoadedFrom none config
  | defaults (absent : ∀ name ∈ defaultNames, files.contains ⟨name⟩ = false) : LoadedFrom none {}

theorem load_eq_ok_iff {given : Option Path} {config : Config} :
    load frontEnd files given = .ok config ↔ LoadedFrom frontEnd files given config := by
  have ofPath {path : Path} : (ofFile frontEnd files path >>= checked) = .ok config ↔
      HeldBy frontEnd files path config ∧ config.Valid := by
    simp only [bind_eq_ok_iff, ofFile_eq_ok_iff, checked_eq_ok_iff]
    constructor
    · rintro ⟨_, held, valid, rfl⟩
      exact ⟨held, valid⟩
    · rintro ⟨held, valid⟩
      exact ⟨config, held, valid, rfl⟩
  cases given with
  | some path =>
    refine ofPath.trans ⟨fun ⟨held, valid⟩ => .given held valid, ?_⟩
    rintro (⟨held, valid⟩ | _ | _)
    exact ⟨held, valid⟩
  | none =>
    have discovered : discover? files =
        (defaultNames.find? (files.contains ⟨·⟩)).map Path.mk := by
      rw [discover?, List.find?_map]
      rfl
    unfold load
    rw [Option.none_or, discovered]
    cases first : defaultNames.find? (files.contains ⟨·⟩) with
    | none =>
      constructor
      · intro same
        rw [← Except.ok.inj same]
        exact .defaults (by simpa using first)
      · rintro (_ | ⟨other, -, -⟩ | _)
        · rw [first] at other
          cases other
        · rfl
    | some name =>
      refine ofPath.trans ⟨fun ⟨held, valid⟩ => .found first held valid, ?_⟩
      rintro (_ | ⟨other, held, valid⟩ | absent)
      · cases first.symm.trans other
        exact ⟨held, valid⟩
      · have present := List.find?_some first
        rw [absent name (List.mem_of_find?_eq_some first)] at present
        cases present

/-- The configuration with what the arguments say in its place. -/
structure Overridden (arguments : ScanArguments) (config changed : Config) : Prop where
  format : changed.report.format.name = arguments.format.getD config.report.format.name
  verbosity : changed.report.verbosity = arguments.verbosity.getD config.report.verbosity
  destination : changed.report.destination =
    arguments.destination.getD config.report.destination
  rules : changed.rules = config.rules
  version : changed.version = config.version

theorem override_eq_ok_iff {arguments : ScanArguments} {config changed : Config} :
    config.override arguments = .ok changed ↔ Overridden arguments config changed := by
  let wanted := arguments.format.getD config.report.format.name
  -- Once the format is known, the rest follows.
  have settled {format : ReportFormat} (known : ReportFormat.ofName? wanted = some format) :
      { config with report := {
          format := format
          verbosity := arguments.verbosity.getD config.report.verbosity
          destination := arguments.destination.getD config.report.destination } } = changed ↔
        Overridden arguments config changed := by
    constructor
    · rintro rfl
      exact ⟨ReportFormat.ofName?_eq_some_iff.mp known, rfl, rfl, rfl, rfl⟩
    · rintro ⟨named, verbosity, destination, rules, version⟩
      have same := known.symm.trans (ReportFormat.ofName?_eq_some_iff.mpr named)
      rw [Option.some.inj same, ← verbosity, ← destination, ← rules, ← version]
  unfold override
  cases given : arguments.format with
  | none =>
    have named : config.report.format.name = wanted := by simp [wanted, given]
    rw [← settled (ReportFormat.ofName?_eq_some_iff.mpr named)]
    exact pure_eq_ok_iff
  | some name =>
    have named : wanted = name := by simp [wanted, given]
    cases known : ReportFormat.ofName? name with
    | some format =>
      rw [← settled (by rw [named, known])]
      simp only [known]
      exact pure_eq_ok_iff
    | none =>
      simp only [known]
      refine ⟨nofun, fun overridden => ?_⟩
      rw [← named, ReportFormat.ofName?_eq_some_iff.mpr overridden.format] at known
      cases known

/-- The scan goes by the configuration. -/
def Governs (arguments : ScanArguments) (config : Config) : Prop :=
  ∃ loaded, LoadedFrom frontEnd files arguments.config loaded ∧
    Overridden arguments loaded config ∧ config.Valid

theorem ofArguments_eq_ok_iff {arguments : ScanArguments} {config : Config} :
    ofArguments frontEnd files arguments = .ok config ↔
      Governs frontEnd files arguments config := by
  unfold ofArguments Governs
  simp only [bind_eq_ok_iff, checked_eq_ok_iff, load_eq_ok_iff, override_eq_ok_iff]
  refine exists_congr fun loaded => and_congr_right fun _ => ?_
  constructor
  · rintro ⟨_, overridden, valid, rfl⟩
    exact ⟨overridden, valid⟩
  · rintro ⟨overridden, valid⟩
    exact ⟨config, overridden, valid, rfl⟩

end Config

end ScriptLint
