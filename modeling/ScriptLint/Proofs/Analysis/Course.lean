import ScriptLint.Analysis.Run
import ScriptLint.Proofs.Success

/-!
# The course of a run

A run reads, parses, walks and formats in this order and stops at the first step that fails. What it
does outside itself is written down by recording its access: a run without a source or a formatter
reads nothing, and the formatter is called once at most, with the findings of the walk.
-/

namespace ScriptLint

/-- One use that a run makes of its access. -/
inductive Event where
  | read (source : Source)
  | print (formatter : Formatter) (findings : List Finding) (options : ReportOptions)

namespace Event

def isPrint : Event → Bool
  | .read _ => false
  | .print _ _ _ => true

end Event

/-- The same access, with every use of it recorded. -/
def Access.recorded {m : Type → Type} [Monad m] (access : Access m) :
    Access (StateT (List Event) m) where
  read source := do
    modify (· ++ [.read source])
    access.read source
  print formatter findings options := do
    modify (· ++ [.print formatter findings options])
    access.print formatter findings options

namespace Analysis

variable (analysis : Analysis) (frontEnd : FrontEnd) (environment : Environment)

/-- A run with what it did outside itself and the files as it left them. -/
def observed : (Except AnalysisError Outcome × List Event) × FileSystem :=
  Id.run <| ((analysis.runWith frontEnd (Access.direct environment.stdin).recorded).run []).run
    environment.files

/-- What a run does outside itself, in order. -/
def events : List Event :=
  (analysis.observed frontEnd environment).1.2

/-- The run has a source and a formatter. -/
structure Complete (source : Source) (formatter : Formatter) : Prop where
  source : analysis.source = some source
  formatter : analysis.formatter = some formatter

/-- The parser of a run over a source: its own, or the one that the source asks for. -/
def parserFor (source : Source) : Parser :=
  analysis.parser.getD (source.parser frontEnd)

/-- The options of a run over a source. An empty name gives way to the source's. -/
def optionsFor (source : Source) : ReportOptions :=
  let given := analysis.options.getD {}
  { given with filename := if given.filename = "" then source.displayName else given.filename }

/-- The run gets to know its findings: its source is read and parsed, and the walk gives them. -/
def Finds (source : Source) (findings : List Finding) : Prop :=
  ∃ text root, source.read environment = .ok text ∧
    analysis.parserFor frontEnd source text = .ok root ∧
    (analysis.registry.getD Registry.builtin).run root = findings

/-- The ways a run can go. -/
inductive Course : Except AnalysisError Outcome → List Event → FileSystem → Prop where
  | noSource (absent : analysis.source = none) :
      Course (.error .noSource) [] environment.files
  | noFormatter {source : Source} (given : analysis.source = some source)
      (absent : analysis.formatter = none) :
      Course (.error .noFormatter) [] environment.files
  | unread {source : Source} {formatter : Formatter} {error : AnalysisError}
      (complete : analysis.Complete source formatter)
      (failed : source.read environment = .error error) :
      Course (.error error) [.read source] environment.files
  | rejected {source : Source} {formatter : Formatter} {text : String} {fault : ParseError}
      (complete : analysis.Complete source formatter)
      (read : source.read environment = .ok text)
      (failed : analysis.parserFor frontEnd source text = .error fault) :
      Course (.error .invalidSource) [.read source] environment.files
  | nothingFound {source : Source} {formatter : Formatter}
      (complete : analysis.Complete source formatter)
      (finds : analysis.Finds frontEnd environment source []) :
      Course (.ok .nothingFound) [.read source] environment.files
  | rendered {source : Source} {formatter : Formatter} {findings : List Finding}
      {report : String} {files : FileSystem}
      (complete : analysis.Complete source formatter)
      (finds : analysis.Finds frontEnd environment source findings) (nonempty : findings ≠ [])
      (printed : formatter.print findings (analysis.optionsFor source) environment.files =
        .ok (report, files)) :
      Course (.ok (.rendered findings.length report))
        [.read source, .print formatter findings (analysis.optionsFor source)] files
  | unprinted {source : Source} {formatter : Formatter} {findings : List Finding}
      {error : ReportError}
      (complete : analysis.Complete source formatter)
      (finds : analysis.Finds frontEnd environment source findings) (nonempty : findings ≠ [])
      (failed : formatter.print findings (analysis.optionsFor source) environment.files =
        .error error) :
      Course (.error (.report error))
        [.read source, .print formatter findings (analysis.optionsFor source)] environment.files

theorem forSource_eq_optionsFor (source : Source) :
    (analysis.options.getD {}).forSource source = analysis.optionsFor source := by
  unfold ReportOptions.forSource optionsFor
  split <;> simp_all

variable {analysis frontEnd environment}

theorem run_recorded_read (source : Source) (events : List Event) (files : FileSystem)
    (stdin : Bytes) :
    (((Access.direct stdin).recorded.read source).run events).run files =
      pure ((source.read { files, stdin }, events ++ [.read source]), files) := rfl

theorem run_recorded_print (formatter : Formatter) (findings : List Finding)
    (options : ReportOptions) (events : List Event) (files : FileSystem) (stdin : Bytes) :
    (((Access.direct stdin).recorded.print formatter findings options).run events).run files =
      pure (match formatter.print findings options files with
        | .ok (report, after) =>
          ((.ok report, events ++ [.print formatter findings options]), after)
        | .error error =>
          ((.error error, events ++ [.print formatter findings options]), files)) := by
  have printing : ((Access.direct stdin).print formatter findings options).run files =
      pure (match formatter.print findings options files with
        | .ok (report, after) => (.ok report, after)
        | .error error => (.error error, files)) := by
    simp only [Access.direct, StateT.run_bind, StateT.run_get, pure_bind]
    cases formatter.print findings options files <;> rfl
  simp only [Access.recorded, StateT.run_bind, StateT.run_modify, pure_bind, StateT.run_monadLift,
    monadLift_self, bind_pure_comp, StateT.run_map, printing, map_pure]
  cases formatter.print findings options files <;> rfl

/-- A run that meets the conditions of a course goes that way. -/
theorem Course.observed_eq {answer : Except AnalysisError Outcome} {events : List Event}
    {files : FileSystem} (course : Course analysis frontEnd environment answer events files) :
    analysis.observed frontEnd environment = ((answer, events), files) := by
  unfold observed runWith
  simp only [forSource_eq_optionsFor]
  cases course with
  | noSource absent =>
    simp only [absent, StateT.run_pure, Id.run_pure]
  | noFormatter given absent =>
    simp only [given, absent, StateT.run_pure, Id.run_pure]
  | unread complete failed =>
    simp only [complete.source, complete.formatter, StateT.run_bind, run_recorded_read, pure_bind,
      failed, StateT.run_pure, Id.run_pure, List.nil_append]
  | rejected complete read failed =>
    rw [parserFor] at failed
    simp only [complete.source, complete.formatter, StateT.run_bind, run_recorded_read, pure_bind,
      read, failed, StateT.run_pure, Id.run_pure, List.nil_append]
  | nothingFound complete finds =>
    obtain ⟨text, root, read, parsed, found⟩ := finds
    rw [parserFor] at parsed
    simp only [complete.source, complete.formatter, StateT.run_bind, run_recorded_read, pure_bind,
      read, parsed, found, List.isEmpty_nil, if_true, StateT.run_pure, Id.run_pure,
      List.nil_append]
  | rendered complete finds nonempty printed =>
    obtain ⟨text, root, read, parsed, found⟩ := finds
    rw [parserFor] at parsed
    simp only [complete.source, complete.formatter, StateT.run_bind, run_recorded_read, pure_bind,
      read, parsed, found, List.isEmpty_iff, nonempty, if_false, run_recorded_print, printed,
      StateT.run_pure, Id.run_pure, List.nil_append, List.cons_append]
  | unprinted complete finds nonempty failed =>
    obtain ⟨text, root, read, parsed, found⟩ := finds
    rw [parserFor] at parsed
    simp only [complete.source, complete.formatter, StateT.run_bind, run_recorded_read, pure_bind,
      read, parsed, found, List.isEmpty_iff, nonempty, if_false, run_recorded_print, failed,
      StateT.run_pure, Id.run_pure, List.nil_append, List.cons_append]

/-- A run that knows its findings ends with them or at the formatter. -/
theorem exists_course_of_finds {source : Source} {formatter : Formatter} {findings : List Finding}
    (complete : analysis.Complete source formatter)
    (finds : analysis.Finds frontEnd environment source findings) (nonempty : findings ≠ []) :
    ∃ answer files, Course analysis frontEnd environment answer
      [.read source, .print formatter findings (analysis.optionsFor source)] files := by
  cases printed : formatter.print findings (analysis.optionsFor source) environment.files with
  | ok made => exact ⟨_, _, .rendered complete finds nonempty printed⟩
  | error error => exact ⟨_, _, .unprinted complete finds nonempty printed⟩

variable (analysis frontEnd environment)

theorem exists_course :
    ∃ answer events files, Course analysis frontEnd environment answer events files := by
  cases given : analysis.source with
  | none => exact ⟨_, _, _, .noSource given⟩
  | some source =>
    cases kind : analysis.formatter with
    | none => exact ⟨_, _, _, .noFormatter given kind⟩
    | some formatter =>
      have complete : analysis.Complete source formatter := ⟨given, kind⟩
      cases read : source.read environment with
      | error error => exact ⟨_, _, _, .unread complete read⟩
      | ok text =>
        cases parsed : analysis.parserFor frontEnd source text with
        | error fault => exact ⟨_, _, _, .rejected complete read parsed⟩
        | ok root =>
          have finds : analysis.Finds frontEnd environment source _ :=
            ⟨text, root, read, parsed, rfl⟩
          by_cases empty : (analysis.registry.getD Registry.builtin).run root = []
          · rw [empty] at finds
            exact ⟨_, _, _, .nothingFound complete finds⟩
          · obtain ⟨answer, files, course⟩ := exists_course_of_finds complete finds empty
            exact ⟨answer, _, files, course⟩

/-- Recording changes nothing about a run, whatever its access does. -/
theorem fst_run_recorded {m : Type → Type} [Monad m] [LawfulMonad m] (access : Access m)
    (events : List Event) :
    Prod.fst <$> (analysis.runWith frontEnd access.recorded).run events =
      analysis.runWith frontEnd access := by
  unfold runWith
  cases analysis.source with
  | none => simp
  | some source =>
    cases analysis.formatter with
    | none => simp
    | some formatter =>
      simp only [Access.recorded, StateT.run_bind, StateT.run_modify, StateT.run_monadLift,
        pure_bind, bind_assoc, map_bind]
      refine bind_congr fun reading => ?_
      cases reading with
      | error error => simp
      | ok text =>
        cases parsed : analysis.parser.getD (source.parser frontEnd) text with
        | error fault => simp [parsed]
        | ok root =>
          simp only [parsed]
          split
          · simp
          · simp only [StateT.run_bind, StateT.run_modify, StateT.run_monadLift, pure_bind,
              bind_assoc, map_bind]
            refine bind_congr fun printing => ?_
            cases printing <;> simp

theorem run_eq_observed :
    analysis.run frontEnd environment =
      let ((answer, _), files) := analysis.observed frontEnd environment
      answer.map (·, files) := by
  unfold run
  rw [← analysis.fst_run_recorded frontEnd (.direct environment.stdin) []]
  rfl

variable {analysis frontEnd environment}

theorem Course.run_eq {answer : Except AnalysisError Outcome} {events : List Event}
    {files : FileSystem} (course : Course analysis frontEnd environment answer events files) :
    analysis.run frontEnd environment = answer.map (·, files) := by
  rw [run_eq_observed, course.observed_eq]

theorem Course.events_eq {answer : Except AnalysisError Outcome} {events : List Event}
    {files : FileSystem} (course : Course analysis frontEnd environment answer events files) :
    analysis.events frontEnd environment = events := by
  rw [Analysis.events, course.observed_eq]

end Analysis

/-- A path that can be read is not empty. -/
theorem FileSystem.ne_empty_of_readText {files : FileSystem} {path : Path} {text : String}
    (read : files.readText path = .ok text) : path.text ≠ "" := by
  intro empty
  simp [readText, FileSystem.read, lookup, locate, resolve, empty, bind, Except.bind] at read

theorem Source.unreadable_of_read {source : Source} {environment : Environment}
    {error : AnalysisError} (failed : source.read environment = .error error) :
    ∃ path cause, error = .unreadable path cause := by
  cases source with
  | file path =>
    obtain ⟨cause, -, rfl⟩ := mapError_eq_error_iff.mp failed
    exact ⟨path, cause, rfl⟩
  | stdin =>
    obtain ⟨cause, -, rfl⟩ := mapError_eq_error_iff.mp failed
    exact ⟨stdinPath, cause, rfl⟩
  | text content => cases failed

/-- Only the empty path has no name, and it cannot be read. -/
theorem Source.displayName_ne_empty {source : Source} {environment : Environment} {text : String}
    (read : source.read environment = .ok text) : source.displayName ≠ "" := by
  cases source with
  | file path => exact FileSystem.ne_empty_of_readText (mapError_eq_ok_iff.mp read)
  | stdin => simp [displayName]
  | text content => simp [displayName]

namespace Analysis

variable (analysis : Analysis) (frontEnd : FrontEnd) (environment : Environment)

/-- What holds of every run: what is checked before what, what a run answers, and when its formatter
is called. -/
structure Orderly : Prop where
  noSource : analysis.source = none →
    analysis.run frontEnd environment = .error .noSource ∧
      AnalysisError.noSource.message = "No file given" ∧
      analysis.events frontEnd environment = []
  noFormatter : ∀ source, analysis.source = some source → analysis.formatter = none →
    analysis.run frontEnd environment = .error .noFormatter ∧
      AnalysisError.noFormatter.message = "No generator given" ∧
      analysis.events frontEnd environment = []
  unread : ∀ source formatter error, analysis.Complete source formatter →
    source.read environment = .error error →
    (∃ path cause, error = .unreadable path cause) ∧
      analysis.run frontEnd environment = .error error ∧
      analysis.events frontEnd environment = [.read source]
  rejected : ∀ source formatter text fault, analysis.Complete source formatter →
    source.read environment = .ok text → analysis.parserFor frontEnd source text = .error fault →
    analysis.run frontEnd environment = .error .invalidSource ∧
      analysis.events frontEnd environment = [.read source]
  calledOnce : (analysis.events frontEnd environment).countP Event.isPrint ≤ 1
  called : ∀ formatter findings options,
    .print formatter findings options ∈ analysis.events frontEnd environment ↔
      ∃ source, analysis.Complete source formatter ∧
        analysis.Finds frontEnd environment source findings ∧ findings ≠ [] ∧
        options = analysis.optionsFor source
  named : ∀ formatter findings options,
    .print formatter findings options ∈ analysis.events frontEnd environment →
      options.filename ≠ ""
  nothingFound : ∀ files,
    analysis.run frontEnd environment = .ok (.nothingFound, files) ↔
      files = environment.files ∧ ∃ source formatter, analysis.Complete source formatter ∧
        analysis.Finds frontEnd environment source []
  printed : ∀ source formatter findings, analysis.Complete source formatter →
    analysis.Finds frontEnd environment source findings → findings ≠ [] →
    analysis.run frontEnd environment =
      match formatter.print findings (analysis.optionsFor source) environment.files with
      | .ok (report, files) => .ok (.rendered findings.length report, files)
      | .error error => .error (.report error)

theorem countP_isPrint_events_le_one :
    (analysis.events frontEnd environment).countP Event.isPrint ≤ 1 := by
  obtain ⟨answer, events, files, course⟩ := analysis.exists_course frontEnd environment
  rw [course.events_eq]
  cases course <;> simp [Event.isPrint]

theorem print_mem_events_iff {formatter : Formatter} {findings : List Finding}
    {options : ReportOptions} :
    .print formatter findings options ∈ analysis.events frontEnd environment ↔
      ∃ source, analysis.Complete source formatter ∧
        analysis.Finds frontEnd environment source findings ∧ findings ≠ [] ∧
        options = analysis.optionsFor source := by
  constructor
  · intro called
    obtain ⟨answer, events, files, course⟩ := analysis.exists_course frontEnd environment
    rw [course.events_eq] at called
    cases course with
    | rendered complete finds nonempty _ | unprinted complete finds nonempty _ =>
      simp only [List.mem_cons, reduceCtorEq, Event.print.injEq, List.not_mem_nil, or_false,
        false_or] at called
      obtain ⟨rfl, rfl, rfl⟩ := called
      exact ⟨_, complete, finds, nonempty, rfl⟩
    | _ => simp at called
  · rintro ⟨source, complete, finds, nonempty, rfl⟩
    obtain ⟨answer, files, course⟩ := exists_course_of_finds complete finds nonempty
    simp [course.events_eq]

theorem filename_optionsFor_ne_empty {source : Source} {findings : List Finding}
    (finds : analysis.Finds frontEnd environment source findings) :
    (analysis.optionsFor source).filename ≠ "" := by
  obtain ⟨text, root, read, -, -⟩ := finds
  have named := Source.displayName_ne_empty read
  unfold optionsFor
  by_cases unnamed : (analysis.options.getD {}).filename = "" <;> simp [unnamed, named]

theorem run_eq_nothingFound_iff {files : FileSystem} :
    analysis.run frontEnd environment = .ok (.nothingFound, files) ↔
      files = environment.files ∧ ∃ source formatter, analysis.Complete source formatter ∧
        analysis.Finds frontEnd environment source [] := by
  constructor
  · intro nothing
    obtain ⟨answer, events, after, course⟩ := analysis.exists_course frontEnd environment
    rw [course.run_eq] at nothing
    cases course with
    | nothingFound complete finds =>
      simp only [Except.map, Except.ok.injEq, Prod.mk.injEq, true_and] at nothing
      exact ⟨nothing.symm, _, _, complete, finds⟩
    | _ => simp [Except.map] at nothing
  · rintro ⟨rfl, source, formatter, complete, finds⟩
    exact (Course.nothingFound complete finds).run_eq

/-- A run does its steps in order, stops at the first that fails, and calls its formatter once at
most and only with something to report. -/
theorem run_orderly : analysis.Orderly frontEnd environment where
  noSource absent := by
    have course : Course analysis frontEnd environment _ _ _ := .noSource absent
    exact ⟨course.run_eq, rfl, course.events_eq⟩
  noFormatter source given absent := by
    have course : Course analysis frontEnd environment _ _ _ := .noFormatter given absent
    exact ⟨course.run_eq, rfl, course.events_eq⟩
  unread source formatter error complete failed := by
    have course : Course analysis frontEnd environment _ _ _ := .unread complete failed
    exact ⟨Source.unreadable_of_read failed, course.run_eq, course.events_eq⟩
  rejected source formatter text fault complete read failed := by
    have course := Course.rejected complete read failed
    exact ⟨course.run_eq, course.events_eq⟩
  calledOnce := analysis.countP_isPrint_events_le_one frontEnd environment
  called formatter findings options := analysis.print_mem_events_iff frontEnd environment
  named formatter findings options called := by
    obtain ⟨source, -, finds, -, rfl⟩ :=
      (analysis.print_mem_events_iff frontEnd environment).mp called
    exact analysis.filename_optionsFor_ne_empty frontEnd environment finds
  nothingFound files := analysis.run_eq_nothingFound_iff frontEnd environment
  printed source formatter findings complete finds nonempty := by
    cases printed : formatter.print findings (analysis.optionsFor source) environment.files with
    | ok made => exact (Course.rendered complete finds nonempty printed).run_eq
    | error error => exact (Course.unprinted complete finds nonempty printed).run_eq

end Analysis

end ScriptLint
