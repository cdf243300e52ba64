import ScriptLint.Analysis.Source
import ScriptLint.Engine.Registry
import ScriptLint.Report.Options

/-!
# Analysis runs

A run reads its source, parses it, goes through the tree and hands the findings to a formatter. The
first step that fails decides the error, and a tree without findings is not formatted at all.

Covers the pipeline's `run` together with the analyzer that it makes, `read_source`, the report's
`output`, `finding_count` and `is_empty`, and `AnalysisError`. The steps are taken one after the
other. The log lines between them are left out.
-/

namespace ScriptLint

/-- Why a run gives no outcome. -/
inductive AnalysisError where
  | noSource
  | noFormatter
  | unreadable (path : Path) (cause : FileError)
  | invalidSource
  | report (error : ReportError)
  deriving DecidableEq, Repr

def AnalysisError.message : AnalysisError → String
  | .noSource => "No file given"
  | .noFormatter => "No generator given"
  | .unreadable path cause => "Error reading file " ++ path.text ++ ": " ++ cause.message
  | .invalidSource => "Invalid JavaScript"
  | .report error => error.message

/-- What a run made of its source. -/
inductive Outcome where
  | nothingFound
  | rendered (count : Nat) (report : String)
  deriving DecidableEq, Repr

namespace Outcome

/-- What is shown for an outcome. -/
def output : Outcome → String
  | .nothingFound => "No results found"
  | .rendered _ report => report

def findingCount : Outcome → Nat
  | .nothingFound => 0
  | .rendered count _ => count

def isEmpty : Outcome → Bool
  | .nothingFound => true
  | .rendered _ _ => false

end Outcome

/-- The whole text of a source. -/
def Source.read (source : Source) (environment : Environment) : Except AnalysisError String :=
  match source with
  | .file path => (environment.files.readText path).mapError (.unreadable path)
  | .stdin => (FileSystem.decode environment.stdin).mapError (.unreadable stdinPath)
  | .text content => .ok content

/-- The parts of a run. Only the source and the formatter have no default. -/
structure Analysis where
  source : Option Source := none
  formatter : Option Formatter := none
  /-- The structural defaults if absent. -/
  registry : Option Registry := none
  /-- The parser for the source's extension if absent. -/
  parser : Option Parser := none
  options : Option ReportOptions := none

/-- The options with the source's name in place of an empty one. -/
def ReportOptions.forSource (options : ReportOptions) (source : Source) : ReportOptions :=
  if options.filename = "" then { options with filename := source.displayName } else options

/-- How a run gets at what is outside: it reads its source and has its findings formatted. -/
structure Access (m : Type → Type) where
  read : Source → m (Except AnalysisError String)
  print : Formatter → List Finding → ReportOptions → m (Except ReportError String)

/-- Access to the files and to standard input. A report that fails leaves the files alone. -/
def Access.direct (stdin : Bytes) : Access (StateM FileSystem) where
  read source := do return source.read { files := ← get, stdin }
  print formatter findings options := do
    match formatter.print findings options (← get) with
    | .ok (report, files) =>
      set files
      return .ok report
    | .error error => return .error error

/-- The steps of a run. -/
def Analysis.runWith {m : Type → Type} [Monad m] (analysis : Analysis) (frontEnd : FrontEnd)
    (access : Access m) : m (Except AnalysisError Outcome) :=
  match analysis.source, analysis.formatter with
  | none, _ => return .error .noSource
  | some _, none => return .error .noFormatter
  | some source, some formatter => do
    match ← access.read source with
    | .error error => return .error error
    | .ok text =>
      match analysis.parser.getD (source.parser frontEnd) text with
      | .error _ => return .error .invalidSource
      | .ok root =>
        let findings := (analysis.registry.getD Registry.builtin).run root
        if findings.isEmpty then return .ok .nothingFound
        else
          let options := (analysis.options.getD {}).forSource source
          match ← access.print formatter findings options with
          | .ok report => return .ok (.rendered findings.length report)
          | .error error => return .error (.report error)

/-- Carries out a run and returns the files as they are after it. -/
def Analysis.run (analysis : Analysis) (frontEnd : FrontEnd) (environment : Environment) :
    Except AnalysisError (Outcome × FileSystem) :=
  let (answer, files) :=
    (analysis.runWith frontEnd (.direct environment.stdin)).run environment.files
  answer.map (·, files)

end ScriptLint
