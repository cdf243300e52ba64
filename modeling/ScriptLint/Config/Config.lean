import ScriptLint.Config.Document
import ScriptLint.Files.Path
import ScriptLint.Rules.Settings
import ScriptLint.Text.Quoted

/-!
# Configuration

Which rules run and how their findings are reported.

Covers `Config`, `ReportSettings` and `OutputFormat` with their defaults and their reading from a
document, `validate`, and the default template.
-/

namespace ScriptLint

/-- How a report is written. -/
inductive ReportFormat where
  | text
  | log
  | html
  | json
  deriving DecidableEq, Repr

namespace ReportFormat

def all : List ReportFormat :=
  [.text, .log, .html, .json]

def name : ReportFormat → String
  | .text => "text"
  | .log => "log"
  | .html => "html"
  | .json => "json"

def ofName? (text : String) : Option ReportFormat :=
  all.find? (·.name = text)

/-- What is said of a name that no format has. -/
def unknownMessage (text : String) : String :=
  "invalid format " ++ quoted text ++ ", must be 'text', 'log', 'html', or 'json'"

end ReportFormat

/-- The report section of a configuration. -/
structure ReportSettings where
  format : ReportFormat := .log
  verbosity : Nat := 1
  destination : Path := ⟨"."⟩
  deriving DecidableEq, Repr

structure Config where
  version : String := "1"
  rules : RuleSettings := {}
  report : ReportSettings := {}
  deriving DecidableEq, Repr

/-- Why a configuration that could be read is refused. -/
inductive ConfigError where
  | limitTooLow (rule : String)
  | verbosityOutOfRange (verbosity : Nat)
  deriving DecidableEq, Repr

namespace Config

/-- The largest verbosity a report has. -/
def maxVerbosity : Nat := 2

/-- The name of a new configuration file. -/
def defaultName : String := "patternscan.yaml"

/-- The names that a configuration file is looked for under, in order. -/
def defaultNames : List String :=
  [defaultName, ".patternscan.yaml"]

/-- The lines of the configuration that a new project starts with. -/
def templateLines : List String :=
  ["# patternscan configuration",
   "#",
   "# Rules are toggled individually. Rules with a limit accept `max`.",
   "version: \"1\"",
   "",
   "rules:",
   "  too_many_returns:",
   "    enabled: true",
   "    max: 1",
   "  too_many_params:",
   "    enabled: true",
   "    max: 3",
   "  nested_conditional:",
   "    enabled: true",
   "  imperative_loop:",
   "    enabled: false",
   "",
   "report:",
   "  # text | log | html | json",
   "  format: log",
   "  # 0: one line per finding",
   "  # 1: adds type, line range and description",
   "  # 2: also prints the offending code",
   "  verbosity: 1",
   "  # Output directory for file-emitting formats (html)",
   "  destination: \".\""]

/-- The configuration that a new project starts with. -/
def template : String :=
  String.join (templateLines.map (· ++ "\n"))

/-- Whether two configurations agree, where equal destinations may be written differently. -/
def same (config other : Config) : Bool :=
  config.version = other.version && config.rules = other.rules &&
    config.report.format = other.report.format &&
    config.report.verbosity = other.report.verbosity &&
    config.report.destination.same other.report.destination

/-- The first thing that is wrong with a configuration. -/
def check (config : Config) : Except ConfigError Unit :=
  if config.rules.tooManyReturns.max = some 0 then .error (.limitTooLow "too_many_returns")
  else if config.rules.tooManyParams.max = some 0 then .error (.limitTooLow "too_many_params")
  else if config.report.verbosity > maxVerbosity then
    .error (.verbosityOutOfRange config.report.verbosity)
  else .ok ()

end Config

def ConfigError.message : ConfigError → String
  | .limitTooLow rule => "rules." ++ rule ++ ".max must be at least 1"
  | .verbosityOutOfRange verbosity =>
    "report.verbosity " ++ toString verbosity ++ " is out of range, must be 0 to " ++
      toString Config.maxVerbosity

namespace Document

open Document (readKey)

/-- The largest limit that a rule can be given: the largest number of 64 bits. -/
def maxLimit : Nat := 18446744073709551615

/-- The largest verbosity that can be written down. -/
def maxWrittenVerbosity : Nat := 255

def ruleSetting? (document : Document) : Option RuleSetting := do
  let entries ← document.record?
  return {
    enabled := ← readKey entries "enabled" bool? true
    max := ← readKey entries "max" (optionalNatural? maxLimit) none }

def ruleSettings? (document : Document) : Option RuleSettings := do
  let entries ← document.record?
  let absent : RuleSettings := {}
  return {
    tooManyReturns := ← readKey entries "too_many_returns" ruleSetting? absent.tooManyReturns
    tooManyParams := ← readKey entries "too_many_params" ruleSetting? absent.tooManyParams
    nestedConditional :=
      ← readKey entries "nested_conditional" ruleSetting? absent.nestedConditional
    imperativeLoop := ← readKey entries "imperative_loop" ruleSetting? absent.imperativeLoop }

def reportFormat? (document : Document) : Option ReportFormat :=
  document.text?.bind ReportFormat.ofName?

def reportSettings? (document : Document) : Option ReportSettings := do
  let entries ← document.record?
  let absent : ReportSettings := {}
  return {
    format := ← readKey entries "format" reportFormat? absent.format
    verbosity := ← readKey entries "verbosity" (natural? maxWrittenVerbosity) absent.verbosity
    destination := ← readKey entries "destination" (·.text?.map Path.mk) absent.destination }

/-- The configuration that a document describes. -/
def config? (document : Document) : Option Config := do
  let entries ← document.record?
  let absent : Config := {}
  return {
    version := ← readKey entries "version" text? absent.version
    rules := ← readKey entries "rules" ruleSettings? absent.rules
    report := ← readKey entries "report" reportSettings? absent.report }

end Document

end ScriptLint
