import ScriptLint.Analysis.Run
import ScriptLint.Command.Arguments
import ScriptLint.Report.Formatters

/-!
# Commands

What each command prints, which exit code it ends with, and how it leaves the files.

Covers `run_scan`, `run_init` and `run_rules`, the configuration's `parse_file`, `discover` and
`load`, and the choice of the exit code in `main`. Log lines and what they are filtered by are left
out, and so is what a document library has to say about a configuration that is not well formed: the
message only says that it is none. Whether standard output is a terminal is given as an argument.
-/

namespace ScriptLint

/-- The exit code of a scan without findings and of every other success. -/
def exitSuccess : Nat := 0

/-- The exit code of a scan with findings. -/
def exitFound : Nat := 1

/-- The exit code of a failure. -/
def exitError : Nat := 2

/-- How a command ends. -/
structure Response where
  exitCode : Nat
  stdout : String := ""
  stderr : String := ""
  files : FileSystem
  deriving DecidableEq, Repr

/-- Lines of text, each ended. -/
def linesText (lines : List String) : String :=
  String.join (lines.map (· ++ "\n"))

namespace Response

def success (files : FileSystem) (exitCode : Nat) (lines : List String) : Response :=
  { exitCode, stdout := linesText lines, files }

/-- A failure with the lines that explain it. The files stay as they are. -/
def failure (files : FileSystem) (message : String) (more : List String := []) : Response :=
  { exitCode := exitError, stderr := linesText (("Error: " ++ message) :: more), files }

end Response

/-- Why a scan has no configuration to go by, or none that it accepts. -/
inductive SetupError where
  | unreadable (path : Path) (cause : FileError)
  | badDocument (path : Path)
  | refused (error : ConfigError)
  | unknownFormat (name : String)
  deriving DecidableEq, Repr

def SetupError.message : SetupError → String
  | .unreadable path cause => "parsing " ++ path.text ++ ": " ++ cause.message
  | .badDocument path => "parsing " ++ path.text ++ ": not a configuration"
  | .refused error => error.message
  | .unknownFormat name => ReportFormat.unknownMessage name

namespace Config

/-- The configuration file in the working directory, if there is one. -/
def discover? (files : FileSystem) : Option Path :=
  (defaultNames.map Path.mk).find? files.contains

/-- The configuration with nothing wrong in it. -/
def checked (config : Config) : Except SetupError Config :=
  match config.check with
  | .ok _ => .ok config
  | .error error => .error (.refused error)

/-- The configuration that a file holds. -/
def ofFile (frontEnd : FrontEnd) (files : FileSystem) (path : Path) : Except SetupError Config :=
  match files.readText path with
  | .error cause => .error (.unreadable path cause)
  | .ok text =>
    match (frontEnd.document? text).bind Document.config? with
    | none => .error (.badDocument path)
    | some config => .ok config

/-- The configuration in the given file, or in one that is found, or the defaults. -/
def load (frontEnd : FrontEnd) (files : FileSystem) (given : Option Path) :
    Except SetupError Config :=
  match given.or (discover? files) with
  | none => .ok {}
  | some path => do (← ofFile frontEnd files path).checked

/-- The configuration with what the arguments say instead. -/
def override (config : Config) (arguments : ScanArguments) : Except SetupError Config := do
  let format ← match arguments.format with
    | none => pure config.report.format
    | some name =>
      match ReportFormat.ofName? name with
      | some format => pure format
      | none => .error (.unknownFormat name)
  return { config with
    report := {
      format := format
      verbosity := arguments.verbosity.getD config.report.verbosity
      destination := arguments.destination.getD config.report.destination } }

/-- The configuration that a scan goes by. -/
def ofArguments (frontEnd : FrontEnd) (files : FileSystem) (arguments : ScanArguments) :
    Except SetupError Config := do
  let config ← load frontEnd files arguments.config
  (← config.override arguments).checked

/-- The analysis of a source under a configuration. -/
def analysis (config : Config) (source : Source) (coloured : Bool) : Analysis where
  source := some source
  formatter := some (config.report.format.formatter coloured)
  registry := some (Rule.registry config.rules.rules)
  options := some (config.report.options source.displayName)

end Config

namespace Command

/-- What is printed when the version is asked for. -/
def versionText : String :=
  "patternscan " ++ programVersion ++ "\n"

/-- How the program is called. -/
def usageText : String :=
  linesText
    ["Usage: patternscan [--log-level <LEVEL>] <COMMAND>",
     "",
     "Commands:",
     "  scan <PATH> [-c <FILE>] [-f <FORMAT>] [-v <0-2>] [-d <DIR>] [--no-color]",
     "  init [-o <FILE>]",
     "  rules"]

/-- What is printed for a command line that is not carried out. -/
def usageResponse (files : FileSystem) (error : UsageError) : Response :=
  match error with
  | .help => { exitCode := error.exitCode, stdout := usageText, files }
  | .version => { exitCode := error.exitCode, stdout := versionText, files }
  | _ => { exitCode := error.exitCode, stderr := usageText, files }

/-- The files that a command's configuration may be read from. -/
def configPaths : Command → List Path
  | .scan arguments =>
    match arguments.config with
    | some path => [path]
    | none => Config.defaultNames.map Path.mk
  | _ => []

/-- Every path that a command may read or write once its configuration is at hand. -/
def paths (frontEnd : FrontEnd) (files : FileSystem) : Command → List Path
  | .scan arguments =>
    arguments.path ::
      match Config.ofArguments frontEnd files arguments with
      | .ok config =>
        [Report.htmlPath (config.report.options (Source.ofArgument arguments.path).displayName)]
      | .error _ => []
  | .init output => [output]
  | .rules => []

/-- Scans a source. Colours are shown on a terminal only. -/
def runScan (frontEnd : FrontEnd) (environment : Environment) (terminal : Bool)
    (arguments : ScanArguments) : Response :=
  match Config.ofArguments frontEnd environment.files arguments with
  | .error error => .failure environment.files error.message
  | .ok config =>
    let analysis := config.analysis (.ofArgument arguments.path) (terminal && !arguments.noColor)
    match analysis.run frontEnd environment with
    | .error error => .failure environment.files error.message
    | .ok (outcome, files) =>
      .success files (if outcome.isEmpty then exitSuccess else exitFound) [outcome.output]

/-- The directories that have to be there before a path can be written, innermost first. The working
directory always is. -/
def neededDirectories (output : Path) : List Path :=
  match output.directories with
  | [] => []
  | parent :: above =>
    if parent.text = "" || parent.same ⟨"."⟩ then [] else parent :: above

/-- Writes the configuration that a new project starts with. -/
def runInit (files : FileSystem) (output : Path) : Response :=
  if files.contains output then
    .failure files ("file already exists: " ++ output.text)
      ["Remove it or use --output to specify a different path"]
  else
    match files.makeDirectories (neededDirectories output) with
    | .error cause => .failure files ("failed to create directory: " ++ cause.message)
    | .ok made =>
      match made.write output (Bytes.ofText Config.template) with
      | .error cause => .failure made ("failed to write configuration: " ++ cause.message)
      | .ok written =>
        .success written exitSuccess
          ["Created " ++ output.text,
           "",
           "Next steps:",
           "  1. Edit " ++ output.text ++ " to enable or tune rules",
           if Config.defaultNames.any fun name => output.same ⟨name⟩ then
             "  2. Run: patternscan scan <file>"
           else "  2. Run: patternscan scan <file> --config " ++ output.text]

/-- A rule as it is listed, marked if it is off by default. -/
def ruleLine (rule : Rule) : String :=
  let settings : RuleSettings := {}
  let name :=
    if settings.rules.any (·.name = rule.name) then rule.name else rule.name ++ " (off)"
  "  " ++ padded 24 name ++ " " ++ padded 20 rule.tag ++ " " ++ rule.description

/-- Lists the stock rules. -/
def runRules (files : FileSystem) : Response :=
  .success files exitSuccess (["Available rules:", ""] ++ Rule.catalog.map ruleLine)

/-- Carries out a command. -/
def run (frontEnd : FrontEnd) (environment : Environment) (terminal : Bool) : Command → Response
  | .scan arguments => runScan frontEnd environment terminal arguments
  | .init output => runInit environment.files output
  | .rules => runRules environment.files

end Command

end ScriptLint
