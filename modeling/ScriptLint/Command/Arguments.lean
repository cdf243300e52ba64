import ScriptLint.Config.Config

/-!
# Command-line arguments

Arguments are read from left to right, first at the top level and, after the name of a command, at
the level of that command. An option takes its value attached or as the next argument; a value that
comes as an argument of its own is checked only when something else follows it, so a fault in it
gives way to an unknown argument right behind it.

Covers `Cli`, `Commands`, `ScanArgs`, `InitArgs` and `LogLevel`. The words that explain a usage
error and the longer help texts are left out.
-/

namespace ScriptLint

/-- How much is logged. -/
inductive LogLevel where
  | trace
  | debug
  | info
  | warn
  | error
  deriving DecidableEq, Repr

namespace LogLevel

def all : List LogLevel :=
  [.trace, .debug, .info, .warn, .error]

def name : LogLevel → String
  | .trace => "trace"
  | .debug => "debug"
  | .info => "info"
  | .warn => "warn"
  | .error => "error"

def ofName? (text : String) : Option LogLevel :=
  all.find? (·.name = text)

end LogLevel

/-- The arguments of a scan. What is absent is left to the configuration. -/
structure ScanArguments where
  path : Path
  config : Option Path := none
  format : Option String := none
  verbosity : Option Nat := none
  destination : Option Path := none
  noColor : Bool := false
  deriving DecidableEq, Repr

inductive Command where
  | scan (arguments : ScanArguments)
  | init (output : Path)
  | rules
  deriving DecidableEq, Repr

/-- A whole command line. -/
structure Invocation where
  logLevel : LogLevel
  command : Command
  deriving DecidableEq, Repr

/-- Why a command line is not carried out. -/
inductive UsageError where
  | help
  | version
  | nothingGiven
  | missingCommand
  | unknownCommand
  | unknownArgument
  | missingArgument
  | invalidValue
  | valueOutOfRange
  | repeated
  | unneededValue
  deriving DecidableEq, Repr

namespace UsageError

/-- Asking for help or for the version is no failure. -/
def exitCode : UsageError → Nat
  | .help | .version => 0
  | _ => 2

end UsageError

namespace Arguments

/-- Where in a command line an argument stands. -/
inductive Level where
  | top
  | scan
  | init
  | rules
  deriving DecidableEq, Repr

/-- What can be given on a command line. -/
inductive Parameter where
  | logLevel
  | path
  | config
  | format
  | verbosity
  | destination
  | noColor
  | output
  | help
  | version
  deriving DecidableEq, Repr

namespace Parameter

/-- The long name of an option. The path to scan has none. -/
def long? : Parameter → Option String
  | .logLevel => some "log-level"
  | .path => none
  | .config => some "config"
  | .format => some "format"
  | .verbosity => some "verbosity"
  | .destination => some "destination"
  | .noColor => some "no-color"
  | .output => some "output"
  | .help => some "help"
  | .version => some "version"

/-- The letter of an option that has one. -/
def short? : Parameter → Option Char
  | .config => some 'c'
  | .format => some 'f'
  | .verbosity => some 'v'
  | .destination => some 'd'
  | .output => some 'o'
  | .help => some 'h'
  | .version => some 'V'
  | _ => none

def takesValue : Parameter → Bool
  | .noColor | .help | .version => false
  | _ => true

end Parameter

namespace Level

/-- The options of a level. The log level and the help are options of every level. -/
def options : Level → List Parameter
  | .top => [.logLevel, .help, .version]
  | .scan => [.config, .format, .verbosity, .destination, .noColor, .logLevel, .help]
  | .init => [.output, .logLevel, .help]
  | .rules => [.logLevel, .help]

def long? (level : Level) (name : String) : Option Parameter :=
  level.options.find? (·.long? = some name)

def short? (level : Level) (letter : Char) : Option Parameter :=
  level.options.find? (·.short? = some letter)

/-- The commands by name. One of them has a second name. -/
def ofName? : String → Option Level
  | "scan" | "check" => some .scan
  | "init" => some .init
  | "rules" => some .rules
  | _ => none

end Level

/-- What has been given at one level. -/
structure Given where
  logLevel : Option LogLevel := none
  path : Option Path := none
  config : Option Path := none
  format : Option String := none
  verbosity : Option Nat := none
  destination : Option Path := none
  noColor : Bool := false
  output : Option Path := none
  deriving DecidableEq, Repr

/-- A path is not empty. -/
def path? (text : String) : Except UsageError Path :=
  if text = "" then .error .invalidValue else .ok ⟨text⟩

/-- A verbosity, with or without a sign. -/
def verbosity? (text : String) : Except UsageError Nat :=
  let number? : Option Nat := match text.toList with
    | '+' :: digits => (Digits.number? 10 digits).filter (· ≤ Config.maxVerbosity)
    | '-' :: digits => (Digits.number? 10 digits).filter (· = 0)
    | digits => (Digits.number? 10 digits).filter (· ≤ Config.maxVerbosity)
  match number? with
  | some number => .ok number
  | none => .error .valueOutOfRange

def logLevel? (text : String) : Except UsageError LogLevel :=
  match LogLevel.ofName? text with
  | some level => .ok level
  | none => .error .invalidValue

namespace Given

/-- Whether a parameter has been given. -/
def has (given : Given) : Parameter → Bool
  | .logLevel => given.logLevel.isSome
  | .path => given.path.isSome
  | .config => given.config.isSome
  | .format => given.format.isSome
  | .verbosity => given.verbosity.isSome
  | .destination => given.destination.isSome
  | .noColor => given.noColor
  | .output => given.output.isSome
  | .help | .version => false

/-- Checks the value of a parameter and takes it in. -/
def store (given : Given) (parameter : Parameter) (text : String) : Except UsageError Given :=
  match parameter with
  | .logLevel => do return { given with logLevel := ← logLevel? text }
  | .path => do return { given with path := ← path? text }
  | .config => do return { given with config := ← path? text }
  | .format => .ok { given with format := some text }
  | .verbosity => do return { given with verbosity := ← verbosity? text }
  | .destination => do return { given with destination := ← path? text }
  | .noColor => .ok { given with noColor := true }
  | .output => do return { given with output := ← path? text }
  | .help => .error .help
  | .version => .error .version

/-- Takes in a parameter with the value that came with it. -/
def accept (given : Given) (parameter : Parameter) (value : Option String) :
    Except UsageError Given :=
  if parameter.takesValue ∧ value = none then .error .invalidValue
  else if given.has parameter then .error .repeated
  else given.store parameter (value.getD "")

end Given

/-- How far the arguments of a level have been read. -/
structure Progress where
  given : Given := {}
  /-- A parameter that is still to be taken in, and its value if that has come. -/
  pending : Option (Parameter × Option String) := none
  /-- Whether everything that follows is no option. -/
  trailing : Bool := false
  deriving DecidableEq, Repr

namespace Progress

/-- Takes in what is pending. -/
def settle (progress : Progress) : Except UsageError Progress :=
  match progress.pending with
  | none => .ok progress
  | some (parameter, value) => do
    return { progress with given := ← progress.given.accept parameter value, pending := none }

/-- The parameter whose value the next argument is. -/
def awaited? (progress : Progress) : Option Parameter :=
  match progress.pending with
  | some (parameter, none) => some parameter
  | _ => none

/-- An option with its attached value, or one whose value comes next, or a flag. -/
def option (progress : Progress) (parameter : Parameter) (attached : Option String) :
    Except UsageError Progress := do
  let progress ← progress.settle
  if parameter.takesValue ∧ attached = none then
    return { progress with pending := some (parameter, none) }
  else
    return { progress with given := ← progress.given.accept parameter attached }

/-- An option by its long name. -/
def long (progress : Progress) (level : Level) (name : String) (attached : Option String) :
    Except UsageError Progress :=
  match level.long? name with
  | none => .error .unknownArgument
  | some parameter =>
    if !parameter.takesValue ∧ attached.isSome then .error .unneededValue
    else progress.option parameter attached

/-- The value attached to a letter, with or without an equals sign. -/
def attachedValue : List Char → Option String
  | [] => none
  | '=' :: rest => some (String.ofList rest)
  | text => some (String.ofList text)

/-- Options by their letters; the first one that takes a value takes the rest. -/
def letters (progress : Progress) (level : Level) : List Char → Except UsageError Progress
  | [] => .ok progress
  | letter :: rest =>
    match level.short? letter with
    | none => .error .unknownArgument
    | some parameter =>
      if parameter.takesValue then progress.option parameter (attachedValue rest)
      else do (← progress.option parameter none).letters level rest

/-- An argument that is no option. Only a scan takes one, and no more than one. -/
def word (progress : Progress) (level : Level) (text : String) : Except UsageError Progress :=
  let pathGiven := progress.given.has .path || progress.pending.any (·.1 = .path)
  match level with
  | .scan =>
    if pathGiven then .error .unknownArgument
    else do return { ← progress.settle with pending := some (.path, some text) }
  | .top =>
    if progress.trailing ∧ ((Level.ofName? text).isSome ∨ text = "help") then
      .error .unknownArgument
    else .error .unknownCommand
  | _ => .error .unknownArgument

/-- The name and the attached value of a long option, after its dashes. -/
def splitLong (text : List Char) : String × Option String :=
  (String.ofList (text.takeWhile (· ≠ '=')),
    match text.dropWhile (· ≠ '=') with
    | [] => none
    | _ :: value => some (String.ofList value))

/-- One argument that names no command. -/
def argument (progress : Progress) (level : Level) (text : String) : Except UsageError Progress :=
  if progress.trailing then progress.word level text
  else match text.toList with
    | ['-', '-'] => .ok { progress with trailing := true }
    | '-' :: '-' :: rest =>
      let (name, attached) := splitLong rest
      progress.long level name attached
    | '-' :: letter :: rest => progress.letters level (letter :: rest)
    | _ =>
      match progress.awaited? with
      | some parameter => .ok { progress with pending := some (parameter, some text) }
      | none => progress.word level text

end Progress

/-- Asking for help on a command. -/
def helpOn : List String → UsageError
  | [] | ["help"] => .help
  | [name] => if (Level.ofName? name).isSome then .help else .unknownCommand
  | _ => .unknownCommand

/-- What a command line amounts to after its top level: the command and its arguments, if one is
named. -/
def readTop (progress : Progress) :
    List String → Except UsageError (Progress × Option (Level × List String))
  | [] => .ok (progress, none)
  | text :: rest =>
    let command? := if progress.trailing ∨ progress.awaited?.isSome then none else some text
    match command? with
    | some "help" => .error (helpOn rest)
    | _ =>
      match command?.bind Level.ofName? with
      | some level => .ok (progress, some (level, rest))
      | none => do readTop (← progress.argument .top text) rest

/-- The command of a level, once its arguments have been read. -/
def command (level : Level) (given : Given) : Except UsageError Command :=
  match level with
  | .scan =>
    match given.path with
    | none => .error .missingArgument
    | some path =>
      .ok (.scan {
        path := path
        config := given.config
        format := given.format
        verbosity := given.verbosity
        destination := given.destination
        noColor := given.noColor })
  | .init => .ok (.init (given.output.getD ⟨Config.defaultName⟩))
  | _ => .ok .rules

/-- What is given at the level of a command. -/
def readLevel (level : Level) (arguments : List String) : Except UsageError Given := do
  let start : Progress := {}
  let progress ← arguments.foldlM (fun progress text => progress.argument level text) start
  return (← progress.settle).given

/-- Reads a command line. -/
def read (arguments : List String) : Except UsageError Invocation := do
  match ← readTop {} arguments with
  | (top, none) =>
    let top ← top.settle
    .error (if top.given = {} then .nothingGiven else .missingCommand)
  | (top, some (level, rest)) =>
    let given ← readLevel level rest
    let command ← command level given
    let top ← top.settle
    return { logLevel := (given.logLevel.or top.given.logLevel).getD .warn, command }

end Arguments

end ScriptLint
