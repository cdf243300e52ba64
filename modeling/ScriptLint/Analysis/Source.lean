import ScriptLint.Config.Document
import ScriptLint.Files.Store
import ScriptLint.Grammar.Language
import ScriptLint.Grammar.Lowering

/-!
# Sources and what surrounds a run

A source is a file, standard input or a text at hand. What a run reads from outside is an
environment, and what grammars make of a text is a front end.

Covers `Source` with `from_arg`, `display_name` and `extension`.
-/

namespace ScriptLint

/-- Turns a text into a tree. -/
abbrev Parser := String → Except ParseError Node

/-- The grammars: the concrete tree of a text in a language, and the document that a configuration
text writes down, if it is well formed. -/
structure FrontEnd where
  cst : Language → String → Cst
  document? : String → Option Document
  languages : LanguageTable := .builtin

/-- The parser of a language. -/
def FrontEnd.parser (frontEnd : FrontEnd) (language : Language) : Parser := fun text =>
  (frontEnd.cst language text).parse (Bytes.ofText text)

/-- What a run can read. -/
structure Environment where
  files : FileSystem := {}
  stdin : Bytes := []
  deriving DecidableEq, Repr

/-- Where source text comes from. -/
inductive Source where
  | file (path : Path)
  | stdin
  | text (content : String)
  deriving DecidableEq, Repr

namespace Source

/-- The path that stands for standard input. -/
def stdinPath : Path := ⟨"-"⟩

/-- The source that an argument names. -/
def ofArgument (argument : Path) : Source :=
  if argument.same stdinPath then .stdin else .file argument

/-- The name of a source in headings and in the names of report files. -/
def displayName : Source → String
  | .file path => path.text
  | .stdin => "stdin"
  | .text _ => "input"

/-- The extension of a file, dot included. -/
def extension? : Source → Option String
  | .file path => path.extension?.map ("." ++ ·)
  | _ => none

/-- The parser that the source's extension asks for, or that of the first language. -/
def parser (source : Source) (frontEnd : FrontEnd) : Parser :=
  frontEnd.parser ((source.extension?.bind frontEnd.languages.lookup?).getD .javascript)

end Source

end ScriptLint
