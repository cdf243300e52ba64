import ScriptLint.Files.Store
import ScriptLint.Finding

/-!
# Report options and formatters

A formatter turns the findings of a run into a report. It may write a file on the way, so it is
given the files and hands them back.

Covers `ReportConfig` with `basename`, `ReportError` and the interface `Formatter`.
-/

namespace ScriptLint

/-- What a formatter is told beside the findings. -/
structure ReportOptions where
  /-- Zero for one line a finding, one for a block, two for a block and the code. -/
  verbosity : Nat := 1
  /-- The directory that report files go to. -/
  destination : Path := ⟨"."⟩
  /-- The name of the source, for headings and for the names of report files. -/
  filename : String := ""
  deriving DecidableEq, Repr

/-- The last component of the source's name, or the whole name if it has none. -/
def ReportOptions.basename (options : ReportOptions) : String :=
  (Path.mk options.filename).fileName?.getD options.filename

/-- Why a report could not be made. -/
inductive ReportError where
  | unwritable (path : Path) (cause : FileError)
  deriving DecidableEq, Repr

def ReportError.message : ReportError → String
  | .unwritable path cause => "failed to write report " ++ path.text ++ ": " ++ cause.message

/-- Makes a report and leaves the files as they are after it. -/
structure Formatter where
  name : String
  print : List Finding → ReportOptions → FileSystem → Except ReportError (String × FileSystem)

/-- A formatter that writes no file. -/
def Formatter.ofRender (name : String) (render : List Finding → ReportOptions → String) :
    Formatter where
  name := name
  print findings options files := .ok (render findings options, files)

end ScriptLint
