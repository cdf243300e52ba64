import ScriptLint.Code.Beautify
import ScriptLint.Code.Reconstruct
import ScriptLint.Report.Options
import ScriptLint.Text.Lines

/-!
# Log reports

Annotated terminal output. The verbosity decides how much is said of a finding: one line, a comment
block, or a comment block followed by the code. Blocks are coloured if the terminal shows colours.

Covers the log formatter's `render`, `styled`, `name` and `print`, `summary_line` and
`header_block`. Whether the terminal shows colours is given as an argument.
-/

namespace ScriptLint.Report

/-- Starts blue letters on a white ground. -/
def highlightOn : String := "\x1b[47;34m"

/-- Ends every style. -/
def styleOff : String := "\x1b[0m"

/-- The text with `addition` put in after each occurrence of `mark`. -/
def insertAfter (mark addition : List Char) : (text : List Char) → List Char
  | [] => []
  | c :: rest =>
    if mark.isPrefixOf (c :: rest) then
      mark ++ addition ++ insertAfter mark addition (rest.drop (mark.length - 1))
    else c :: insertAfter mark addition rest
termination_by text => text.length

/-- A highlighted text; where the text itself ends every style, the highlight is taken up again. -/
def highlighted (text : String) : String :=
  highlightOn ++
    String.ofList (insertAfter styleOff.toList highlightOn.toList text.toList) ++ styleOff

/-- A finding on one line. -/
def summaryLine (finding : Finding) : String :=
  "Type " ++ finding.tag ++ ", Lines " ++ toString finding.span.startLine ++ " - " ++
    toString finding.span.endLine ++
    match finding.description with
    | some description => ": " ++ description
    | none => ""

/-- A finding as a block of comment lines. -/
def headerBlock (finding : Finding) : String :=
  joinLines
    ["// Type " ++ finding.tag,
     "// Lines " ++ toString finding.span.startLine ++ " - " ++ toString finding.span.endLine ++
       ":",
     match finding.description with
     | some description => "// " ++ description ++ "\n"
     | none => ""]

def logRows (coloured : Bool) (verbosity : Nat) (finding : Finding) : List String :=
  if verbosity = 0 then [summaryLine finding]
  else
    let block := headerBlock finding
    (if coloured then highlighted block else block) ::
      if verbosity ≥ 2 then [Code.beautify finding.node.text ++ "\n"] else []

def renderLog (coloured : Bool) (findings : List Finding) (verbosity : Nat) : String :=
  joinLines (findings.flatMap (logRows coloured verbosity))

def log (coloured : Bool) : Formatter :=
  .ofRender "log" fun findings options => renderLog coloured findings options.verbosity

end ScriptLint.Report
