import ScriptLint.Report.Options
import ScriptLint.Text.Lines

/-!
# Text reports

Three rows for each finding: its tag, its lines, and its description or nothing.

Covers the text formatter's `render`, `name` and `print`.
-/

namespace ScriptLint.Report

def textRows (finding : Finding) : List String :=
  ["Type " ++ finding.tag,
   "Lines " ++ toString finding.span.startLine ++ "-" ++ toString finding.span.endLine,
   match finding.description with
   | some description => description ++ "\n"
   | none => ""]

def renderText (findings : List Finding) : String :=
  joinLines (findings.flatMap textRows)

def text : Formatter :=
  .ofRender "text" fun findings _ => renderText findings

end ScriptLint.Report
