import ScriptLint.Config.Config
import ScriptLint.Report.Html
import ScriptLint.Report.Json
import ScriptLint.Report.Log
import ScriptLint.Report.Text

/-!
# Formatters by name

The formatter of each report format and the options that report settings stand for.

Covers `formatter_for` and `from_settings`.
-/

namespace ScriptLint

/-- The formatter of a format. Colours are for log reports only. -/
def ReportFormat.formatter (format : ReportFormat) (coloured : Bool) : Formatter :=
  match format with
  | .text => Report.text
  | .log => Report.log coloured
  | .html => Report.html
  | .json => Report.json

/-- The options for a source's report under these settings. -/
def ReportSettings.options (settings : ReportSettings) (filename : String) : ReportOptions where
  verbosity := settings.verbosity
  destination := settings.destination
  filename := filename

end ScriptLint
