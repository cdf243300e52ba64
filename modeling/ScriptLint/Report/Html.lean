import ScriptLint.Code.Beautify
import ScriptLint.Code.Reconstruct
import ScriptLint.Report.Options

/-!
# HTML reports

A static document written next to other reports. Every text that comes from a finding or from the
source's name is escaped.

Covers the HTML formatter's `render`, `name` and `print`, and `escape`.
-/

namespace ScriptLint.Report

def htmlStyle : String :=
  String.join
    ["\n",
     "* \x7b margin: 0; padding: 0; \x7d\n",
     "body \x7b font-family: sans-serif; padding: 20px 0; \x7d\n",
     "h3 \x7b margin: 0 40px 20px; \x7d\n",
     "p.lines \x7b background: #ddd; border: 1px solid #000; margin: 10px; padding: 10px; \x7d\n",
     "p.lines span \x7b font-weight: bold; \x7d\n",
     "div.code \x7b background: #207ab2; color: #eab560; font-family: monospace; ",
     "margin: 0 40px; padding: 10px 10px 10px 50px; \x7d\n"]

/-- A character as it stands in element content and attribute values. -/
def htmlChar (c : Char) : List Char :=
  if c = '&' then "&amp;".toList
  else if c = '<' then "&lt;".toList
  else if c = '>' then "&gt;".toList
  else if c = '\x22' then "&quot;".toList
  else if c = '\x27' then "&#39;".toList
  else [c]

/-- Text escaped for element content and attribute values. -/
def htmlEscape (text : String) : String :=
  String.ofList (text.toList.flatMap htmlChar)

def htmlRow (finding : Finding) : String :=
  "<p class=\"lines\">Type <span>" ++ htmlEscape finding.tag ++ "</span>, Lines " ++
    toString finding.span.startLine ++ " - " ++ toString finding.span.endLine ++ "</p>\n" ++
    (match finding.description with
    | some description =>
      "<p class=\"lines\"><span>" ++ htmlEscape description ++ "</span></p>\n"
    | none => "") ++
    "<div class=\"code\"><pre>" ++ htmlEscape (Code.beautify finding.node.text) ++
    "</pre></div>\n"

def renderHtml (findings : List Finding) (filename : String) : String :=
  "<!DOCTYPE html>\n<html>\n<head>\n<meta charset=\"utf-8\">\n<title>" ++ htmlEscape filename ++
    "</title>\n<style>" ++ htmlStyle ++
    "</style>\n</head>\n<body>\n<h3>Functional pattern analysis of file " ++
    htmlEscape filename ++ "</h3>\n" ++ String.join (findings.map htmlRow) ++
    "</body>\n</html>\n"

/-- The file that a report goes to. -/
def htmlPath (options : ReportOptions) : Path :=
  options.destination.join ⟨options.basename ++ "_suite.html"⟩

/-- Writes the document and answers with a status line. -/
def html : Formatter where
  name := "html"
  print findings options files :=
    let path := htmlPath options
    let document := renderHtml findings options.filename
    match files.write path (Bytes.ofText document) with
    | .ok files =>
      .ok ("Functional pattern analysis of " ++ options.filename ++ " completed successfully.",
        files)
    | .error cause => .error (.unwritable path cause)

end ScriptLint.Report
