import ScriptLint.Code.Reconstruct
import ScriptLint.Json.Reader
import ScriptLint.Json.Writer
import ScriptLint.Report.Options

/-!
# JSON reports

A report as data, its written form, and the reader of that form. A record may be written by key, in
any order and with keys that are not known, or as a list of its fields. A key may stand there once,
and only the fields that are optional may be left out.

Covers `JsonReport` and `JsonFinding` with both their written form and their reading, `report`,
`from_finding`, and the JSON formatter's `name` and `print`.
-/

namespace ScriptLint

/-- A finding as it stands in a report. -/
structure ReportedFinding where
  tag : String
  kind : String
  description : Option String
  startLine : Nat
  endLine : Nat
  startCol : Nat
  endCol : Nat
  /-- The code, in reports of the highest verbosity. -/
  source : Option String
  deriving DecidableEq, Repr

/-- A report as data. -/
structure JsonReport where
  version : String
  file : String
  count : Nat
  findings : List ReportedFinding
  deriving DecidableEq, Repr

/-- The version that reports and the command line name. -/
def programVersion : String := "0.1.0"

namespace ReportedFinding

def ofFinding (finding : Finding) (withSource : Bool) : ReportedFinding where
  tag := finding.tag
  kind := finding.node.kindName
  description := finding.description
  startLine := finding.span.startLine
  endLine := finding.span.endLine
  startCol := finding.span.startCol
  endCol := finding.span.endCol
  source := if withSource then some finding.node.text else none

/-- A text that is left out if it is absent. -/
def optionalField (name : String) (text : Option String) : List (String × Json.Value) :=
  text.toList.map fun text => (name, .text text)

def value (finding : ReportedFinding) : Json.Value :=
  .record <|
    [("tag", .text finding.tag), ("kind", .text finding.kind)] ++
    optionalField "description" finding.description ++
    [("start_line", .number finding.startLine), ("end_line", .number finding.endLine),
     ("start_col", .number finding.startCol), ("end_col", .number finding.endCol)] ++
    optionalField "source" finding.source

end ReportedFinding

namespace JsonReport

def ofFindings (findings : List Finding) (options : ReportOptions) : JsonReport where
  version := programVersion
  file := options.filename
  count := findings.length
  findings := findings.map (ReportedFinding.ofFinding · (options.verbosity ≥ 2))

def value (report : JsonReport) : Json.Value :=
  .record
    [("version", .text report.version), ("file", .text report.file),
     ("count", .number report.count), ("findings", .list (report.findings.map (·.value)))]

/-- The written form of a report. -/
def pretty (report : JsonReport) : String :=
  String.ofList (report.value.pretty 0)

end JsonReport

namespace Json

/-- Reads the colon and the value of a field that was not read before. -/
def readOnce {α β : Type} (seen : Option α) (read : List Char → Except Fault (Parsed α))
    (store : α → β) (text : List Char) : Except Fault (Parsed β) :=
  if seen.isSome then .error .mismatch
  else do
    let (_, text) ← colon text
    let (value, text) ← read text
    .ok (store value, text)

/-- Reads the next item of a list, if there is one. -/
def readItem? {α : Type} (first : Bool) (read : List Char → Except Fault (Parsed α))
    (text : List Char) : Except Fault (Parsed (Option α)) := do
  let (more, text) ← nextItem first text
  if more then
    let (value, text) ← read text
    .ok (some value, text)
  else .ok (none, text)

/-- Reads an item that a list must have. -/
def readItem {α : Type} (first : Bool) (read : List Char → Except Fault (Parsed α))
    (text : List Char) : Except Fault (Parsed α) := do
  match ← readItem? first read text with
  | (some value, text) => .ok (value, text)
  | (none, _) => .error .mismatch

/-- What a record must have been given. -/
def required {α : Type} : Option α → Except Fault α
  | some value => .ok value
  | none => .error .mismatch

/-- Reads a record by key or as a list. -/
def readRecord {α : Type} (byKey asList : List Char → Except Fault (Parsed α))
    (text : List Char) : Except Fault (Parsed α) :=
  match skipSpace text with
  | [] => .error .ended
  | '[' :: rest => do
    let (value, rest) ← asList rest
    let (_, rest) ← endList rest
    .ok (value, rest)
  | '\x7b' :: rest => do
    let (value, rest) ← byKey rest
    let (_, rest) ← endRecord rest
    .ok (value, rest)
  | text => .error (mismatchAt text)

end Json

namespace ReportedFinding

open Json

/-- The fields of a finding that have been read so far. -/
structure Draft where
  tag : Option String := none
  kind : Option String := none
  description : Option (Option String) := none
  startLine : Option Nat := none
  endLine : Option Nat := none
  startCol : Option Nat := none
  endCol : Option Nat := none
  source : Option (Option String) := none
  deriving DecidableEq, Repr

namespace Draft

/-- How the value of a key is read into a draft. -/
def field (draft : Draft) (key : String) : Option (List Char → Except Fault (Parsed Draft)) :=
  match key with
  | "tag" => some (readOnce draft.tag readText ({ draft with tag := some · }))
  | "kind" => some (readOnce draft.kind readText ({ draft with kind := some · }))
  | "description" =>
    some (readOnce draft.description readOptionalText ({ draft with description := some · }))
  | "start_line" => some (readOnce draft.startLine readNatural ({ draft with startLine := some · }))
  | "end_line" => some (readOnce draft.endLine readNatural ({ draft with endLine := some · }))
  | "start_col" => some (readOnce draft.startCol readNatural ({ draft with startCol := some · }))
  | "end_col" => some (readOnce draft.endCol readNatural ({ draft with endCol := some · }))
  | "source" => some (readOnce draft.source readOptionalText ({ draft with source := some · }))
  | _ => none

/-- The finding that a draft describes once its record has ended. -/
def finish (draft : Draft) : Except Fault ReportedFinding :=
  return {
    tag := ← required draft.tag
    kind := ← required draft.kind
    description := draft.description.join
    startLine := ← required draft.startLine
    endLine := ← required draft.endLine
    startCol := ← required draft.startCol
    endCol := ← required draft.endCol
    source := draft.source.join }

end Draft

def readByKey (text : List Char) : Except Fault (Parsed ReportedFinding) := do
  let (draft, text) ← readFields Draft.field true text.length.succ {} text
  .ok (← draft.finish, text)

def readAsList (text : List Char) : Except Fault (Parsed ReportedFinding) := do
  let (tag, text) ← readItem true readText text
  let (kind, text) ← readItem false readText text
  let (description, text) ← readItem? false readOptionalText text
  let (startLine, text) ← readItem false readNatural text
  let (endLine, text) ← readItem false readNatural text
  let (startCol, text) ← readItem false readNatural text
  let (endCol, text) ← readItem false readNatural text
  let (source, text) ← readItem? false readOptionalText text
  let description := description.join
  let source := source.join
  .ok ({ tag, kind, description, startLine, endLine, startCol, endCol, source }, text)

def read (text : List Char) : Except Fault (Parsed ReportedFinding) :=
  readRecord readByKey readAsList text

end ReportedFinding

namespace JsonReport

open Json

/-- The fields of a report that have been read so far. -/
structure Draft where
  version : Option String := none
  file : Option String := none
  count : Option Nat := none
  findings : Option (List ReportedFinding) := none
  deriving DecidableEq, Repr

namespace Draft

/-- How the value of a key is read into a draft. -/
def field (draft : Draft) (key : String) : Option (List Char → Except Fault (Parsed Draft)) :=
  match key with
  | "version" => some (readOnce draft.version readText ({ draft with version := some · }))
  | "file" => some (readOnce draft.file readText ({ draft with file := some · }))
  | "count" => some (readOnce draft.count readNatural ({ draft with count := some · }))
  | "findings" =>
    some (readOnce draft.findings (readList ReportedFinding.read)
      ({ draft with findings := some · }))
  | _ => none

/-- The report that a draft describes once its record has ended. -/
def finish (draft : Draft) : Except Fault JsonReport :=
  return {
    version := ← required draft.version
    file := ← required draft.file
    count := ← required draft.count
    findings := ← required draft.findings }

end Draft

def readByKey (text : List Char) : Except Fault (Parsed JsonReport) := do
  let (draft, text) ← readFields Draft.field true text.length.succ {} text
  .ok (← draft.finish, text)

def readAsList (text : List Char) : Except Fault (Parsed JsonReport) := do
  let (version, text) ← readItem true readText text
  let (file, text) ← readItem false readText text
  let (count, text) ← readItem false readNatural text
  let (findings, text) ← readItem false (readList ReportedFinding.read) text
  .ok ({ version, file, count, findings }, text)

/-- The report that a text is the written form of. -/
def parse (text : String) : Except Fault JsonReport :=
  readWhole (readRecord readByKey readAsList) text

end JsonReport

namespace Report

def json : Formatter :=
  .ofRender "json" fun findings options => (JsonReport.ofFindings findings options).pretty

end Report

end ScriptLint
