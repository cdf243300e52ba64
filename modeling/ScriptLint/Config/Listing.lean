import ScriptLint.Config.Document
import ScriptLint.Text.Columns

/-!
# Listings of documents

A listing has a line for each part of a document in preorder: depth, style (`plain`, `quoted`,
`list` or `mapping`) and text. Below a mapping, keys and values take turns.
-/

namespace ScriptLint.Document

/-- Keys with their values. -/
def pairs : List Document → Option (List (Document × Document))
  | [] => some []
  | key :: value :: rest => do return (key, value) :: (← pairs rest)
  | [_] => none

/-- A document in the given style with what stands below it. -/
def ofStyle? (style text : String) (below : List Document) : Option Document :=
  match style with
  | "plain" => if below.isEmpty then some (.plain text) else none
  | "quoted" => if below.isEmpty then some (.quoted text) else none
  | "list" => some (.list below)
  | "mapping" => .mapping <$> pairs below
  | _ => none

/-- Puts a line in front of the documents that follow it, and the deeper ones below it. -/
def addLine (columns : List String) (later : List (Nat × Document)) :
    Option (List (Nat × Document)) :=
  match columns with
  | [depth, style, text] => do
    let depth ← Columns.number? depth
    let below := later.takeWhile fun document => depth < document.1
    return (depth, ← ofStyle? style text (below.map (·.2))) :: later.drop below.length
  | _ => none

/-- The document that a listing describes. -/
def ofListing? (listing : String) : Option Document := do
  match ← (Columns.ofText listing).foldrM addLine [] with
  | [(_, document)] => some document
  | _ => none

end ScriptLint.Document
