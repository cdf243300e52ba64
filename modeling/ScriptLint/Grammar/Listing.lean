import ScriptLint.Grammar.Cst
import ScriptLint.Text.Columns

/-!
# Listings of concrete trees

A listing has a line for each node in preorder: depth, kind, whether it is named (1 or 0), field or
nothing, start, end, and flags (1 for an error, 2 for a missing node, 4 for one that contains
either).
-/

namespace ScriptLint.Cst

/-- The row that a line of a listing describes. -/
def Row.ofColumns? : List String → Option Row
  | [depth, kind, named, field, start, stop, flags] => do
    let flags ← Columns.number? flags
    return {
      depth := ← Columns.number? depth
      label := {
        kind
        named := named = "1"
        field := Field.ofWord? field
        startByte := ← Columns.number? start
        endByte := ← Columns.number? stop
        isError := flags % 2 = 1
        isMissing := flags / 2 % 2 = 1
        hasError := flags / 4 % 2 = 1 } }
  | _ => none

/-- The tree that a listing describes. -/
def ofListing? (listing : String) : Option Cst := do
  ofRows? (← (Columns.ofText listing).mapM Row.ofColumns?)

/-- The tree of a text that no grammar has read. -/
def unread : Cst where
  label := { kind := "ERROR", startByte := 0, endByte := 0, isError := true, hasError := true }
  children := []

end ScriptLint.Cst
