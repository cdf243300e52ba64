import ScriptLint.Text.Digits
import ScriptLint.Text.Pieces

/-!
# Columns

Listings are lines of columns with a tab between each two. In a column, a backslash stands before
`n`, `t` or another backslash to write a line break, a tab or itself.
-/

namespace ScriptLint.Columns

/-- A column with its escapes replaced by what they stand for. -/
def unescape : List Char → List Char
  | '\\' :: 'n' :: rest => '\n' :: unescape rest
  | '\\' :: 't' :: rest => '\t' :: unescape rest
  | '\\' :: '\\' :: rest => '\\' :: unescape rest
  | c :: rest => c :: unescape rest
  | [] => []

/-- The columns of each line that is not empty. -/
def ofText (text : String) : List (List String) :=
  let lines := (pieces '\n' text.toList).filter (· ≠ [])
  lines.map fun line => (pieces '\t' line).map fun column => String.ofList (unescape column)

/-- A number in decimal digits. -/
def number? (text : String) : Option Nat :=
  Digits.number? 10 text.toList

end ScriptLint.Columns
