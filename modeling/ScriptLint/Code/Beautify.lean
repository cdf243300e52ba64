import ScriptLint.Text.Blank

/-!
# Layout of reconstructed code

Breaks one-line code after each opening brace and each statement, and indents four spaces for each
open brace. The scan keeps what it has written, how many braces and parentheses are open, and the
quote it is inside of; quoted text is copied as it stands.

Covers `beautify`, with one turn of its loop as `step`, and its parts `newline`, `reindent`,
`trim_line_end`, `current_line`, `next_significant`, `skip_spaces` and `starts_with_word`. A counter
that is lowered at zero stays there. Only the room set aside for the output is left out.
-/

namespace ScriptLint.Code

/-- The state of the scan. -/
structure Layout where
  /-- What has been written, newest character first. -/
  written : List Char := []
  depth : Nat := 0
  parens : Nat := 0
  /-- The quote character of the literal that the scan is inside of. -/
  quote : Option Char := none
  /-- Whether the last character was a backslash that escapes the next one. -/
  escaped : Bool := false
  deriving DecidableEq, Repr

def isQuote (c : Char) : Bool :=
  c = '\x22' || c = '\x27' || c = '\x60'

/-- The code from its first visible character on. -/
def skipBlank (code : List Char) : List Char :=
  code.dropWhile isBlank

namespace Layout

def push (layout : Layout) (c : Char) : Layout :=
  { layout with written := c :: layout.written }

/-- Removes spaces from the end of what has been written. -/
def trimEnd (layout : Layout) : Layout :=
  { layout with written := layout.written.dropWhile (· = ' ') }

/-- Whether nothing visible has been written since the last line break. -/
def lineIsBlank (layout : Layout) : Bool :=
  (layout.written.takeWhile (· ≠ '\n')).all isBlank

def indent (layout : Layout) : Layout :=
  { layout with written := List.replicate (4 * layout.depth) ' ' ++ layout.written }

/-- Ends the line and indents the next one. -/
def newline (layout : Layout) : Layout :=
  (layout.trimEnd.push '\n').indent

/-- Replaces what stands on the current line by the indentation. -/
def reindent (layout : Layout) : Layout :=
  { layout with written := layout.written.dropWhile (· ≠ '\n') }.indent

/-- Copies a character of a quoted literal. -/
def copyQuoted (layout : Layout) (quote c : Char) : Layout :=
  let layout := layout.push c
  if layout.escaped then { layout with escaped := false }
  else if c = '\\' then { layout with escaped := true }
  else if c = quote then { layout with quote := none }
  else layout

def openBrace (layout : Layout) : Layout :=
  { layout.push '\x7b' with depth := layout.depth + 1 }.newline

/-- Writes a closing brace on a line of its own. What follows decides whether the line goes on:
punctuation stays with the brace, and so does an `else`. -/
def closeBrace (layout : Layout) (ahead : List Char) : Layout :=
  let layout := { layout with depth := layout.depth - 1 }.trimEnd
  let layout := if layout.lineIsBlank then layout.reindent else layout.newline
  let layout := layout.push '\x7d'
  match ahead with
  | [] => layout
  | next :: _ =>
    if next = ';' || next = ',' || next = ')' || next = ']' then layout
    else if "else".toList.isPrefixOf ahead then layout.push ' '
    else layout.newline

/-- Writes the end of a statement. The line breaks unless the block or the code ends here. -/
def endStatement (layout : Layout) (ahead : List Char) : Layout :=
  let layout := layout.push ';'
  match ahead with
  | [] => layout
  | next :: _ => if next = '\x7d' then layout else layout.newline

/-- Reads one character, with the rest of the code in view, and returns the code left to read. -/
def step (layout : Layout) (c : Char) (rest : List Char) : Layout × List Char :=
  match layout.quote with
  | some quote => (layout.copyQuoted quote c, rest)
  | none =>
    if isQuote c then ({ layout.push c with quote := some c }, rest)
    else if c = '(' then ({ layout.push c with parens := layout.parens + 1 }, rest)
    else if c = ')' then ({ layout.push c with parens := layout.parens - 1 }, rest)
    else if c = '\x7b' then
      match skipBlank rest with
      | '\x7d' :: after => ((layout.push '\x7b').push '\x7d', after)
      | _ => (layout.openBrace, rest)
    else if c = '\x7d' then (layout.closeBrace (skipBlank rest), skipBlank rest)
    else if c = ';' then
      if layout.parens = 0 then (layout.endStatement (skipBlank rest), skipBlank rest)
      else (layout.push c, rest)
    else if c = ' ' && layout.lineIsBlank then (layout, rest)
    else (layout.push c, rest)

theorem length_skipBlank_le (code : List Char) : (skipBlank code).length ≤ code.length :=
  (List.dropWhile_sublist _).length_le

/-- A step reads at least the character it is given. -/
theorem length_step_le (layout : Layout) (c : Char) (rest : List Char) :
    (layout.step c rest).2.length ≤ rest.length := by
  have skipped := length_skipBlank_le rest
  unfold step
  repeat' split
  all_goals simp_all <;> omega

/-- Scans code to its end. -/
def run (layout : Layout) : List Char → Layout
  | [] => layout
  | c :: rest => run (layout.step c rest).1 (layout.step c rest).2
termination_by code => code.length
decreasing_by exact Nat.lt_succ_of_le (length_step_le layout c rest)

end Layout

/-- Lays code out over several indented lines. -/
def beautify (code : String) : String :=
  String.ofList (Layout.run {} code.toList).trimEnd.written.reverse

end ScriptLint.Code
