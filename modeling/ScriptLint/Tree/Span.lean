/-!
# Source positions

A position is a line and a column, both counted from one and the column counted in bytes.
A span joins two byte offsets with the positions they stand for.

Covers the span's `from_bytes`, `line_count` and displayed form, and `line_col`. The positions that
`from_node` takes over from the grammar are told by the same offsets.
-/

namespace ScriptLint

/-- The byte that ends a line. -/
def newlineByte : UInt8 := 10

/-- A line and a column within it, both starting at one. -/
structure Position where
  line : Nat
  column : Nat
  deriving DecidableEq, Repr

/-- The position of a byte offset. An offset past the end stands for the end. -/
def Position.ofOffset (source : List UInt8) (offset : Nat) : Position :=
  let before := source.take offset
  { line := before.count newlineByte + 1
    column := (before.reverse.takeWhile (· != newlineByte)).length + 1 }

/-- A half-open range of bytes together with the positions of its two ends. -/
structure Span where
  startByte : Nat := 0
  endByte : Nat := 0
  startLine : Nat := 0
  startCol : Nat := 0
  endLine : Nat := 0
  endCol : Nat := 0
  deriving DecidableEq, Repr, Inhabited

namespace Span

/-- The span between two offsets, each located on its own: they may be reversed or out of range. -/
def ofBytes (source : List UInt8) (start stop : Nat) : Span :=
  let first := Position.ofOffset source start
  let last := Position.ofOffset source stop
  { startByte := start
    endByte := stop
    startLine := first.line
    startCol := first.column
    endLine := last.line
    endCol := last.column }

/-- Number of lines the span touches, as a number of 64 bits; a reversed span counts as one line. -/
def lineCount (span : Span) : Nat :=
  (span.endLine - span.startLine + 1) % 18446744073709551616

/-- The start of the span as `line:column`. -/
def display (span : Span) : String :=
  toString span.startLine ++ ":" ++ toString span.startCol

end Span

end ScriptLint
