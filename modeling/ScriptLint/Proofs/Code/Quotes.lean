import ScriptLint.Code.Beautify

/-!
# Quoted text

Which parts of a text are quoted, told by one scan from its start: a quote character opens a piece,
the same character closes it unless a backslash stands before it. Blanks outside quotes do not
matter to the scan, and a text that ends outside quotes still does when blanks are taken off its
end.
-/

namespace ScriptLint.Code

/-- What a scan for quoted text has found. -/
structure Quotes where
  /-- The pieces that have been closed, in order, each with its quotes. -/
  closed : List (List Char) := []
  /-- The piece that is open, behind the character that closes it. -/
  pending : Option (Char × List Char) := none
  escaped : Bool := false
  deriving DecidableEq, Repr

namespace Quotes

/-- Reads one character on. -/
def read (quotes : Quotes) (c : Char) : Quotes :=
  match quotes.pending with
  | none => if isQuote c then { quotes with pending := some (c, [c]) } else quotes
  | some (quote, piece) =>
    if quotes.escaped then { quotes with pending := some (quote, piece ++ [c]), escaped := false }
    else if c = '\\' then { quotes with pending := some (quote, piece ++ [c]), escaped := true }
    else if c = quote then
      { quotes with closed := quotes.closed ++ [piece ++ [c]], pending := none }
    else { quotes with pending := some (quote, piece ++ [c]) }

/-- The quoted pieces of a text. -/
def scan (text : List Char) : Quotes :=
  text.foldl read {}

theorem scan_reverse_cons (c : Char) (older : List Char) :
    scan (c :: older).reverse = (scan older.reverse).read c := by
  simp [scan]

theorem isQuote_eq_false_of_isBlank {c : Char} (blank : isBlank c = true) : isQuote c = false := by
  cases quote : isQuote c with
  | false => rfl
  | true =>
    simp only [isQuote, Bool.or_eq_true, decide_eq_true_eq] at quote
    rcases quote with (rfl | rfl) | rfl <;> revert blank <;> decide

theorem isQuote_of_pending {text piece : List Char} {quote : Char}
    (inside : (scan text.reverse).pending = some (quote, piece)) : isQuote quote = true := by
  induction text generalizing quote piece with
  | nil => simp [scan] at inside
  | cons c older ih =>
    rw [scan_reverse_cons, read] at inside
    split at inside
    · split at inside <;> simp_all
    · next known =>
      have same := ih known
      repeat' split at inside
      all_goals simp_all

theorem read_of_isBlank {quotes : Quotes} {c : Char} (outside : quotes.pending = none)
    (blank : isBlank c = true) : quotes.read c = quotes := by
  simp [read, outside, isQuote_eq_false_of_isBlank blank]

/-- A blank never closes a piece, so after one that is outside quotes nothing has changed. -/
theorem pending_of_read_isBlank {older : List Char} {c : Char} (blank : isBlank c = true)
    (outside : ((scan older.reverse).read c).pending = none) :
    (scan older.reverse).pending = none := by
  cases known : (scan older.reverse).pending with
  | none => rfl
  | some piece =>
    have quote := isQuote_of_pending known
    have other : c ≠ piece.1 := by
      rintro rfl
      simp [isQuote_eq_false_of_isBlank blank] at quote
    unfold read at outside
    simp only [known] at outside
    repeat' split at outside
    all_goals simp_all

/-- Blanks after a text that ends outside quotes are not part of any piece. -/
theorem scan_append_blanks {gap older : List Char} (blank : ∀ c ∈ gap, isBlank c = true)
    (outside : (scan older.reverse).pending = none) :
    scan (gap ++ older).reverse = scan older.reverse := by
  induction gap with
  | nil => rfl
  | cons c gap ih =>
    have rest := ih fun other member => blank other (by simp [member])
    rw [List.cons_append, scan_reverse_cons, rest]
    exact read_of_isBlank outside (blank c (by simp))

/-- Taking blanks off the end of a text that ends outside quotes takes them from no piece. -/
theorem scan_of_append_blanks {gap older : List Char} (blank : ∀ c ∈ gap, isBlank c = true)
    (outside : (scan (gap ++ older).reverse).pending = none) :
    scan older.reverse = scan (gap ++ older).reverse := by
  induction gap with
  | nil => rfl
  | cons c gap ih =>
    rw [List.cons_append, scan_reverse_cons] at outside ⊢
    have before := pending_of_read_isBlank (blank c (by simp)) outside
    rw [read_of_isBlank before (blank c (by simp))]
    exact ih (fun other member => blank other (by simp [member])) before

end Quotes

end ScriptLint.Code
