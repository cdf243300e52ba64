import Mathlib.Data.List.Basic
import ScriptLint.Proofs.Code.Quotes

/-!
# Brackets outside quotes

How deep a text is nested, told by its characters outside quotes: a running count of one kind of
bracket that never goes below zero, and the row of open brackets of both kinds, which is there as
long as every closing bracket fits the innermost open one. Where it is there, the count of
parentheses is the number of open parentheses in the row. Blanks change neither.
-/

namespace ScriptLint.Code

/-- The characters that a scan for quotes reads outside quotes, opening quotes included. -/
def Quotes.outside (quotes : Quotes) : List Char → List Char
  | [] => []
  | c :: rest =>
    if quotes.pending = none then c :: (quotes.read c).outside rest
    else (quotes.read c).outside rest

def unquoted (text : List Char) : List Char :=
  Quotes.outside {} text

/-- The brackets that are open after a text, where a closing bracket too many does not count. -/
def depthOf (opening closing : Char) (text : List Char) : Nat :=
  (unquoted text).foldl
    (fun depth c => if c = opening then depth + 1 else if c = closing then depth - 1 else depth) 0

def braceDepth (text : List Char) : Nat :=
  depthOf '\x7b' '\x7d' text

def parenDepth (text : List Char) : Nat :=
  depthOf '(' ')' text

/-- Goes on from the open brackets, innermost first; a closing bracket has to fit. -/
def nest (brackets : List Char) (c : Char) : Option (List Char) :=
  if c = '(' ∨ c = '\x7b' then some (c :: brackets)
  else if c = ')' then if brackets.head? = some '(' then some brackets.tail else none
  else if c = '\x7d' then if brackets.head? = some '\x7b' then some brackets.tail else none
  else some brackets

/-- The parentheses and braces that are open after a text, innermost first, if those that are closed
were properly nested. -/
def openBrackets (text : List Char) : Option (List Char) :=
  (unquoted text).foldlM nest []

variable {older gap : List Char} {c opening closing : Char}

theorem Quotes.outside_append (quotes : Quotes) (first second : List Char) :
    quotes.outside (first ++ second) =
      quotes.outside first ++ (first.foldl read quotes).outside second := by
  induction first generalizing quotes with
  | nil => rfl
  | cons c first ih =>
    simp only [List.cons_append, outside, List.foldl_cons, ih]
    split <;> rfl

theorem unquoted_reverse_cons (c : Char) (older : List Char) :
    unquoted (c :: older).reverse =
      unquoted older.reverse ++ if (Quotes.scan older.reverse).pending = none then [c] else [] := by
  rw [List.reverse_cons, unquoted, Quotes.outside_append]
  rfl

theorem depthOf_of_inside (inside : (Quotes.scan older.reverse).pending ≠ none) :
    depthOf opening closing (c :: older).reverse = depthOf opening closing older.reverse := by
  rw [depthOf, unquoted_reverse_cons, if_neg inside, List.append_nil, depthOf]

theorem depthOf_of_outside (outside : (Quotes.scan older.reverse).pending = none) :
    depthOf opening closing (c :: older).reverse =
      if c = opening then depthOf opening closing older.reverse + 1
      else if c = closing then depthOf opening closing older.reverse - 1
      else depthOf opening closing older.reverse := by
  rw [depthOf, unquoted_reverse_cons, if_pos outside, List.foldl_append]
  rfl

theorem depthOf_of_ne (notOpening : c ≠ opening) (notClosing : c ≠ closing) :
    depthOf opening closing (c :: older).reverse = depthOf opening closing older.reverse := by
  by_cases outside : (Quotes.scan older.reverse).pending = none
  · rw [depthOf_of_outside outside, if_neg notOpening, if_neg notClosing]
  · exact depthOf_of_inside outside

theorem ne_of_isBlank (blank : isBlank c = true) (solid : isBlank opening = false) :
    c ≠ opening := by
  rintro rfl
  simp [blank] at solid

theorem depthOf_append_blanks (blank : ∀ c ∈ gap, isBlank c = true)
    (solidOpening : isBlank opening = false) (solidClosing : isBlank closing = false) :
    depthOf opening closing (gap ++ older).reverse = depthOf opening closing older.reverse := by
  induction gap with
  | nil => rfl
  | cons c gap ih =>
    rw [List.forall_mem_cons] at blank
    rw [List.cons_append, depthOf_of_ne (ne_of_isBlank blank.1 solidOpening)
      (ne_of_isBlank blank.1 solidClosing), ih blank.2]

theorem braceDepth_append_blanks (blank : ∀ c ∈ gap, isBlank c = true) :
    braceDepth (gap ++ older).reverse = braceDepth older.reverse :=
  depthOf_append_blanks blank (by decide) (by decide)

theorem parenDepth_append_blanks (blank : ∀ c ∈ gap, isBlank c = true) :
    parenDepth (gap ++ older).reverse = parenDepth older.reverse :=
  depthOf_append_blanks blank (by decide) (by decide)

theorem openBrackets_of_inside (inside : (Quotes.scan older.reverse).pending ≠ none) :
    openBrackets (c :: older).reverse = openBrackets older.reverse := by
  rw [openBrackets, unquoted_reverse_cons, if_neg inside, List.append_nil, openBrackets]

theorem openBrackets_of_outside (outside : (Quotes.scan older.reverse).pending = none) :
    openBrackets (c :: older).reverse = (openBrackets older.reverse).bind fun brackets =>
      nest brackets c := by
  rw [openBrackets, unquoted_reverse_cons, if_pos outside, List.foldlM_append]
  simp only [List.foldlM_cons, List.foldlM_nil, bind_pure]
  rfl

/-- What one character can do to properly nested brackets. -/
theorem nest_cases {brackets after : List Char} (step : nest brackets c = some after) :
    (c = '(' ∨ c = '\x7b') ∧ after = c :: brackets ∨
      c = ')' ∧ brackets = '(' :: after ∨
      c = '\x7d' ∧ brackets = '\x7b' :: after ∨
      c ∉ ['(', ')', '\x7b', '\x7d'] ∧ after = brackets := by
  unfold nest at step
  split at step
  · next opens => exact .inl ⟨opens, (Option.some.inj step).symm⟩
  · next opens =>
    split at step
    · next closes =>
      split at step
      · next fits =>
        obtain ⟨outer, rfl⟩ := List.head?_eq_some_iff.mp fits
        cases step
        exact .inr (.inl ⟨closes, rfl⟩)
      · cases step
    · next closesParen =>
      split at step
      · next closes =>
        split at step
        · next fits =>
          obtain ⟨outer, rfl⟩ := List.head?_eq_some_iff.mp fits
          cases step
          exact .inr (.inr (.inl ⟨closes, rfl⟩))
        · cases step
      · next closesBrace =>
        rw [not_or] at opens
        have ordinary : c ∉ ['(', ')', '\x7b', '\x7d'] := by
          simp [opens.1, opens.2, closesParen, closesBrace]
        exact .inr (.inr (.inr ⟨ordinary, (Option.some.inj step).symm⟩))

theorem nest_of_ordinary (ordinary : c ∉ ['(', ')', '\x7b', '\x7d']) (brackets : List Char) :
    nest brackets c = some brackets := by
  simp only [List.mem_cons, List.not_mem_nil, or_false, not_or] at ordinary
  simp [nest, ordinary]

theorem openBrackets_of_ordinary (ordinary : c ∉ ['(', ')', '\x7b', '\x7d']) :
    openBrackets (c :: older).reverse = openBrackets older.reverse := by
  by_cases outside : (Quotes.scan older.reverse).pending = none
  · rw [openBrackets_of_outside outside]
    simp only [nest_of_ordinary ordinary, Option.bind_fun_some]
  · exact openBrackets_of_inside outside

theorem ordinary_of_isBlank (blank : isBlank c = true) : c ∉ ['(', ')', '\x7b', '\x7d'] := by
  have solid : ∀ c ∈ ['(', ')', '\x7b', '\x7d'], (!isBlank c) = true :=
    List.all_eq_true.mp (by decide)
  intro member
  have shown := solid c member
  rw [blank] at shown
  cases shown

theorem openBrackets_append_blanks (blank : ∀ c ∈ gap, isBlank c = true) :
    openBrackets (gap ++ older).reverse = openBrackets older.reverse := by
  induction gap with
  | nil => rfl
  | cons c gap ih =>
    rw [List.forall_mem_cons] at blank
    rw [List.cons_append, openBrackets_of_ordinary (ordinary_of_isBlank blank.1), ih blank.2]

/-- What comes before properly nested brackets is properly nested. -/
theorem exists_openBrackets {first second brackets : List Char}
    (nested : openBrackets (first ++ second) = some brackets) :
    ∃ open', openBrackets first = some open' := by
  rw [openBrackets, unquoted, Quotes.outside_append, List.foldlM_append] at nested
  obtain ⟨open', isOpen, -⟩ := Option.bind_eq_some_iff.mp nested
  exact ⟨open', isOpen⟩

/-- Where brackets nest properly, the running count of parentheses counts the open ones. -/
theorem parenDepth_eq_count {text brackets : List Char}
    (nested : openBrackets text.reverse = some brackets) :
    parenDepth text.reverse = brackets.count '(' := by
  induction text generalizing brackets with
  | nil =>
    cases nested
    rfl
  | cons c older ih =>
    by_cases outside : (Quotes.scan older.reverse).pending = none
    · rw [openBrackets_of_outside outside, Option.bind_eq_some_iff] at nested
      obtain ⟨before, known, step⟩ := nested
      rw [parenDepth, depthOf_of_outside outside, ← parenDepth, ih known]
      obtain ⟨rfl | rfl, rfl⟩ | ⟨rfl, rfl⟩ | ⟨rfl, rfl⟩ | ⟨ordinary, rfl⟩ := nest_cases step
      · simp
      · simp
      · simp
      · simp
      · simp only [List.mem_cons, not_or] at ordinary
        rw [if_neg ordinary.1, if_neg ordinary.2.1]
    · rw [openBrackets_of_inside outside] at nested
      rw [parenDepth, depthOf_of_inside outside, ← parenDepth, ih nested]

end ScriptLint.Code
