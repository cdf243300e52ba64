import ScriptLint.Proofs.Code.Arrangement

/-!
# Statements and lines

For code whose brackets are properly nested, a semicolon outside quotes ends its line where no
parenthesis around it is open. Inside parentheses the line goes on with what follows in the code,
unless that is a closing brace, also where the semicolon stands in a block of its own.
-/

namespace ScriptLint.Code

variable {code read written older before after gap ahead : List Char} {next : Char}

/-- What stands behind the end of a statement. -/
theorem separator_statement (outside : EndsOutside older) :
    separator (';' :: older) gap (next :: ahead) =
      if next = '\x7d' ∨ parenDepth older.reverse = 0 then
        lineStart (lineDepth (';' :: older).reverse next)
      else gap := by
  have outsideToo : EndsOutside (';' :: older) := outside.cons (by decide)
  have sameDepth : parenDepth (';' :: older).reverse = parenDepth older.reverse :=
    depthOf_of_ne (by decide) (by decide)
  by_cases closes : next = '\x7d'
  · subst closes
    simp [separator, outsideToo, lineDepth]
  · have other : ¬ (EndsOutside (';' :: older) ∧ (next :: ahead).head? = some '\x7d') := by
      simp [closes]
    rw [separator, if_neg other, lineDepth, if_neg closes]
    by_cases flat : parenDepth older.reverse = 0
    · rw [fixedGap_statement outsideToo (sameDepth.trans flat), if_pos (.inr flat)]
      simp [afterStatement, closes]
    · rw [fixedGap_nested (sameDepth ▸ flat), if_neg (by simp [closes, flat])]
      rfl

/-- The last visible character of code ends the last line, if it ends a statement. -/
theorem last_statement {code : String} (spaced : Spaced code.toList)
    (split : code.toList = before ++ ';' :: after) (blank : ∀ d ∈ after, isBlank d = true) :
    ∃ earlier, (beautify code).toList = earlier ++ [';'] ∧ visible earlier = visible before := by
  obtain ⟨read, gap, written, isCode, spaces, laid, isText⟩ := exists_laid spaced
  have sameCode : gap ++ read = after.reverse ++ ';' :: before.reverse := by
    rw [← isCode, split]
    simp
  obtain ⟨-, rfl⟩ := blanks_append_inj (isBlank_of_spaces spaces) (by simpa using blank) laid.solid
    (by rintro _ ⟨⟩; decide) sameCode
  obtain ⟨text, rfl, sameVisible⟩ := laid.exists_last
  rw [lineLeftOpen_of_ne (by decide), List.nil_append] at isText
  refine ⟨text.reverse, ?_, ?_⟩
  · rw [← List.reverse_reverse (beautify code).toList, isText, List.reverse_cons]
  · rw [visible_reverse, sameVisible, visible_reverse, List.reverse_reverse]

/-- Any other end of a statement ends its line outside parentheses and in front of a closing brace;
elsewhere the line goes on. -/
theorem inner_statement {code : String} {rest : List Char}
    (spaced : Spaced code.toList)
    (split : code.toList = before ++ ';' :: (gap ++ next :: rest))
    (outside : (Quotes.scan before).pending = none) (spaces : ∀ d ∈ gap, d = ' ')
    (solid : isBlank next = false) :
    ∃ earlier later, (beautify code).toList = earlier ++ ';' :: later ∧
      visible earlier = visible before ∧
      if next = '\x7d' ∨ parenDepth before = 0 then later.head? = some '\n'
      else gap ++ [next] <+: later := by
  obtain ⟨read, tail, written, isCode, tailSpaces, laid, isText⟩ := exists_laid spaced
  have sameCode : tail ++ read =
      rest.reverse ++ next :: (gap.reverse ++ ';' :: before.reverse) := by
    rw [← isCode, split]
    simp
  obtain ⟨newer, -, isRead⟩ :=
    split_behind (not_mem_blanks (isBlank_of_spaces tailSpaces) solid) sameCode
  obtain ⟨newer', text, ahead, rfl, sameVisible⟩ :=
    laid.between_read (by simpa using spaces) solid (by decide) isRead
  have outsideToo : EndsOutside before.reverse := by
    rw [EndsOutside, List.reverse_reverse, outside]
  let later := (if next = '\x7d' ∨ parenDepth before = 0 then
      '\n' :: List.replicate (4 * lineDepth (';' :: before.reverse).reverse next) ' '
    else gap) ++ next :: (newer'.reverse ++ (lineLeftOpen read).reverse)
  refine ⟨text.reverse, later, ?_, ?_, ?_⟩
  · rw [← List.reverse_reverse (beautify code).toList, isText, separator_statement outsideToo,
      List.reverse_reverse]
    simp only [later]
    split <;> simp [lineStart]
  · rw [visible_reverse, sameVisible, visible_reverse, List.reverse_reverse]
  · simp only [later]
    split
    · rfl
    · exact ⟨newer'.reverse ++ (lineLeftOpen read).reverse, by simp⟩

/-- Blanks and the end of a statement leave the open brackets as they are. -/
theorem openBrackets_statement (before : List Char) (blank : ∀ d ∈ gap, isBlank d = true) :
    openBrackets (before ++ ';' :: gap) = openBrackets before := by
  have reversed : before ++ ';' :: gap = (gap.reverse ++ ';' :: before.reverse).reverse := by simp
  rw [reversed, openBrackets_append_blanks (by simpa using blank),
    openBrackets_of_ordinary (by decide), List.reverse_reverse]

/-- Where a parenthesis is the innermost open bracket, no closing brace comes next. -/
theorem ne_closeBrace_of_paren {brackets outer rest : List Char}
    (matched : openBrackets (before ++ ';' :: (gap ++ next :: rest)) = some brackets)
    (nested : openBrackets before = some ('(' :: outer))
    (outside : (Quotes.scan before).pending = none) (blank : ∀ d ∈ gap, isBlank d = true) :
    next ≠ '\x7d' := by
  rintro rfl
  have reversed : before ++ ';' :: (gap ++ '\x7d' :: rest) =
      ('\x7d' :: (gap.reverse ++ ';' :: before.reverse)).reverse ++ rest := by simp
  have outsideToo : EndsOutside (gap.reverse ++ ';' :: before.reverse) := by
    rw [endsOutside_append_blanks (by simpa using blank)]
    exact EndsOutside.cons (by rw [EndsOutside, List.reverse_reverse, outside]) (by decide)
  rw [reversed] at matched
  obtain ⟨closed, isClosed⟩ := exists_openBrackets matched
  have sameBrackets : openBrackets (gap.reverse ++ ';' :: before.reverse).reverse =
      some ('(' :: outer) := by
    simpa using (openBrackets_statement before blank).trans nested
  rw [openBrackets_of_outside outsideToo, sameBrackets] at isClosed
  cases isClosed

/-- The lines of statements. For properly nested brackets, a semicolon ends its line if no
parenthesis around it is open. If one is, the line goes on as the code does, unless a closing brace
follows; and none follows where the innermost open bracket is the parenthesis. -/
theorem semicolon_ends_line_outside_parens {code : String}
    (spaced : Spaced code.toList)
    (matched : openBrackets code.toList = some [])
    (split : code.toList = before ++ ';' :: after)
    (outside : (Quotes.scan before).pending = none) :
    ∃ brackets earlier later, openBrackets before = some brackets ∧
      (beautify code).toList = earlier ++ ';' :: later ∧ visible earlier = visible before ∧
      ('(' ∉ brackets → later = [] ∨ later.head? = some '\n') ∧
      ('(' ∈ brackets → ∃ gap next rest, after = gap ++ next :: rest ∧ (∀ d ∈ gap, d = ' ') ∧
        isBlank next = false ∧ (brackets.head? = some '(' → next ≠ '\x7d') ∧
        if next = '\x7d' then later.head? = some '\n' else gap ++ [next] <+: later) := by
  rw [split] at matched
  obtain ⟨brackets, nested⟩ := exists_openBrackets matched
  by_cases shown : ∃ d ∈ after, isBlank d = false
  · obtain ⟨gap, next, rest, rfl, blank, solid⟩ := exists_first_visible shown
    have spaces : ∀ d ∈ gap, d = ' ' := fun d member =>
      spaced d (by simp [split, member]) (blank d member)
    obtain ⟨earlier, later, isLaidOut, sameVisible, goesOn⟩ :=
      inner_statement spaced split outside spaces solid
    have counted : parenDepth before = brackets.count '(' := by
      rw [← List.reverse_reverse before] at nested ⊢
      exact parenDepth_eq_count nested
    refine ⟨brackets, earlier, later, nested, isLaidOut, sameVisible, ?_, ?_⟩
    · intro flat
      have flatToo : parenDepth before = 0 := by rw [counted, List.count_eq_zero.mpr flat]
      rw [if_pos (.inr flatToo)] at goesOn
      exact .inr goesOn
    · intro inParens
      have nestedParens : parenDepth before ≠ 0 := by
        rw [counted]
        exact (List.count_pos_iff.mpr inParens).ne'
      refine ⟨gap, next, rest, rfl, spaces, solid, ?_, by simpa [nestedParens] using goesOn⟩
      intro isInnermost
      obtain ⟨outer, rfl⟩ := List.head?_eq_some_iff.mp isInnermost
      exact ne_closeBrace_of_paren matched nested outside blank
  · have blank : ∀ d ∈ after, isBlank d = true := by simpa using shown
    obtain ⟨earlier, isLaidOut, sameVisible⟩ := last_statement spaced split blank
    refine ⟨brackets, earlier, [], nested, isLaidOut, sameVisible, fun _ => .inl rfl, ?_⟩
    -- Nothing is left open where only blanks follow.
    rw [openBrackets_statement _ blank, nested] at matched
    cases matched
    exact fun inside => absurd inside List.not_mem_nil

theorem semicolon_ends_line_outside_parens_loop :
    openBrackets "for (;;) \x7b a; \x7d".toList = some [] ∧
    ∃ brackets earlier later, openBrackets "for (;;) \x7b a".toList = some brackets ∧
      (beautify "for (;;) \x7b a; \x7d").toList = earlier ++ ';' :: later ∧
      visible earlier = visible "for (;;) \x7b a".toList ∧
      ('(' ∉ brackets → later = [] ∨ later.head? = some '\n') ∧
      ('(' ∈ brackets → ∃ gap next rest, " \x7d".toList = gap ++ next :: rest ∧
        (∀ d ∈ gap, d = ' ') ∧ isBlank next = false ∧ (brackets.head? = some '(' → next ≠ '\x7d') ∧
        if next = '\x7d' then later.head? = some '\n' else gap ++ [next] <+: later) := by
  refine ⟨by decide, semicolon_ends_line_outside_parens (by decide) (by decide) ?_ (by decide)⟩
  decide

/-- In the body of a function that is passed as an argument, a semicolon does not end its line,
although its innermost open bracket is a brace. -/
theorem semicolon_in_argument_shares_line :
    let code := "f(function () \x7b a; b; \x7d)"
    let before := "f(function () \x7b a".toList
    let earlier := "f(function () \x7b\n    a".toList
    Spaced code.toList ∧ openBrackets code.toList = some [] ∧
      code.toList = before ++ ';' :: " b; \x7d)".toList ∧
      (Quotes.scan before).pending = none ∧ openBrackets before = some ['\x7b', '('] ∧
      (beautify code).toList = earlier ++ ';' :: " b;\n\x7d)".toList ∧
      visible earlier = visible before := by
  decide +kernel

end ScriptLint.Code
