import ScriptLint.Proofs.Code.Separators

/-!
# The scan writes the separators

The scan writes most of a separator before it has seen the next visible character, and writes it
anew in front of a closing brace. What it keeps is therefore the text up to the last visible
character, laid out, and behind that what it has written ahead of time. At its end nothing stands
behind the last visible character, unless that is an open brace: then a line has been started.
-/

namespace ScriptLint.Code

variable {code read written gap older rest ahead : List Char} {c : Char}

/-! ## What the operations of the scan write -/

namespace Layout

variable {layout next : Layout}

theorem lineIsBlank_of_lineStart {depth : Nat}
    (shown : layout.written = lineStart depth ++ written) : layout.lineIsBlank = true := by
  rw [lineIsBlank, shown, takeWhile_lineStart]
  simp [show isBlank ' ' = true by decide]

theorem lineIsBlank_of_solid (spaces : ∀ d ∈ gap, d = ' ') (solid : isBlank c = false)
    (shown : layout.written = gap ++ c :: written) : layout.lineIsBlank = false := by
  have noBreak : c ≠ '\n' := (ne_of_isBlank (by decide) solid).symm
  have line : layout.written.takeWhile (· ≠ '\n') =
      gap ++ c :: written.takeWhile (· ≠ '\n') := by
    rw [shown, List.takeWhile_append_of_pos]
    · simp [noBreak]
    · intro d member
      rw [spaces d member]
      decide
  rw [lineIsBlank, line]
  simp [solid]

theorem written_copyQuoted (layout : Layout) (quote c : Char) :
    (layout.copyQuoted quote c).written = c :: layout.written := by
  unfold copyQuoted
  dsimp only
  repeat' split
  all_goals rfl

theorem depth_copyQuoted (layout : Layout) (quote c : Char) :
    (layout.copyQuoted quote c).depth = layout.depth := by
  unfold copyQuoted
  dsimp only
  repeat' split
  all_goals rfl

theorem parens_copyQuoted (layout : Layout) (quote c : Char) :
    (layout.copyQuoted quote c).parens = layout.parens := by
  unfold copyQuoted
  dsimp only
  repeat' split
  all_goals rfl

theorem written_openBrace (layout : Layout) :
    layout.openBrace.written = lineStart (layout.depth + 1) ++ '\x7b' :: layout.written := by
  rw [openBrace, written_newline]
  simp [push, lineStart]

theorem written_endStatement (layout : Layout) (ahead : List Char) :
    (layout.endStatement ahead).written =
      afterStatement layout.depth ahead ++ ';' :: layout.written := by
  cases ahead with
  | nil => rfl
  | cons next ahead =>
    by_cases closes : next = '\x7d'
    · simp [endStatement, afterStatement, closes, push]
    · simp [endStatement, afterStatement, closes, written_newline, push, lineStart]

theorem depth_endStatement (layout : Layout) (ahead : List Char) :
    (layout.endStatement ahead).depth = layout.depth := by
  unfold endStatement
  repeat' split
  all_goals rfl

theorem parens_endStatement (layout : Layout) (ahead : List Char) :
    (layout.endStatement ahead).parens = layout.parens := by
  unfold endStatement
  repeat' split
  all_goals rfl

/-- The scan where a closing brace is about to be written. -/
def braceLine (layout : Layout) : Layout :=
  let layout := { layout with depth := layout.depth - 1 }.trimEnd
  if layout.lineIsBlank then layout.reindent else layout.newline

theorem depth_braceLine (layout : Layout) : layout.braceLine.depth = layout.depth - 1 := by
  unfold braceLine
  dsimp only
  split <;> rfl

theorem written_closeBrace (layout : Layout) (ahead : List Char) :
    (layout.closeBrace ahead).written =
      afterBrace (layout.depth - 1) ahead ++ '\x7d' :: layout.braceLine.written := by
  cases ahead with
  | nil => rfl
  | cons next ahead =>
    have same : layout.closeBrace (next :: ahead) =
        if next = ';' || next = ',' || next = ')' || next = ']' then layout.braceLine.push '\x7d'
        else if "else".toList.isPrefixOf (next :: ahead) then
          (layout.braceLine.push '\x7d').push ' '
        else (layout.braceLine.push '\x7d').newline := rfl
    rw [same]
    simp only [afterBrace]
    split
    · rfl
    · split
      · rfl
      · rw [written_newline, ← depth_braceLine]
        simp [push, lineStart]

theorem depth_closeBrace (layout : Layout) (ahead : List Char) :
    (layout.closeBrace ahead).depth = layout.depth - 1 := by
  unfold closeBrace
  dsimp only
  repeat' split
  all_goals rfl

theorem parens_closeBrace (layout : Layout) (ahead : List Char) :
    (layout.closeBrace ahead).parens = layout.parens := by
  unfold closeBrace
  dsimp only
  repeat' split
  all_goals rfl

/-! ## Along the scan -/

/-- What the scan keeps: the text up to the last visible character is laid out, and behind it
stands what is written ahead of time. -/
structure Arranged (code : List Char) (layout : Layout) (older gap written rest : List Char) :
    Prop where
  laid : Laid code older written
  split : code = (gap ++ older).reverse ++ rest
  spaces : ∀ d ∈ gap, d = ' '
  shown : layout.written = (fixedGap older (skipBlank rest)).getD gap ++ written
  depth : layout.depth = braceDepth older.reverse
  parens : layout.parens = parenDepth older.reverse
  eager : PassesBlanks older → skipBlank rest = rest
  filled : EndsOutside older → older.head? = some '\x7b' → (skipBlank rest).head? ≠ some '\x7d'

namespace Arranged

theorem blanks (before : Arranged code layout older gap written rest) :
    ∀ d ∈ gap, isBlank d = true :=
  isBlank_of_spaces before.spaces

theorem endsOutside (before : Arranged code layout older gap written rest)
    (outside : EndsOutside older) : EndsOutside (gap ++ older) :=
  (endsOutside_append_blanks before.blanks).mpr outside

/-- In front of a visible character that closes no brace, the separator is written already. -/
theorem shown_eq (before : Arranged code layout older gap written (c :: rest))
    (solid : isBlank c = false) (notClosing : EndsOutside older → c ≠ '\x7d') :
    layout.written = separator older gap (c :: rest) ++ written := by
  have stays : ¬ (EndsOutside older ∧ (c :: rest).head? = some '\x7d') := by
    rintro ⟨outside, closes⟩
    exact notClosing outside (Option.some.inj closes)
  rw [separator, if_neg stays, before.shown, skipBlank_of_solid solid]

/-- In front of a closing brace, the separator is written in the place of what was there. -/
theorem written_braceLine (before : Arranged code layout older gap written ('\x7d' :: rest))
    (outside : EndsOutside older) :
    layout.braceLine.written = separator older gap ('\x7d' :: rest) ++ written := by
  have shown := before.shown
  have solid : isBlank '\x7d' = false := by decide
  rw [skipBlank_of_solid solid] at shown
  obtain ⟨rfl, rfl⟩ | ⟨c, read, text, rfl, rfl, visible⟩ := before.laid.head_eq
  · have flat : layout.depth = 0 := before.depth
    have empty : layout.written = [] := by
      rw [shown, fixedGap_nil]
      rfl
    simp [braceLine, trimEnd, lineIsBlank, reindent, indent, empty, flat, separator, outside]
  · have notOpening : c ≠ '\x7b' := by
      rintro rfl
      exact before.filled outside rfl (by rw [skipBlank_of_solid solid]; rfl)
    have isSeparator : separator (c :: read) gap ('\x7d' :: rest) =
        lineStart (layout.depth - 1) := by
      rw [before.depth]
      simp [separator, outside, notOpening]
    rw [isSeparator]
    unfold braceLine
    obtain spaces | ⟨-, -, starts⟩ := padding_cases (c :: read) ('\x7d' :: rest) before.spaces
    · -- The line has the character before the brace on it.
      have trimmed : ({ layout with depth := layout.depth - 1 }.trimEnd).written = c :: text := by
        rw [trimEnd, shown]
        exact before.laid.dropSpaces spaces
      have full : ({ layout with depth := layout.depth - 1 }.trimEnd).lineIsBlank = false :=
        lineIsBlank_of_solid (List.forall_mem_nil _) visible trimmed
      have stays : ([] ++ c :: text).dropWhile (· = ' ') = c :: text :=
        before.laid.dropSpaces (List.forall_mem_nil _)
      simp only [full, Bool.false_eq_true, if_false]
      rw [written_newline, trimmed, ← List.nil_append (c :: text), stays]
      rfl
    · have trimmed : ({ layout with depth := layout.depth - 1 }.trimEnd).written =
          '\n' :: c :: text := by
        rw [trimEnd, shown, starts]
        exact dropSpaces_lineStart ..
      have blankLine : ({ layout with depth := layout.depth - 1 }.trimEnd).lineIsBlank = true := by
        rw [lineIsBlank, trimmed]
        rfl
      simp only [blankLine, if_true]
      simp only [reindent, indent, trimmed]
      simp [trimEnd, lineStart]

/-- A visible character is read, and the blanks behind it if they are passed over. -/
theorem extended {passed after : List Char} (tail : List Char)
    (before : Arranged code layout older gap written (c :: rest)) (solid : isBlank c = false)
    (isRest : rest = passed ++ after) (spaces : ∀ d ∈ passed, d = ' ')
    (shown : next.written = tail ++ c :: (separator older gap (c :: rest) ++ written))
    (isTail : (fixedGap (c :: (gap ++ older)) (skipBlank after)).getD passed.reverse = tail)
    (depth : next.depth = braceDepth (c :: (gap ++ older)).reverse)
    (parens : next.parens = parenDepth (c :: (gap ++ older)).reverse)
    (eager : PassesBlanks (c :: (gap ++ older)) → skipBlank after = after)
    (filled : EndsOutside (c :: (gap ++ older)) → c = '\x7b' →
      (skipBlank after).head? ≠ some '\x7d') :
    Arranged code next (c :: (gap ++ older)) passed.reverse
      (c :: (separator older gap (c :: rest) ++ written)) after where
  laid := .next before.laid before.spaces solid before.split
  split := by
    rw [before.split, isRest]
    simp
  spaces := by simpa using spaces
  shown := by rw [shown, isTail]
  depth := depth
  parens := parens
  eager := eager
  filled outside opens := filled outside (Option.some.inj opens)

theorem braceDepth_read (before : Arranged code layout older gap written rest)
    (opening : c ≠ '\x7b') (closing : c ≠ '\x7d') :
    layout.depth = braceDepth (c :: (gap ++ older)).reverse := by
  rw [braceDepth, depthOf_of_ne opening closing, ← braceDepth,
    braceDepth_append_blanks before.blanks, before.depth]

theorem parenDepth_read (before : Arranged code layout older gap written rest) (opening : c ≠ '(')
    (closing : c ≠ ')') : layout.parens = parenDepth (c :: (gap ++ older)).reverse := by
  rw [parenDepth, depthOf_of_ne opening closing, ← parenDepth,
    parenDepth_append_blanks before.blanks, before.parens]

/-- A visible character is copied, and the blanks behind it will be. -/
theorem copied (before : Arranged code layout older gap written (c :: rest))
    (solid : isBlank c = false) (notClosing : EndsOutside older → c ≠ '\x7d')
    (shown : next.written = c :: layout.written)
    (depth : next.depth = braceDepth (c :: (gap ++ older)).reverse)
    (parens : next.parens = parenDepth (c :: (gap ++ older)).reverse)
    (copies : ∀ ahead, fixedGap (c :: (gap ++ older)) ahead = none) :
    Arranged code next (c :: (gap ++ older)) []
      (c :: (separator older gap (c :: rest) ++ written)) rest := by
  refine before.extended [] solid (List.nil_append rest).symm (List.forall_mem_nil _) ?_ ?_ depth
    parens ?_ ?_
  · rw [shown, before.shown_eq solid notClosing]
    rfl
  · rw [copies]
    rfl
  · intro passes
    exact absurd (copies []) (fixedGap_ne_none_of_passesBlanks [] passes)
  · rintro outside rfl
    cases (copies []).symm.trans (fixedGap_openBrace outside)

/-- A space is copied where the blanks of the code are kept. -/
theorem spaceCopied (before : Arranged code layout older gap written (' ' :: rest))
    (kept : fixedGap older (skipBlank rest) = none) (shown : next.written = ' ' :: layout.written)
    (depth : next.depth = layout.depth) (parens : next.parens = layout.parens) :
    Arranged code next older (' ' :: gap) written rest where
  laid := before.laid
  split := by
    rw [before.split]
    simp
  spaces := List.forall_mem_cons.mpr ⟨rfl, before.spaces⟩
  shown := by
    have same : skipBlank (' ' :: rest) = skipBlank rest := rfl
    rw [shown, before.shown, same, kept]
    rfl
  depth := depth.trans before.depth
  parens := parens.trans before.parens
  eager passes := absurd kept (fixedGap_ne_none_of_passesBlanks _ passes)
  filled := before.filled

/-- A space in front of a space to read is not passed over. -/
theorem not_passesBlanks (before : Arranged code layout older gap written (' ' :: rest)) :
    ¬ PassesBlanks older := by
  intro passes
  have shorter : (skipBlank rest).length ≤ rest.length := length_skipBlank_le rest
  have same := congrArg List.length (before.eager passes)
  change (skipBlank rest).length = rest.length + 1 at same
  omega

/-- Outside quotes, a space that is not copied comes at the start of a line. -/
theorem spaceSkipped (before : Arranged code layout older gap written (' ' :: rest))
    (fixed : fixedGap older (skipBlank rest) ≠ none) :
    Arranged code layout older (' ' :: gap) written rest where
  laid := before.laid
  split := by
    rw [before.split]
    simp
  spaces := List.forall_mem_cons.mpr ⟨rfl, before.spaces⟩
  shown := by
    obtain ⟨pad, known⟩ := Option.ne_none_iff_exists'.mp fixed
    have same : skipBlank (' ' :: rest) = skipBlank rest := rfl
    rw [before.shown, same, known]
    rfl
  depth := before.depth
  parens := before.parens
  eager passes := absurd passes before.not_passesBlanks
  filled := before.filled

/-- The line is blank exactly where a space is not copied. -/
theorem lineIsBlank_iff (before : Arranged code layout older gap written (' ' :: rest)) :
    layout.lineIsBlank = true ↔ fixedGap older (skipBlank rest) ≠ none := by
  have shown : layout.written = (fixedGap older (skipBlank rest)).getD gap ++ written :=
    before.shown
  cases fixed : fixedGap older (skipBlank rest) with
  | none =>
    obtain ⟨rfl, -⟩ | ⟨c, _, text, -, rfl, solid⟩ := before.laid.head_eq
    · rw [fixedGap_nil] at fixed
      cases fixed
    · rw [fixed] at shown
      simp [lineIsBlank_of_solid before.spaces solid shown]
  | some pad =>
    rw [fixed, Option.getD_some] at shown
    refine ⟨fun _ => Option.some_ne_none _, fun _ => ?_⟩
    obtain ⟨rfl, rfl⟩ | ⟨-, -, rfl⟩ | passes := fixedGap_cases fixed
    · obtain ⟨-, rfl⟩ | ⟨_, _, _, nonempty, -, -⟩ := before.laid.head_eq
      · simp [lineIsBlank, shown]
      · cases nonempty
    · exact lineIsBlank_of_lineStart shown
    · exact absurd passes before.not_passesBlanks

theorem outside_iff (before : Arranged code layout older gap written rest)
    (faithful : Faithful layout (gap ++ older) rest) :
    layout.quote = none ↔ EndsOutside older := by
  rw [faithful.quote, Option.map_eq_none_iff]
  exact endsOutside_append_blanks before.blanks

/-- Inside quotes every character is copied. -/
theorem quotedCopied {quote : Char} (before : Arranged code layout older gap written (c :: rest))
    (inside : ¬ EndsOutside older) (solid : isBlank c = false) :
    Arranged code (layout.copyQuoted quote c) (c :: (gap ++ older)) []
      (c :: (separator older gap (c :: rest) ++ written)) rest := by
  have insideToo : ¬ EndsOutside (gap ++ older) := by
    rwa [endsOutside_append_blanks before.blanks]
  refine before.copied solid (fun outside => absurd outside inside) (written_copyQuoted ..) ?_ ?_ ?_
  · rw [depth_copyQuoted, before.depth, braceDepth, braceDepth, depthOf_of_inside insideToo]
    exact (braceDepth_append_blanks before.blanks).symm
  · rw [parens_copyQuoted, before.parens, parenDepth, parenDepth, depthOf_of_inside insideToo]
    exact (parenDepth_append_blanks before.blanks).symm
  · intro ahead
    by_cases closed : EndsOutside (c :: (gap ++ older))
    · have closing := isQuote_of_endsOutside insideToo closed
      refine fixedGap_of_ordinary ?_ ?_ ?_
      all_goals
        rintro rfl
        cases closing
    · exact fixedGap_of_inside closed

/-- Outside quotes a character that is none of those with a rule of their own is copied. -/
theorem plainCopied (before : Arranged code layout older gap written (c :: rest))
    (solid : isBlank c = false) (ordinary : c ∉ ['\x7b', '\x7d', ';'])
    (shown : next.written = c :: layout.written) (depth : next.depth = layout.depth)
    (parens : next.parens = parenDepth (c :: (gap ++ older)).reverse) :
    Arranged code next (c :: (gap ++ older)) []
      (c :: (separator older gap (c :: rest) ++ written)) rest := by
  simp only [List.mem_cons, List.not_mem_nil, or_false, not_or] at ordinary
  obtain ⟨opening, closing, ending⟩ := ordinary
  exact before.copied solid (fun _ => closing) shown
    (depth.trans (before.braceDepth_read opening closing)) parens
    fun _ => fixedGap_of_ordinary opening closing ending

theorem braceOpened (before : Arranged code layout older gap written ('\x7b' :: rest))
    (outside : EndsOutside older) (filled : (skipBlank rest).head? ≠ some '\x7d') :
    Arranged code layout.openBrace ('\x7b' :: (gap ++ older)) []
      ('\x7b' :: (separator older gap ('\x7b' :: rest) ++ written)) rest := by
  have outsideToo := before.endsOutside outside
  have deeper : braceDepth ('\x7b' :: (gap ++ older)).reverse = layout.depth + 1 := by
    rw [braceDepth, depthOf_of_outside outsideToo, if_pos rfl, ← braceDepth,
      braceDepth_append_blanks before.blanks, before.depth]
  refine before.extended (lineStart (layout.depth + 1)) (by decide)
    (List.nil_append rest).symm (List.forall_mem_nil _) ?_ ?_ deeper.symm ?_ ?_ fun _ _ => filled
  · rw [written_openBrace, before.shown_eq (by decide) (fun _ => by decide)]
  · rw [fixedGap_openBrace (outsideToo.cons (by decide)), deeper]
    rfl
  · exact before.parenDepth_read (by decide) (by decide)
  · rintro ⟨-, ⟨closes, -⟩ | ⟨ends, -⟩⟩
    · cases closes
    · cases ends

/-- The blanks that the scan passes over are spaces. -/
theorem spaces_ahead (before : Arranged code layout older gap written (c :: rest))
    (spaced : Spaced code) : ∀ d ∈ rest.takeWhile isBlank, d = ' ' := by
  intro d member
  refine spaced d ?_ (List.mem_takeWhile_imp member)
  rw [before.split]
  simp [(List.takeWhile_prefix isBlank).subset member]

theorem braceClosed (before : Arranged code layout older gap written ('\x7d' :: rest))
    (outside : EndsOutside older) (spaced : Spaced code) :
    Arranged code (layout.closeBrace (skipBlank rest)) ('\x7d' :: (gap ++ older))
      (rest.takeWhile isBlank).reverse
      ('\x7d' :: (separator older gap ('\x7d' :: rest) ++ written)) (skipBlank rest) := by
  have outsideToo := before.endsOutside outside
  have solid : isBlank '\x7d' = false := by decide
  have filled : closesEmpty ('\x7d' :: (gap ++ older)) = false := by
    rw [closesEmpty, List.tail_cons, skipBlank_append before.blanks]
    obtain ⟨rfl, -⟩ | ⟨c, read, text, rfl, rfl, visible⟩ := before.laid.head_eq
    · rfl
    · rw [skipBlank_of_solid visible]
      have opens := before.filled outside
      rw [skipBlank_of_solid solid] at opens
      simpa using opens
  have shallower : braceDepth ('\x7d' :: (gap ++ older)).reverse = layout.depth - 1 := by
    rw [braceDepth, depthOf_of_outside outsideToo, if_neg (by decide), if_pos rfl, ← braceDepth,
      braceDepth_append_blanks before.blanks, before.depth]
  refine before.extended (afterBrace (layout.depth - 1) (skipBlank rest)) solid
    (takeWhile_append_skipBlank rest).symm (before.spaces_ahead spaced) ?_ ?_ ?_ ?_ ?_
    fun _ opens => absurd opens (by decide)
  · rw [written_closeBrace, before.written_braceLine outside]
  · rw [skipBlank_skipBlank, fixedGap_closeBrace (outsideToo.cons (by decide)) filled, shallower]
    rfl
  · rw [depth_closeBrace, shallower]
  · rw [parens_closeBrace]
    exact before.parenDepth_read (by decide) (by decide)
  · exact fun _ => skipBlank_skipBlank rest

theorem statementEnded (before : Arranged code layout older gap written (';' :: rest))
    (outside : EndsOutside older) (flat : layout.parens = 0)
    (spaced : Spaced code) :
    Arranged code (layout.endStatement (skipBlank rest)) (';' :: (gap ++ older))
      (rest.takeWhile isBlank).reverse
      (';' :: (separator older gap (';' :: rest) ++ written)) (skipBlank rest) := by
  have outsideToo := before.endsOutside outside
  have sameDepth := before.braceDepth_read (c := ';') (by decide) (by decide)
  have sameParens := before.parenDepth_read (c := ';') (by decide) (by decide)
  refine before.extended (afterStatement layout.depth (skipBlank rest)) (by decide)
    (takeWhile_append_skipBlank rest).symm (before.spaces_ahead spaced) ?_ ?_ ?_ ?_ ?_
    fun _ opens => absurd opens (by decide)
  · rw [written_endStatement, before.shown_eq (by decide) (fun _ => by decide)]
  · rw [skipBlank_skipBlank, fixedGap_statement (outsideToo.cons (by decide))
      (sameParens.symm.trans flat), ← sameDepth]
    rfl
  · rw [depth_endStatement, sameDepth]
  · rw [parens_endStatement, sameParens]
  · exact fun _ => skipBlank_skipBlank rest

/-- Braces with nothing visible in between are copied without it. -/
theorem bracesCopied {after : List Char}
    (before : Arranged code layout older gap written ('\x7b' :: rest)) (outside : EndsOutside older)
    (spaced : Spaced code) (empty : skipBlank rest = '\x7d' :: after) :
    ∃ text, Arranged code ((layout.push '\x7b').push '\x7d')
      ('\x7d' :: ((rest.takeWhile isBlank).reverse ++ '\x7b' :: (gap ++ older))) [] text after := by
  have outsideToo : EndsOutside ('\x7b' :: (gap ++ older)) :=
    (before.endsOutside outside).cons (by decide)
  have isRest : rest = rest.takeWhile isBlank ++ '\x7d' :: after := by
    rw [← empty, takeWhile_append_skipBlank]
  have spaces : ∀ d ∈ (rest.takeWhile isBlank).reverse, d = ' ' := by
    simpa using before.spaces_ahead spaced
  have blanks := isBlank_of_spaces spaces
  have closes : closesEmpty
      ('\x7d' :: ((rest.takeWhile isBlank).reverse ++ '\x7b' :: (gap ++ older))) = true := by
    rw [closesEmpty, List.tail_cons, skipBlank_append blanks]
    rfl
  have opened : Laid code ('\x7b' :: (gap ++ older))
      ('\x7b' :: (separator older gap ('\x7b' :: rest) ++ written)) :=
    .next before.laid before.spaces (by decide) before.split
  have split : code = ((rest.takeWhile isBlank).reverse ++ '\x7b' :: (gap ++ older)).reverse ++
      '\x7d' :: after := by
    rw [before.split]
    nth_rewrite 1 [isRest]
    simp
  have closed := Laid.next opened spaces (show isBlank '\x7d' = false by decide) split
  have nothing : separator ('\x7b' :: (gap ++ older)) (rest.takeWhile isBlank).reverse
      ('\x7d' :: after) = [] := by
    simp [separator, outsideToo]
  rw [nothing, List.nil_append] at closed
  refine ⟨_, closed, ?_, List.forall_mem_nil _, ?_, ?_, ?_, ?_, ?_⟩
  · rw [split]
    simp
  · rw [fixedGap_emptyBraces closes, push, push, before.shown_eq (by decide) (fun _ => by decide)]
    rfl
  · change layout.depth = _
    have insideBraces : EndsOutside
        ((rest.takeWhile isBlank).reverse ++ '\x7b' :: (gap ++ older)) :=
      (endsOutside_append_blanks blanks).mpr outsideToo
    rw [braceDepth, depthOf_of_outside insideBraces, if_neg (by decide), if_pos rfl, ← braceDepth,
      braceDepth_append_blanks blanks, braceDepth,
      depthOf_of_outside (before.endsOutside outside), if_pos rfl,
      ← braceDepth, braceDepth_append_blanks before.blanks, before.depth, Nat.add_sub_cancel]
  · change layout.parens = _
    rw [parenDepth, depthOf_of_ne (by decide) (by decide), ← parenDepth,
      parenDepth_append_blanks blanks]
    exact before.parenDepth_read (by decide) (by decide)
  · intro passes
    exact absurd (fixedGap_emptyBraces closes) (fixedGap_ne_none_of_passesBlanks [] passes)
  · rintro - ⟨⟩

/-- Every step keeps the text arranged. -/
theorem step {after : List Char} (taken : Step layout c rest next after)
    (spaced : Spaced code)
    (faithful : Faithful layout (gap ++ older) (c :: rest))
    (before : Arranged code layout older gap written (c :: rest)) :
    ∃ passed older' gap' written', rest = passed ++ after ∧
      passed.reverse ++ c :: (gap ++ older) = gap' ++ older' ∧
      Arranged code next older' gap' written' after := by
  have outside_iff := before.outside_iff faithful
  have ahead := takeWhile_append_skipBlank rest
  cases taken with
  | @quoted quote _ _ inside =>
    have insideToo : ¬ EndsOutside older := by
      rw [← outside_iff, inside]
      exact Option.some_ne_none quote
    cases blank : isBlank c with
    | true =>
      obtain rfl : c = ' ' := spaced c (by rw [before.split]; simp) blank
      exact ⟨[], older, ' ' :: gap, _, rfl, rfl, before.spaceCopied (fixedGap_of_inside insideToo)
        (written_copyQuoted ..) (depth_copyQuoted ..) (parens_copyQuoted ..)⟩
    | false => exact ⟨[], _, [], _, rfl, rfl, before.quotedCopied insideToo blank⟩
  | opening outside isOpening =>
    have other : ∀ d, isQuote d = false → c ≠ d := by
      rintro d noQuote rfl
      cases noQuote.symm.trans isOpening
    have solid : isBlank c = false := by
      cases blank : isBlank c with
      | true => cases (Quotes.isQuote_eq_false_of_isBlank blank).symm.trans isOpening
      | false => rfl
    refine ⟨[], _, [], _, rfl, rfl, before.plainCopied solid ?_ rfl rfl ?_⟩
    · simp [other '\x7b' (by decide), other '\x7d' (by decide), other ';' (by decide)]
    · exact before.parenDepth_read (other '(' (by decide)) (other ')' (by decide))
  | openParen outside =>
    have outsideToo := before.endsOutside (outside_iff.mp outside)
    refine ⟨[], _, [], _, rfl, rfl, before.plainCopied (by decide) (by decide) rfl rfl ?_⟩
    rw [parenDepth, depthOf_of_outside outsideToo, if_pos rfl, ← parenDepth,
      parenDepth_append_blanks before.blanks, ← before.parens]
  | closeParen outside =>
    have outsideToo := before.endsOutside (outside_iff.mp outside)
    refine ⟨[], _, [], _, rfl, rfl, before.plainCopied (by decide) (by decide) rfl rfl ?_⟩
    rw [parenDepth, depthOf_of_outside outsideToo, if_neg (by decide), if_pos rfl, ← parenDepth,
      parenDepth_append_blanks before.blanks, ← before.parens]
  | emptyBraces outside empty =>
    obtain ⟨text, arranged⟩ := before.bracesCopied (outside_iff.mp outside) spaced empty
    refine ⟨rest.takeWhile isBlank ++ ['\x7d'], _, [], text, ?_, ?_, arranged⟩
    · rw [List.append_assoc, List.singleton_append, ← empty, ahead]
    · simp
  | openBrace outside filled =>
    exact ⟨[], _, [], _, rfl, rfl, before.braceOpened (outside_iff.mp outside) filled⟩
  | closeBrace outside =>
    exact ⟨_, _, _, _, ahead.symm, rfl, before.braceClosed (outside_iff.mp outside) spaced⟩
  | endStatement outside flat =>
    exact ⟨_, _, _, _, ahead.symm, rfl, before.statementEnded (outside_iff.mp outside) flat spaced⟩
  | innerSemicolon outside nested =>
    have sameParens := before.parenDepth_read (c := ';') (by decide) (by decide)
    exact ⟨[], _, [], _, rfl, rfl, before.copied (by decide) (fun _ => by decide) rfl
      (before.braceDepth_read (by decide) (by decide)) sameParens
      fun _ => fixedGap_nested (by rwa [← sameParens])⟩
  | leadingSpace outside lineBlank =>
    exact ⟨[], older, ' ' :: gap, _, rfl, rfl,
      before.spaceSkipped (before.lineIsBlank_iff.mp lineBlank)⟩
  | plain outside noQuote ordinary shown =>
    simp only [List.mem_cons, List.not_mem_nil, or_false, not_or] at ordinary
    cases blank : isBlank c with
    | true =>
      obtain rfl : c = ' ' := spaced c (by rw [before.split]; simp) blank
      have kept : fixedGap older (skipBlank rest) = none := by
        by_contra fixed
        simp [before.lineIsBlank_iff.mpr fixed] at shown
      exact ⟨[], older, ' ' :: gap, _, rfl, rfl, before.spaceCopied kept rfl rfl rfl⟩
    | false =>
      exact ⟨[], _, [], _, rfl, rfl, before.plainCopied blank (by simp [ordinary]) rfl rfl
        (before.parenDepth_read ordinary.1 ordinary.2.1)⟩

end Arranged

/-- A whole scan leaves the text arranged. -/
theorem arranged_run (spaced : Spaced code) :
    ∃ older gap written, code.reverse = gap ++ older ∧
      Arranged code (run {} code) older gap written [] := by
  have start : Arranged code {} [] [] [] code := by
    refine ⟨.start, rfl, List.forall_mem_nil _, by rw [fixedGap_nil]; rfl, rfl, rfl, ?_, ?_⟩
    · rintro ⟨-, ⟨closes, -⟩ | ⟨ends, -⟩⟩
      · cases closes
      · cases ends
    · rintro - ⟨⟩
  have kept := run_induction (motive := fun layout read rest => Faithful layout read rest ∧
    ∃ older gap written, read = gap ++ older ∧ Arranged code layout older gap written rest)
    (fun {layout next c read rest after} taken both => by
      obtain ⟨faithful, older, gap, written, rfl, before⟩ := both
      obtain ⟨passed, isRest, after_faithful⟩ := faithful.step taken
      obtain ⟨passedToo, older', gap', written', isRestToo, isRead, arranged⟩ :=
        before.step taken spaced faithful
      have same : passed = passedToo := List.append_cancel_right (isRest.symm.trans isRestToo)
      exact ⟨passed, isRest, after_faithful, older', gap', written', same ▸ isRead, arranged⟩)
    {} [] code ⟨⟨.start, by simp [endsBlank], rfl, rfl, rfl⟩, [], [], [], rfl, start⟩
  obtain ⟨-, older, gap, written, isRead, arranged⟩ := kept
  exact ⟨older, gap, written, by simpa using isRead, arranged⟩

end Layout

/-- What stands behind the last visible character: the start of a line after an open brace. -/
def lineLeftOpen (read : List Char) : List Char :=
  if EndsOutside read ∧ read.head? = some '\x7b' then ['\n'] else []

theorem lineLeftOpen_of_ne (other : c ≠ '\x7b') : lineLeftOpen (c :: read) = [] := by
  simp [lineLeftOpen, other]

theorem isBlank_lineLeftOpen : ∀ d ∈ lineLeftOpen read, isBlank d = true := by
  unfold lineLeftOpen
  split
  · exact fun d member => List.mem_singleton.mp member ▸ by decide
  · exact List.forall_mem_nil _

/-- Laid out text has the visible characters of the code with separators between them. -/
theorem exists_laid {code : String} (spaced : Spaced code.toList) :
    ∃ read gap written, code.toList.reverse = gap ++ read ∧ (∀ d ∈ gap, d = ' ') ∧
      Laid code.toList read written ∧
      (beautify code).toList.reverse = lineLeftOpen read ++ written := by
  obtain ⟨read, gap, written, isCode, arranged⟩ := Layout.arranged_run spaced
  refine ⟨read, gap, written, isCode, arranged.spaces, arranged.laid, ?_⟩
  have trimmed : (beautify code).toList.reverse =
      ((fixedGap read []).getD gap ++ written).dropWhile (· = ' ') := by
    simp only [beautify, Layout.trimEnd, String.toList_ofList, List.reverse_reverse]
    rw [arranged.shown]
    rfl
  rw [trimmed]
  cases fixed : fixedGap read [] with
  | none =>
    have closed : lineLeftOpen read = [] := by
      unfold lineLeftOpen
      split
      · next both =>
        obtain ⟨read', rfl⟩ := List.head?_eq_some_iff.mp both.2
        cases fixed.symm.trans (fixedGap_openBrace both.1)
      · rfl
    rw [closed]
    exact arranged.laid.dropSpaces arranged.spaces
  | some pad =>
    have stays : ([] ++ written).dropWhile (· = ' ') = written :=
      arranged.laid.dropSpaces (List.forall_mem_nil _)
    obtain ⟨rfl, rfl⟩ | ⟨outside, opens, rfl⟩ | ⟨outside, ⟨closes, filled⟩ | ⟨ends, flat⟩⟩ :=
      fixedGap_cases fixed
    · exact stays
    · rw [lineLeftOpen, if_pos ⟨outside, opens⟩]
      exact dropSpaces_lineStart ..
    · obtain ⟨read', rfl⟩ := List.head?_eq_some_iff.mp closes
      cases fixed.symm.trans (fixedGap_closeBrace outside filled)
      rw [lineLeftOpen_of_ne (by decide)]
      exact stays
    · obtain ⟨read', rfl⟩ := List.head?_eq_some_iff.mp ends
      cases fixed.symm.trans (fixedGap_statement outside flat)
      rw [lineLeftOpen_of_ne (by decide)]
      exact stays

end ScriptLint.Code
