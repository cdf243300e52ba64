import ScriptLint.Proofs.Code.Arrangement

/-!
# Indentation follows the open braces

Every line of laid out code that shows something starts with four spaces for each brace that is open
in the code before its first visible character, one brace less if that character closes one. A line
that shows nothing is the last one: behind an open brace, or the only line of code without visible
characters.
-/

namespace ScriptLint.Code

/-- One line of a text, between what stands before and after it. -/
structure IsLine (text before line after : List Char) : Prop where
  split : text = before ++ line ++ after
  unbroken : '\n' ∉ line
  starts : before = [] ∨ before.getLast? = some '\n'
  ends : after = [] ∨ after.head? = some '\n'

variable {code read written older text before line after newer : List Char} {c : Char}

/-- A line, newest character first. -/
theorem IsLine.reverse_eq (isLine : IsLine text before line after) :
    text.reverse = after.reverse ++ (line.reverse ++ before.reverse) := by
  rw [isLine.split, List.reverse_append, List.reverse_append]

/-- Going back from inside a line, the line break before it is the first one. -/
theorem IsLine.takeWhile_reverse (isLine : IsLine text before line after) (first : List Char)
    (within : ∀ d ∈ first, d ∈ line) :
    (first.reverse ++ before.reverse).takeWhile (· ≠ '\n') = first.reverse := by
  have unbroken : ∀ d ∈ first.reverse, decide (d ≠ '\n') = true := by
    intro d member
    have inLine := within d (List.mem_reverse.mp member)
    exact decide_eq_true fun isBreak => isLine.unbroken (isBreak ▸ inLine)
  have stops : before.reverse.takeWhile (· ≠ '\n') = [] := by
    obtain rfl | broken := isLine.starts
    · rfl
    · rw [← List.head?_reverse] at broken
      obtain ⟨older, isBefore⟩ := List.head?_eq_some_iff.mp broken
      rw [isBefore]
      rfl
  rw [List.takeWhile_append_of_pos unbroken, stops, List.append_nil]

/-- Behind a line that shows nothing stands no visible character. -/
theorem IsLine.not_visible_behind (isLine : IsLine text before line after) {last : Char}
    (blankLine : ∀ d ∈ line, isBlank d = true) (solid : isBlank last = false) (older : List Char) :
    line.reverse ++ before.reverse ≠ last :: older := by
  intro behind
  cases isReverse : line.reverse with
  | nil =>
    rw [isReverse, List.nil_append] at behind
    obtain rfl | broken := isLine.starts
    · cases behind
    · rw [← List.head?_reverse, behind] at broken
      obtain rfl : last = '\n' := Option.some.inj broken
      cases solid
  | cons d line' =>
    rw [isReverse] at behind
    obtain ⟨rfl, -⟩ := List.cons.inj behind
    have inLine : d ∈ line := List.mem_reverse.mp (isReverse ▸ List.mem_cons_self)
    cases (blankLine d inLine).symm.trans solid

/-- The first separator is empty. -/
theorem separator_nil (gap ahead : List Char) : separator [] gap ahead = [] := by
  rw [separator, fixedGap_nil]
  simp

/-- Before a character that is the first visible one of its line stands the indentation for it. -/
theorem separator_of_first {gap ahead : List Char} (laid : Laid code read written)
    (spaces : ∀ d ∈ gap, d = ' ')
    (first : ∀ d ∈ (separator read gap (c :: ahead) ++ written).takeWhile (· ≠ '\n'),
      isBlank d = true) :
    EndsOutside read ∧ (separator read gap (c :: ahead) ++ written).takeWhile (· ≠ '\n') =
      List.replicate (4 * lineDepth read.reverse c) ' ' := by
  obtain filled | ⟨outside, -, starts⟩ := separator_cases read ahead c spaces
  · obtain ⟨rfl, rfl⟩ | ⟨last, read, written, rfl, rfl, solid⟩ := laid.head_eq
    · rw [separator_nil, lineDepth]
      exact ⟨rfl, by split <;> rfl⟩
    · -- The last character written stands on the same line.
      have notBreak : last ≠ '\n' := (ne_of_isBlank (by decide) solid).symm
      have sameLine : last ∈ (separator (last :: read) gap (c :: ahead) ++
          last :: written).takeWhile (· ≠ '\n') := by
        rw [List.takeWhile_append_of_pos (fun d member => by rw [filled d member]; rfl)]
        simp [notBreak]
      rw [first last sameLine] at solid
      cases solid
  · rw [starts]
    exact ⟨outside, takeWhile_lineStart ..⟩

/-- The first visible character of a line, found in the code. -/
theorem Laid.indentation (laid : Laid code read written) (solid : isBlank c = false)
    (here : written = newer ++ c :: older)
    (first : ∀ d ∈ older.takeWhile (· ≠ '\n'), isBlank d = true) :
    ∃ before ahead, code = before ++ c :: ahead ∧ (Quotes.scan before).pending = none ∧
      visible before = visible older.reverse ∧
      older.takeWhile (· ≠ '\n') = List.replicate (4 * lineDepth before c) ' ' := by
  obtain ⟨gap, before, text, ahead, spaces, laidBefore, isCode, rfl⟩ :=
    laid.before_written solid here
  have blankGap := isBlank_of_spaces spaces
  have blankSeparator := isBlank_separator before ahead c spaces
  have sameVisible : visible (gap ++ before).reverse =
      visible (separator before gap (c :: ahead) ++ text).reverse := by
    rw [visible_reverse, visible_reverse, visible_append, visible_append,
      visible_of_blanks blankGap, visible_of_blanks blankSeparator, laidBefore.visible_eq]
  have sameDepth : lineDepth (gap ++ before).reverse c = lineDepth before.reverse c := by
    rw [lineDepth, lineDepth, braceDepth_append_blanks blankGap]
  obtain ⟨outside, indented⟩ := separator_of_first laidBefore spaces first
  have outsideToo : EndsOutside (gap ++ before) := (endsOutside_append_blanks blankGap).mpr outside
  exact ⟨_, ahead, isCode, outsideToo, sameVisible, by rw [sameDepth, indented]⟩

/-- Every line break stands behind a visible character. -/
theorem Laid.visible_before_break (laid : Laid code read written)
    (here : written = newer ++ '\n' :: older) :
    ∃ last text, older = last :: text ∧ isBlank last = false := by
  induction laid generalizing newer with
  | start => simp at here
  | @next read written gap ahead c before spaces solid _ ih =>
    cases newer with
    | nil =>
      obtain ⟨rfl, -⟩ := List.cons.inj here
      cases solid
    | cons _ newer =>
      have here := (List.cons.inj here).2
      obtain filled | ⟨-, started, starts⟩ := separator_cases read ahead c spaces
      · have unbroken : '\n' ∉ separator read gap (c :: ahead) := fun member =>
          absurd (filled _ member) (by decide)
        obtain ⟨newer', -, isWritten⟩ := split_behind unbroken here
        exact ih isWritten
      · -- The line break is the one the separator brings, or an older one.
        rw [starts, lineStart, List.append_assoc] at here
        obtain ⟨newer', -, isWritten⟩ := split_behind (by simp) here
        cases newer' with
        | nil =>
          obtain ⟨-, rfl⟩ := List.cons.inj isWritten
          obtain ⟨rfl, -⟩ | ⟨last, _, text, -, rfl, shown⟩ := before.head_eq
          · exact absurd rfl started
          · exact ⟨last, text, rfl, shown⟩
        | cons _ newer' => exact ih (List.cons.inj isWritten).2

theorem Laid.visible_before_every_break (laid : Laid code read written)
    (here : lineLeftOpen read ++ written = newer ++ '\n' :: older) :
    ∃ last text, older = last :: text ∧ isBlank last = false := by
  unfold lineLeftOpen at here
  split at here
  · next opens =>
    cases newer with
    | nil =>
      obtain ⟨-, rfl⟩ := List.cons.inj here
      obtain ⟨rfl, -⟩ | ⟨last, _, text, -, rfl, shown⟩ := laid.head_eq
      · cases opens.2
      · exact ⟨last, text, rfl, shown⟩
    | cons _ newer => exact laid.visible_before_break (List.cons.inj here).2
  · exact laid.visible_before_break here

/-- A line that shows something starts with the indentation for its first visible character. -/
theorem Laid.shown_line (laid : Laid code read written)
    (isText : text.reverse = lineLeftOpen read ++ written)
    (isLine : IsLine text before line after) (shown : ∃ d ∈ line, isBlank d = false) :
    ∃ codeBefore c codeAfter rest, code = codeBefore ++ c :: codeAfter ∧
      isBlank c = false ∧ visible codeBefore = visible before ∧
      (Quotes.scan codeBefore).pending = none ∧
      line = List.replicate (4 * lineDepth codeBefore c) ' ' ++ c :: rest := by
  obtain ⟨first, c, rest, rfl, firstBlank, solid⟩ := exists_first_visible shown
  have here : lineLeftOpen read ++ written =
      (after.reverse ++ rest.reverse) ++ c :: (first.reverse ++ before.reverse) := by
    rw [← isText, isLine.reverse_eq]
    simp
  obtain ⟨newer, -, isWritten⟩ := split_behind (not_mem_blanks isBlank_lineLeftOpen solid) here
  have isIndent := isLine.takeWhile_reverse first (by simp +contextual)
  obtain ⟨codeBefore, codeAfter, split, outside, sameVisible, indented⟩ :=
    laid.indentation solid isWritten (by rw [isIndent]; simpa using firstBlank)
  refine ⟨codeBefore, c, codeAfter, rest, split, solid, ?_, outside, ?_⟩
  · rw [sameVisible, List.reverse_append, List.reverse_reverse, List.reverse_reverse,
      visible_append, visible_of_blanks firstBlank, List.append_nil]
  · rw [isIndent] at indented
    rw [← List.reverse_reverse first, indented, List.reverse_replicate]

/-- A line that shows nothing is the last one. -/
theorem Laid.blank_line (laid : Laid code read written)
    (isText : text.reverse = lineLeftOpen read ++ written)
    (isLine : IsLine text before line after) (blankLine : ∀ d ∈ line, isBlank d = true) :
    line = [] ∧ after = [] ∧
      (before = [] ∧ read = [] ∨ EndsOutside read ∧ read.head? = some '\x7b') := by
  rw [isLine.reverse_eq] at isText
  obtain rfl : after = [] := by
    refine isLine.ends.resolve_right fun broken => ?_
    obtain ⟨rest, rfl⟩ := List.head?_eq_some_iff.mp broken
    have here : lineLeftOpen read ++ written =
        rest.reverse ++ '\n' :: (line.reverse ++ before.reverse) := by
      rw [← isText]
      simp
    obtain ⟨last, older, behind, solid⟩ := laid.visible_before_every_break here
    exact isLine.not_visible_behind blankLine solid older behind
  rw [List.reverse_nil, List.nil_append] at isText
  by_cases opens : EndsOutside read ∧ read.head? = some '\x7b'
  · rw [lineLeftOpen, if_pos opens] at isText
    refine ⟨?_, rfl, .inr opens⟩
    cases isReverse : line.reverse with
    | nil => simpa using isReverse
    | cons d line' =>
      rw [isReverse] at isText
      obtain ⟨rfl, -⟩ := List.cons.inj isText
      exact absurd (List.mem_reverse.mp (isReverse ▸ List.mem_cons_self)) isLine.unbroken
  · rw [lineLeftOpen, if_neg opens, List.nil_append] at isText
    obtain ⟨rfl, rfl⟩ | ⟨last, _, older, -, rfl, solid⟩ := laid.head_eq
    · have both : line = [] ∧ before = [] := by simpa using isText
      exact ⟨both.1, rfl, .inl ⟨both.2, rfl⟩⟩
    · exact absurd isText (isLine.not_visible_behind blankLine solid older)

/-- The lines of laid out code. A line that shows something is indented for the braces that are open
in the code before its first visible character; a line that shows nothing is the last one, behind an
open brace, or the only line of code that shows nothing. -/
theorem indentation_eq_braceDepth {code : String} {before line after : List Char}
    (spaced : Spaced code.toList)
    (isLine : IsLine (beautify code).toList before line after) :
    ((∃ d ∈ line, isBlank d = false) →
      ∃ codeBefore c codeAfter rest, code.toList = codeBefore ++ c :: codeAfter ∧
        isBlank c = false ∧ visible codeBefore = visible before ∧
        (Quotes.scan codeBefore).pending = none ∧
        line = List.replicate (4 * lineDepth codeBefore c) ' ' ++ c :: rest) ∧
    ((∀ d ∈ line, isBlank d = true) →
      line = [] ∧ after = [] ∧
        (before = [] ∧ (∀ d ∈ code.toList, d = ' ') ∨
          ∃ codeBefore gap, code.toList = codeBefore ++ '\x7b' :: gap ∧ (∀ d ∈ gap, d = ' ') ∧
            (Quotes.scan codeBefore).pending = none)) := by
  obtain ⟨read, gap, written, isCode, spaces, laid, isText⟩ := exists_laid spaced
  refine ⟨laid.shown_line isText isLine, fun blankLine => ?_⟩
  obtain ⟨isEmpty, isLast, ⟨isOnly, rfl⟩ | ⟨outside, opens⟩⟩ :=
    laid.blank_line isText isLine blankLine
  · refine ⟨isEmpty, isLast, .inl ⟨isOnly, fun d member => ?_⟩⟩
    rw [List.append_nil] at isCode
    exact spaces d (isCode ▸ List.mem_reverse.mpr member)
  · obtain ⟨older, rfl⟩ := List.head?_eq_some_iff.mp opens
    refine ⟨isEmpty, isLast, .inr ⟨older.reverse, gap.reverse, ?_, by simpa using spaces, ?_⟩⟩
    · rw [← List.reverse_reverse code.toList, isCode]
      simp
    · exact outside.of_cons (by decide)

theorem indentation_eq_braceDepth_quotedBrace :
    IsLine (beautify "f \x7b 'a \x7b b'; \x7d \x7b").toList
      "f \x7b\n".toList "    'a \x7b b';".toList "\n\x7d\n\x7b\n".toList ∧
    ∃ codeBefore c codeAfter rest,
      "f \x7b 'a \x7b b'; \x7d \x7b".toList = codeBefore ++ c :: codeAfter ∧ isBlank c = false ∧
      visible codeBefore = visible "f \x7b\n".toList ∧ (Quotes.scan codeBefore).pending = none ∧
      "    'a \x7b b';".toList =
        List.replicate (4 * lineDepth codeBefore c) ' ' ++ c :: rest := by
  have isLine : IsLine (beautify "f \x7b 'a \x7b b'; \x7d \x7b").toList
      "f \x7b\n".toList "    'a \x7b b';".toList "\n\x7d\n\x7b\n".toList :=
    ⟨by decide +kernel, by decide, .inr (by decide), .inr (by decide)⟩
  exact ⟨isLine, (indentation_eq_braceDepth (by decide) isLine).1 ⟨'\x27', by decide, rfl⟩⟩

end ScriptLint.Code
