import Mathlib.Data.List.DropRight
import ScriptLint.Proofs.Code.Brackets
import ScriptLint.Proofs.Code.Spacing

/-!
# What stands between visible characters

For code whose only blank is the space, the laid out text is told without the scan that writes it:
it has the visible characters of the code, and between each two of them a separator that is a
function of the code before, the blanks in between and the code ahead. Most separators are settled
by the code before them; in front of a closing brace they are not. Texts are held newest character
first, as the scan holds what it has written.
-/

namespace ScriptLint.Code

/-! ## Separators -/

/-- The text ends outside quotes. -/
def EndsOutside (read : List Char) : Prop :=
  (Quotes.scan read.reverse).pending = none

instance (read : List Char) : Decidable (EndsOutside read) :=
  inferInstanceAs (Decidable (_ = none))

/-- The only blank in the text is the space. -/
def Spaced (text : List Char) : Prop :=
  ∀ d ∈ text, isBlank d = true → d = ' '

instance (text : List Char) : Decidable (Spaced text) :=
  List.decidableBAll _ text

/-- A line break and the indentation of the new line. -/
def lineStart (depth : Nat) : List Char :=
  List.replicate (4 * depth) ' ' ++ ['\n']

/-- The last character closes braces with nothing visible in between. -/
def closesEmpty (read : List Char) : Bool :=
  (skipBlank read.tail).head? = some '\x7b'

/-- What is written behind a closing brace on account of the code ahead. -/
def afterBrace (depth : Nat) : List Char → List Char
  | [] => []
  | next :: ahead =>
    if next = ';' || next = ',' || next = ')' || next = ']' then []
    else if "else".toList.isPrefixOf (next :: ahead) then [' ']
    else lineStart depth

/-- What is written behind the end of a statement on account of the code ahead. -/
def afterStatement (depth : Nat) : List Char → List Char
  | [] => []
  | next :: _ => if next = '\x7d' then [] else lineStart depth

/-- What is written behind the code read up to a visible character, if that does not depend on the
blanks that follow in the code. -/
def fixedGap (read ahead : List Char) : Option (List Char) :=
  if EndsOutside read then
    if read.head? = none then some []
    else if read.head? = some '\x7b' then some (lineStart (braceDepth read.reverse))
    else if read.head? = some '\x7d' then
      if closesEmpty read then none else some (afterBrace (braceDepth read.reverse) ahead)
    else if read.head? = some ';' then
      if parenDepth read.reverse = 0 then some (afterStatement (braceDepth read.reverse) ahead)
      else none
    else none
  else none

/-- What stands between the code read up to a visible character and the visible code ahead, where
the code has the blanks `gap`. A closing brace starts a line, unless it is the first character or
follows its opening brace. -/
def separator (read gap ahead : List Char) : List Char :=
  if EndsOutside read ∧ ahead.head? = some '\x7d' then
    if read.head? = none ∨ read.head? = some '\x7b' then []
    else lineStart (braceDepth read.reverse - 1)
  else (fixedGap read ahead).getD gap

/-- The text that is written for the code read up to a visible character. -/
inductive Laid (code : List Char) : List Char → List Char → Prop where
  | start : Laid code [] []
  | next {read written gap ahead : List Char} {c : Char} (before : Laid code read written)
      (spaces : ∀ d ∈ gap, d = ' ') (solid : isBlank c = false)
      (split : code = (gap ++ read).reverse ++ c :: ahead) :
      Laid code (c :: (gap ++ read)) (c :: (separator read gap (c :: ahead) ++ written))

/-- The scan passes over the blanks that follow. -/
def PassesBlanks (read : List Char) : Prop :=
  EndsOutside read ∧ (read.head? = some '\x7d' ∧ closesEmpty read = false ∨
    read.head? = some ';' ∧ parenDepth read.reverse = 0)

variable {code read written gap older rest ahead : List Char} {c : Char}

theorem isBlank_of_spaces (spaces : ∀ d ∈ gap, d = ' ') : ∀ d ∈ gap, isBlank d = true := by
  intro d member
  rw [spaces d member]
  decide

theorem skipBlank_of_solid (solid : isBlank c = false) (rest : List Char) :
    skipBlank (c :: rest) = c :: rest := by
  simp [skipBlank, solid]

theorem skipBlank_skipBlank (rest : List Char) : skipBlank (skipBlank rest) = skipBlank rest :=
  List.dropWhile_idempotent ..

theorem skipBlank_append (blank : ∀ d ∈ gap, isBlank d = true) (rest : List Char) :
    skipBlank (gap ++ rest) = skipBlank rest :=
  List.dropWhile_append_of_pos blank

theorem endsOutside_append_blanks (blank : ∀ d ∈ gap, isBlank d = true) :
    EndsOutside (gap ++ older) ↔ EndsOutside older := by
  unfold EndsOutside
  constructor
  · intro outside
    rw [Quotes.scan_of_append_blanks blank outside, outside]
  · intro outside
    rw [Quotes.scan_append_blanks blank outside, outside]

theorem EndsOutside.cons (outside : EndsOutside older) (noQuote : isQuote c = false) :
    EndsOutside (c :: older) := by
  rw [EndsOutside, Quotes.scan_reverse_cons, Quotes.read]
  simp [show (Quotes.scan older.reverse).pending = none from outside, noQuote]

/-- Only a quote ends a quoted piece. -/
theorem isQuote_of_endsOutside (inside : ¬ EndsOutside older) (outside : EndsOutside (c :: older)) :
    isQuote c = true := by
  obtain ⟨⟨quote, piece⟩, known⟩ := Option.ne_none_iff_exists'.mp inside
  have isOpening := Quotes.isQuote_of_pending known
  rw [EndsOutside, Quotes.scan_reverse_cons, Quotes.read] at outside
  simp only [known] at outside
  split at outside
  · cases outside
  · split at outside
    · cases outside
    · split at outside
      · next same =>
        rw [same]
        exact isOpening
      · cases outside

theorem EndsOutside.of_cons (outside : EndsOutside (c :: older)) (noQuote : isQuote c = false) :
    EndsOutside older := by
  by_contra inside
  rw [isQuote_of_endsOutside inside outside] at noQuote
  cases noQuote

/-- After a character that is no brace and ends no statement the blanks of the code are kept. -/
theorem fixedGap_of_ordinary (brace : c ≠ '\x7b') (closing : c ≠ '\x7d') (statement : c ≠ ';') :
    fixedGap (c :: older) ahead = none := by
  simp [fixedGap, brace, closing, statement]

theorem fixedGap_of_inside (inside : ¬ EndsOutside older) : fixedGap older ahead = none := by
  simp [fixedGap, inside]

theorem fixedGap_nil : fixedGap [] ahead = some [] := by
  simp [fixedGap, EndsOutside, Quotes.scan]

theorem fixedGap_openBrace (outside : EndsOutside ('\x7b' :: older)) :
    fixedGap ('\x7b' :: older) ahead = some (lineStart (braceDepth ('\x7b' :: older).reverse)) := by
  simp [fixedGap, outside]

theorem fixedGap_closeBrace (outside : EndsOutside ('\x7d' :: older))
    (filled : closesEmpty ('\x7d' :: older) = false) :
    fixedGap ('\x7d' :: older) ahead =
      some (afterBrace (braceDepth ('\x7d' :: older).reverse) ahead) := by
  simp [fixedGap, outside, filled]

theorem fixedGap_emptyBraces (empty : closesEmpty ('\x7d' :: older) = true) :
    fixedGap ('\x7d' :: older) ahead = none := by
  simp [fixedGap, empty]

theorem fixedGap_statement (outside : EndsOutside (';' :: older))
    (flat : parenDepth (';' :: older).reverse = 0) :
    fixedGap (';' :: older) ahead =
      some (afterStatement (braceDepth (';' :: older).reverse) ahead) := by
  simp only [fixedGap, outside, flat]
  simp

theorem fixedGap_nested (nested : parenDepth (';' :: older).reverse ≠ 0) :
    fixedGap (';' :: older) ahead = none := by
  simp only [fixedGap, nested]
  simp

/-- Laid out text ends with the visible character that the code read ends with. -/
theorem Laid.head_eq (laid : Laid code read written) :
    read = [] ∧ written = [] ∨ ∃ c read' written', read = c :: read' ∧ written = c :: written' ∧
      isBlank c = false := by
  cases laid with
  | start => exact .inl ⟨rfl, rfl⟩
  | next _ _ solid _ => exact .inr ⟨_, _, _, rfl, rfl, solid⟩

theorem Laid.dropSpaces (laid : Laid code read written) (spaces : ∀ d ∈ gap, d = ' ') :
    (gap ++ written).dropWhile (· = ' ') = written := by
  rw [List.dropWhile_append_of_pos (by simpa using spaces)]
  obtain ⟨-, rfl⟩ | ⟨c, _, written', -, rfl, solid⟩ := laid.head_eq
  · rfl
  · have visible : c ≠ ' ' := (ne_of_isBlank (by decide) solid).symm
    simp [visible]

theorem dropSpaces_lineStart (depth : Nat) (written : List Char) :
    (lineStart depth ++ written).dropWhile (· = ' ') = '\n' :: written := by
  rw [lineStart, List.append_assoc, List.dropWhile_append_of_pos (by simp)]
  rfl

theorem takeWhile_lineStart (depth : Nat) (written : List Char) :
    (lineStart depth ++ written).takeWhile (· ≠ '\n') = List.replicate (4 * depth) ' ' := by
  rw [lineStart, List.append_assoc, List.takeWhile_append_of_pos (by simp)]
  simp

theorem fixedGap_cases {pad : List Char} (fixed : fixedGap older ahead = some pad) :
    older = [] ∧ pad = [] ∨
    (EndsOutside older ∧ older.head? = some '\x7b' ∧ pad = lineStart (braceDepth older.reverse)) ∨
    PassesBlanks older := by
  unfold fixedGap at fixed
  split at fixed
  · next outside =>
    split at fixed
    · next first =>
      exact .inl ⟨List.head?_eq_none_iff.mp first, (Option.some.inj fixed).symm⟩
    · split at fixed
      · next opens => exact .inr (.inl ⟨outside, opens, (Option.some.inj fixed).symm⟩)
      · split at fixed
        · next closes =>
          split at fixed
          · cases fixed
          · next filled => exact .inr (.inr ⟨outside, .inl ⟨closes, by simpa using filled⟩⟩)
        · split at fixed
          · next ends =>
            split at fixed
            · next flat => exact .inr (.inr ⟨outside, .inr ⟨ends, flat⟩⟩)
            · cases fixed
          · cases fixed
  · cases fixed

theorem fixedGap_ne_none_of_passesBlanks (ahead : List Char) (passes : PassesBlanks older) :
    fixedGap older ahead ≠ none := by
  obtain ⟨outside, ⟨closes, filled⟩ | ⟨ends, flat⟩⟩ := passes
  · obtain ⟨_, rfl⟩ := List.head?_eq_some_iff.mp closes
    rw [fixedGap_closeBrace outside filled]
    exact Option.some_ne_none _
  · obtain ⟨_, rfl⟩ := List.head?_eq_some_iff.mp ends
    rw [fixedGap_statement outside flat]
    exact Option.some_ne_none _

/-- What is written ahead of time is spaces or, outside quotes, the start of a line. -/
theorem padding_cases (older ahead : List Char) (spaces : ∀ d ∈ gap, d = ' ') :
    (∀ d ∈ (fixedGap older ahead).getD gap, d = ' ') ∨
      EndsOutside older ∧ older ≠ [] ∧
        (fixedGap older ahead).getD gap = lineStart (braceDepth older.reverse) := by
  have brace : ∀ depth, (∀ d ∈ afterBrace depth ahead, d = ' ') ∨
      afterBrace depth ahead = lineStart depth := by
    intro depth
    cases ahead with
    | nil => exact .inl (List.forall_mem_nil _)
    | cons next ahead =>
      simp only [afterBrace]
      split
      · exact .inl (List.forall_mem_nil _)
      · split
        · exact .inl fun d member => List.mem_singleton.mp member
        · exact .inr rfl
  have statement : ∀ depth, (∀ d ∈ afterStatement depth ahead, d = ' ') ∨
      afterStatement depth ahead = lineStart depth := by
    intro depth
    cases ahead with
    | nil => exact .inl (List.forall_mem_nil _)
    | cons next ahead =>
      simp only [afterStatement]
      split
      · exact .inl (List.forall_mem_nil _)
      · exact .inr rfl
  cases fixed : fixedGap older ahead with
  | none => exact .inl spaces
  | some pad =>
    obtain ⟨-, rfl⟩ | ⟨outside, opens, rfl⟩ | ⟨outside, ⟨closes, filled⟩ | ⟨ends, flat⟩⟩ :=
      fixedGap_cases fixed
    · exact .inl (List.forall_mem_nil _)
    · obtain ⟨_, rfl⟩ := List.head?_eq_some_iff.mp opens
      exact .inr ⟨outside, List.cons_ne_nil _ _, rfl⟩
    · obtain ⟨_, rfl⟩ := List.head?_eq_some_iff.mp closes
      rw [fixedGap_closeBrace outside filled] at fixed
      cases fixed
      exact (brace _).imp_right fun same => ⟨outside, List.cons_ne_nil _ _, same⟩
    · obtain ⟨_, rfl⟩ := List.head?_eq_some_iff.mp ends
      rw [fixedGap_statement outside flat] at fixed
      cases fixed
      exact (statement _).imp_right fun same => ⟨outside, List.cons_ne_nil _ _, same⟩

/-! ## Places in laid out text -/

/-- The depth that a line is indented for when it starts with `c` behind the code `before`. -/
def lineDepth (before : List Char) (c : Char) : Nat :=
  if c = '\x7d' then braceDepth before - 1 else braceDepth before

/-- A separator is spaces or, outside quotes, the start of a line for the character behind it. -/
theorem separator_cases (read ahead : List Char) (c : Char) (spaces : ∀ d ∈ gap, d = ' ') :
    (∀ d ∈ separator read gap (c :: ahead), d = ' ') ∨
      EndsOutside read ∧ read ≠ [] ∧
        separator read gap (c :: ahead) = lineStart (lineDepth read.reverse c) := by
  unfold separator
  split
  · next closes =>
    obtain ⟨outside, isBrace⟩ := closes
    obtain rfl : c = '\x7d' := Option.some.inj isBrace
    split
    · exact .inl (List.forall_mem_nil _)
    · next filled => exact .inr ⟨outside, fun empty => filled (.inl (by rw [empty]; rfl)), rfl⟩
  · next other =>
    refine (padding_cases read (c :: ahead) spaces).imp_right ?_
    rintro ⟨outside, started, starts⟩
    have noBrace : c ≠ '\x7d' := fun isBrace => other ⟨outside, by rw [isBrace]; rfl⟩
    rw [lineDepth, if_neg noBrace]
    exact ⟨outside, started, starts⟩

theorem isBlank_separator (read ahead : List Char) (c : Char) (spaces : ∀ d ∈ gap, d = ' ') :
    ∀ d ∈ separator read gap (c :: ahead), isBlank d = true := by
  obtain filled | ⟨-, -, starts⟩ := separator_cases read ahead c spaces
  · exact isBlank_of_spaces filled
  · rw [starts, lineStart]
    intro d member
    obtain inIndent | isBreak := List.mem_append.mp member
    · rw [List.eq_of_mem_replicate inIndent]
      decide
    · rw [List.mem_singleton.mp isBreak]
      decide

/-- A text with a visible character starts with blanks up to its first one. -/
theorem exists_first_visible {line : List Char} (shown : ∃ d ∈ line, isBlank d = false) :
    ∃ first c rest, line = first ++ c :: rest ∧ (∀ d ∈ first, isBlank d = true) ∧
      isBlank c = false := by
  induction line with
  | nil => simp at shown
  | cons d line ih =>
    cases blank : isBlank d with
    | false => exact ⟨[], d, line, rfl, List.forall_mem_nil _, blank⟩
    | true =>
      have later : ∃ d ∈ line, isBlank d = false := by simpa [blank] using shown
      obtain ⟨first, c, rest, rfl, firstBlank, solid⟩ := ih later
      exact ⟨d :: first, c, rest, rfl, List.forall_mem_cons.mpr ⟨blank, firstBlank⟩, solid⟩

/-- A character that the start of a text does not have stands behind it. -/
theorem split_behind {first text newer : List Char} (absent : c ∉ first)
    (here : first ++ text = newer ++ c :: older) :
    ∃ newer', newer = first ++ newer' ∧ text = newer' ++ c :: older := by
  obtain ⟨newer', isNewer, isText⟩ | ⟨inFirst, isFirst, isOlder⟩ :=
    List.append_eq_append_iff.mp here
  · exact ⟨newer', isNewer, isText⟩
  · cases inFirst with
    | nil => exact ⟨[], by simpa using isFirst.symm, by simpa using isOlder.symm⟩
    | cons d inFirst =>
      obtain ⟨rfl, -⟩ := List.cons.inj isOlder
      exact absurd (by rw [isFirst]; simp) absent

theorem not_mem_blanks (blank : ∀ d ∈ gap, isBlank d = true) (solid : isBlank c = false) :
    c ∉ gap := by
  intro member
  cases (blank c member).symm.trans solid

theorem Laid.visible_eq (laid : Laid code read written) : visible read = visible written := by
  induction laid with
  | start => rfl
  | next _ spaces solid _ ih =>
    rw [visible_cons_of_solid solid, visible_cons_of_solid solid, visible_append, visible_append,
      visible_of_blanks (isBlank_of_spaces spaces),
      visible_of_blanks (isBlank_separator _ _ _ spaces), ih]

/-- Before each visible character of laid out text stands its separator. -/
theorem Laid.before_written {newer : List Char} (laid : Laid code read written)
    (solid : isBlank c = false) (here : written = newer ++ c :: older) :
    ∃ gap before text ahead, (∀ d ∈ gap, d = ' ') ∧ Laid code before text ∧
      code = (gap ++ before).reverse ++ c :: ahead ∧
      older = separator before gap (c :: ahead) ++ text := by
  induction laid generalizing newer with
  | start => simp at here
  | @next read written gap ahead head before spaces _ split ih =>
    cases newer with
    | nil =>
      obtain ⟨rfl, rfl⟩ := List.cons.inj here
      exact ⟨gap, read, written, ahead, spaces, before, split, rfl⟩
    | cons _ newer =>
      obtain ⟨newer', -, isWritten⟩ :=
        split_behind (not_mem_blanks (isBlank_separator _ _ _ spaces) solid) (List.cons.inj here).2
      exact ih isWritten

/-- Text splits in one way into blanks and what starts with a visible character. -/
theorem blanks_append_inj {gap' : List Char} (blank : ∀ d ∈ gap, isBlank d = true)
    (blank' : ∀ d ∈ gap', isBlank d = true) (solid : ∀ last ∈ read.head?, isBlank last = false)
    (solid' : ∀ last ∈ older.head?, isBlank last = false) (same : gap ++ read = gap' ++ older) :
    gap = gap' ∧ read = older := by
  have skips : ∀ text : List Char, (∀ last ∈ text.head?, isBlank last = false) →
      skipBlank text = text := by
    intro text shown
    cases text with
    | nil => rfl
    | cons last text => exact skipBlank_of_solid (shown last rfl) text
  have sameRead : read = older := by
    rw [← skips read solid, ← skips older solid', ← skipBlank_append blank, same,
      skipBlank_append blank']
  subst sameRead
  exact ⟨List.append_cancel_right same, rfl⟩

theorem Laid.solid (laid : Laid code read written) : ∀ last ∈ read.head?, isBlank last = false := by
  obtain ⟨rfl, -⟩ | ⟨last, _, _, rfl, -, solid⟩ := laid.head_eq
  · rintro _ ⟨⟩
  · rintro _ ⟨⟩
    exact solid

theorem Laid.exists_last (laid : Laid code (c :: older) written) :
    ∃ text, written = c :: text ∧ visible text = visible older := by
  obtain ⟨nothing, -⟩ | ⟨_, _, text, isRead, rfl, solid⟩ := laid.head_eq
  · cases nothing
  · obtain ⟨rfl, rfl⟩ := List.cons.inj isRead
    have sameVisible := laid.visible_eq
    rw [visible_cons_of_solid solid, visible_cons_of_solid solid] at sameVisible
    exact ⟨text, rfl, (List.cons.inj sameVisible).2.symm⟩

/-- Between two visible characters of the code that only blanks keep apart stands the separator. -/
theorem Laid.between_read {newer : List Char} {last : Char} (laid : Laid code read written)
    (spaces : ∀ d ∈ gap, d = ' ') (solid : isBlank c = false) (solidLast : isBlank last = false)
    (here : read = newer ++ c :: (gap ++ last :: older)) :
    ∃ newer' text ahead, written = newer' ++ c :: (separator (last :: older) gap (c :: ahead) ++
      last :: text) ∧ visible text = visible older := by
  induction laid generalizing newer with
  | start => simp at here
  | @next read written gap' ahead head before spaces' _ split ih =>
    have blank' := isBlank_of_spaces spaces'
    cases newer with
    | nil =>
      obtain ⟨rfl, sameRead⟩ := List.cons.inj here
      obtain ⟨rfl, rfl⟩ := blanks_append_inj blank' (isBlank_of_spaces spaces) before.solid
        (by rintro _ ⟨⟩; exact solidLast) sameRead
      obtain ⟨text, rfl, sameVisible⟩ := before.exists_last
      exact ⟨[], text, ahead, rfl, sameVisible⟩
    | cons _ newer =>
      obtain ⟨newer', -, isRead⟩ :=
        split_behind (not_mem_blanks blank' solid) (List.cons.inj here).2
      obtain ⟨newer'', text, ahead', rfl, sameVisible⟩ := ih isRead
      exact ⟨head :: (separator read gap' (head :: ahead) ++ newer''), text, ahead', by simp,
        sameVisible⟩

end ScriptLint.Code
