import Mathlib.Data.List.TakeWhile
import ScriptLint.Proofs.Code.Quotes
import ScriptLint.Proofs.Code.Steps

/-!
# Layout only moves blanks

The layout scan looks ahead in the code and takes back what it has written. Both are covered by one
relation between the code that has been read and the text that has been written: the same visible
characters in the same order, with blanks dropped and added between them, where a gap may close
only next to a closing brace. The scan keeps this relation at every step, together with the quoted
pieces; texts are held newest character first, as the scan holds what it has written.
-/

namespace ScriptLint.Code

/-- The visible characters of a text. -/
def visible (text : List Char) : List Char :=
  text.filter fun c => !isBlank c

/-- Whether the newest character of a text is a blank. -/
def endsBlank (text : List Char) : Bool :=
  text.head?.any isBlank

/-- A gap between what is written and what comes next may close: one side of it is a closing brace,
or is missing. -/
def Closable (written next : List Char) : Prop :=
  (∀ last ∈ (visible written).head?, last = '\x7d') ∨ (∀ first ∈ next.head?, first = '\x7d')

/-- How a written text relates to the code it was made from, newest characters first. -/
inductive Respaced : List Char → List Char → Prop where
  | start : Respaced [] []
  | dropped {c : Char} {read written : List Char} (blank : isBlank c = true)
      (before : Respaced read written) : Respaced (c :: read) written
  | added {c : Char} {read written : List Char} (blank : isBlank c = true)
      (before : Respaced read written) : Respaced read (c :: written)
  | kept {c : Char} {read written : List Char} (solid : isBlank c = false)
      (gap : endsBlank read = true → endsBlank written = true ∨ Closable written [c])
      (before : Respaced read written) : Respaced (c :: read) (c :: written)

theorem visible_cons_of_blank {c : Char} (blank : isBlank c = true) (text : List Char) :
    visible (c :: text) = visible text := by
  simp [visible, blank]

theorem visible_cons_of_solid {c : Char} (solid : isBlank c = false) (text : List Char) :
    visible (c :: text) = c :: visible text := by
  simp [visible, solid]

theorem visible_append (first second : List Char) :
    visible (first ++ second) = visible first ++ visible second :=
  List.filter_append ..

theorem visible_reverse (text : List Char) : visible text.reverse = (visible text).reverse :=
  List.filter_reverse ..

theorem visible_of_blanks {gap : List Char} (blank : ∀ c ∈ gap, isBlank c = true) :
    visible gap = [] := by
  simpa [visible] using blank

theorem endsBlank_append {gap : List Char} (apart : gap ≠ [])
    (blank : ∀ c ∈ gap, isBlank c = true) (older : List Char) :
    endsBlank (gap ++ older) = true := by
  obtain ⟨c, rest, rfl⟩ := List.exists_cons_of_ne_nil apart
  simpa [endsBlank] using blank c (by simp)

namespace Respaced

variable {read written gap : List Char}

theorem visible_eq (related : Respaced read written) : visible read = visible written := by
  induction related with
  | start => rfl
  | dropped blank _ ih => rw [visible_cons_of_blank blank, ih]
  | added blank _ ih => rw [visible_cons_of_blank blank, ih]
  | kept solid _ _ ih => rw [visible_cons_of_solid solid, visible_cons_of_solid solid, ih]

theorem dropBlanks (blank : ∀ c ∈ gap, isBlank c = true) (related : Respaced read written) :
    Respaced (gap ++ read) written := by
  induction gap with
  | nil => exact related
  | cons c gap ih =>
    exact .dropped (blank c (by simp)) (ih fun other member => blank other (by simp [member]))

theorem addBlanks (blank : ∀ c ∈ gap, isBlank c = true) (related : Respaced read written) :
    Respaced read (gap ++ written) := by
  induction gap with
  | nil => exact related
  | cons c gap ih =>
    exact .added (blank c (by simp)) (ih fun other member => blank other (by simp [member]))

/-- A blank that was written can be taken back. -/
theorem takeBack {c : Char} (blank : isBlank c = true) (related : Respaced read (c :: written)) :
    Respaced read written := by
  generalize same : c :: written = longer at related
  induction related with
  | start => cases same
  | dropped blank' _ ih => exact .dropped blank' (ih same)
  | added _ before _ =>
    cases same
    exact before
  | kept solid _ _ _ =>
    cases same
    simp [blank] at solid

theorem takeBackBlanks (blank : ∀ c ∈ gap, isBlank c = true)
    (related : Respaced read (gap ++ written)) : Respaced read written := by
  induction gap with
  | nil => exact related
  | cons c gap ih =>
    exact ih (fun other member => blank other (by simp [member]))
      (takeBack (blank c (by simp)) related)

/-- Two characters that were apart and are not any more have a closing brace among them. -/
theorem brace_of_joined {newer older newer' older' : List Char} {first second : Char}
    (related : Respaced (newer ++ second :: (gap ++ first :: older))
      (newer' ++ second :: first :: older'))
    (apart : gap ≠ []) (blank : ∀ c ∈ gap, isBlank c = true) (solidFirst : isBlank first = false)
    (solidSecond : isBlank second = false)
    (sameRank : (visible newer').length = (visible newer).length) :
    first = '\x7d' ∨ second = '\x7d' := by
  generalize isRead : newer ++ second :: (gap ++ first :: older) = read at related
  generalize isWritten : newer' ++ second :: first :: older' = written at related
  induction related generalizing newer newer' with
  | start => simp at isRead
  | @dropped c read written blankHead before ih =>
    cases newer with
    | nil => simp_all
    | cons d newer =>
      rw [List.cons_append, List.cons.injEq] at isRead
      obtain ⟨rfl, isRead⟩ := isRead
      rw [visible_cons_of_blank blankHead] at sameRank
      exact ih sameRank isRead isWritten
  | @added c read written blankHead before ih =>
    cases newer' with
    | nil => simp_all
    | cons d newer' =>
      rw [List.cons_append, List.cons.injEq] at isWritten
      obtain ⟨rfl, isWritten⟩ := isWritten
      rw [visible_cons_of_blank blankHead] at sameRank
      exact ih sameRank isRead isWritten
  | @kept c read written solid gapKept before ih =>
    cases newer with
    | nil =>
      cases newer' with
      | nil =>
        rw [List.nil_append, List.cons.injEq] at isRead isWritten
        obtain ⟨rfl, rfl⟩ := isRead
        obtain ⟨-, rfl⟩ := isWritten
        have closable : Closable (first :: older') [second] := by
          simpa [endsBlank, solidFirst] using gapKept (endsBlank_append apart blank _)
        simpa [Closable, visible_cons_of_solid solidFirst] using closable
      | cons d newer' =>
        rw [List.cons_append, List.cons.injEq] at isWritten
        obtain ⟨rfl, -⟩ := isWritten
        rw [visible_cons_of_solid solid] at sameRank
        simp [visible] at sameRank
    | cons d newer =>
      rw [List.cons_append, List.cons.injEq] at isRead
      obtain ⟨rfl, isRead⟩ := isRead
      rw [visible_cons_of_solid solid] at sameRank
      cases newer' with
      | nil => simp [visible] at sameRank
      | cons e newer' =>
        rw [List.cons_append, List.cons.injEq] at isWritten
        obtain ⟨rfl, isWritten⟩ := isWritten
        rw [visible_cons_of_solid solid] at sameRank
        exact ih (by simpa using sameRank) isRead isWritten

end Respaced

namespace Layout

theorem isBlank_of_mem_trailing {written : List Char} {c : Char}
    (member : c ∈ written.takeWhile (· = ' ')) : isBlank c = true := by
  obtain rfl : c = ' ' := by simpa using List.mem_takeWhile_imp member
  decide

theorem isBlank_of_mem_indentation {depth : Nat} {c : Char}
    (member : c ∈ List.replicate (4 * depth) ' ' ++ ['\n']) : isBlank c = true := by
  simp only [List.mem_append, List.mem_replicate, List.mem_singleton] at member
  obtain ⟨-, rfl⟩ | rfl := member <;> decide

theorem written_newline (layout : Layout) :
    layout.newline.written = (List.replicate (4 * layout.depth) ' ' ++ ['\n']) ++
      layout.written.dropWhile (· = ' ') := by
  simp [newline, indent, push, trimEnd]

theorem endsBlank_newline (layout : Layout) : endsBlank layout.newline.written = true := by
  rw [written_newline]
  exact endsBlank_append (by simp) (fun _ => isBlank_of_mem_indentation) _

/-- On a blank line there is a blank before the next character, unless nothing is written yet. -/
theorem endsBlank_of_lineIsBlank (layout : Layout) (lineBlank : layout.lineIsBlank = true) :
    endsBlank layout.written = true ∨ layout.written = [] := by
  unfold lineIsBlank at lineBlank
  cases known : layout.written with
  | nil => exact .inr rfl
  | cons c older =>
    left
    by_cases breaks : c = '\n'
    · subst breaks
      rfl
    · simp_all [endsBlank]

theorem closable_brace (written rest : List Char) : Closable written ('\x7d' :: rest) := by
  simp [Closable]

/-- What the scan keeps between the code it has read, newest character first, and the code it has
still to read. -/
structure Faithful (layout : Layout) (read rest : List Char) : Prop where
  respaced : Respaced read layout.written
  gap : endsBlank read = true → endsBlank layout.written = true ∨ Closable layout.written rest
  quotes : Quotes.scan layout.written.reverse = Quotes.scan read.reverse
  quote : layout.quote = (Quotes.scan read.reverse).pending.map Prod.fst
  escaped : layout.escaped = (Quotes.scan read.reverse).escaped

namespace Faithful

variable {layout next : Layout} {read rest gap gap' older : List Char} {c : Char}

theorem pending (before : Faithful layout read rest) (outside : layout.quote = none) :
    (Quotes.scan read.reverse).pending = none := by
  simpa [outside] using before.quote.symm

/-- Copying a character keeps the layout faithful, inside quotes and outside. -/
theorem copied (before : Faithful layout read (c :: rest))
    (written : next.written = c :: layout.written)
    (quote : next.quote = ((Quotes.scan read.reverse).read c).pending.map Prod.fst)
    (escaped : next.escaped = ((Quotes.scan read.reverse).read c).escaped) :
    Faithful next (c :: read) rest := by
  have closes : Closable layout.written (c :: rest) → Closable layout.written [c] := by
    simp [Closable]
  refine ⟨?_, ?_, ?_, ?_, ?_⟩
  · rw [written]
    cases blank : isBlank c with
    | true => exact .dropped blank (.added blank before.respaced)
    | false => exact .kept blank (fun ends => (before.gap ends).imp_right closes) before.respaced
  · intro ends
    left
    simpa [written, endsBlank] using ends
  · rw [written, Quotes.scan_reverse_cons, Quotes.scan_reverse_cons, before.quotes]
  · rw [Quotes.scan_reverse_cons, quote]
  · rw [Quotes.scan_reverse_cons, escaped]

/-- Outside quotes, other blanks may take the place of those written last. -/
theorem relaid (before : Faithful layout read rest) (outside : layout.quote = none)
    (old : layout.written = gap ++ older) (new : next.written = gap' ++ older)
    (blank : ∀ c ∈ gap, isBlank c = true) (blank' : ∀ c ∈ gap', isBlank c = true)
    (kept : endsBlank next.written = true ∨ Closable next.written rest)
    (quote : next.quote = layout.quote) (escaped : next.escaped = layout.escaped) :
    Faithful next read rest := by
  have pending := before.pending outside
  have related : Respaced read (gap ++ older) := old ▸ before.respaced
  have quotes : Quotes.scan (gap ++ older).reverse = Quotes.scan read.reverse :=
    old ▸ before.quotes
  have taken := Quotes.scan_of_append_blanks blank (by rw [quotes, pending])
  refine ⟨?_, fun _ => kept, ?_, quote.trans before.quote, escaped.trans before.escaped⟩
  · rw [new]
    exact (related.takeBackBlanks blank).addBlanks blank'
  · rw [new, Quotes.scan_append_blanks blank' (by rw [taken, quotes, pending]), taken, quotes]

/-- Outside quotes, blanks of the code may be passed over where the gap is kept or may close. -/
theorem skipped (before : Faithful layout read (gap ++ rest)) (outside : layout.quote = none)
    (blank : ∀ c ∈ gap, isBlank c = true)
    (kept : endsBlank layout.written = true ∨ Closable layout.written rest) :
    Faithful layout (gap.reverse ++ read) rest := by
  have blankReversed : ∀ c ∈ gap.reverse, isBlank c = true := by simpa using blank
  have same := Quotes.scan_append_blanks blankReversed (before.pending outside)
  refine ⟨before.respaced.dropBlanks blankReversed, fun _ => kept, ?_, ?_, ?_⟩
  · rw [same, before.quotes]
  · rw [same, before.quote]
  · rw [same, before.escaped]

theorem trimmed (before : Faithful layout read rest) (outside : layout.quote = none)
    (closable : Closable layout.trimEnd.written rest) : Faithful layout.trimEnd read rest :=
  before.relaid outside List.takeWhile_append_dropWhile.symm (List.nil_append _).symm
    (fun _ => isBlank_of_mem_trailing) (by simp) (.inr closable) rfl rfl

theorem broken (before : Faithful layout read rest) (outside : layout.quote = none) :
    Faithful layout.newline read rest := by
  exact before.relaid outside List.takeWhile_append_dropWhile.symm layout.written_newline
    (fun _ => isBlank_of_mem_trailing) (fun _ => isBlank_of_mem_indentation)
    (.inl layout.endsBlank_newline) rfl rfl

theorem reindented (before : Faithful layout read rest) (outside : layout.quote = none)
    (lineBlank : layout.lineIsBlank = true) (closable : Closable layout.reindent.written rest) :
    Faithful layout.reindent read rest := by
  refine before.relaid outside List.takeWhile_append_dropWhile.symm rfl ?_ (fun c member => ?_)
    (.inr closable) rfl rfl
  · simpa [lineIsBlank] using lineBlank
  · exact isBlank_of_mem_indentation (List.mem_append_left _ member)

/-- Outside quotes, a character that opens none is copied as it stands. -/
theorem copiedOutside (before : Faithful layout read (c :: rest)) (outside : layout.quote = none)
    (plain : isQuote c = false) (written : next.written = c :: layout.written)
    (quote : next.quote = layout.quote) (escaped : next.escaped = layout.escaped) :
    Faithful next (c :: read) rest := by
  have unchanged : (Quotes.scan read.reverse).read c = Quotes.scan read.reverse := by
    simp [Quotes.read, before.pending outside, plain]
  refine before.copied written ?_ ?_
  · rw [unchanged, quote, before.quote]
  · rw [unchanged, escaped, before.escaped]

theorem opened (before : Faithful layout read (c :: rest)) (outside : layout.quote = none)
    (isOpening : isQuote c = true) :
    Faithful { layout.push c with quote := some c } (c :: read) rest := by
  refine before.copied rfl ?_ ?_
  · simp [Quotes.read, before.pending outside, isOpening]
  · simp [Quotes.read, before.pending outside, isOpening, push, before.escaped]

theorem copiedQuoted {quote : Char} (before : Faithful layout read (c :: rest))
    (inside : layout.quote = some quote) :
    Faithful (layout.copyQuoted quote c) (c :: read) rest := by
  obtain ⟨piece, pending, rfl⟩ := Option.map_eq_some_iff.mp (before.quote.symm.trans inside)
  refine before.copied ?_ ?_ ?_
  all_goals simp only [copyQuoted, push, Quotes.read, pending, before.escaped]
  all_goals repeat' split
  all_goals simp_all

/-- Outside quotes, the blanks ahead may be passed over where the gap is kept or may close. -/
theorem skippedAhead (before : Faithful layout read rest) (outside : layout.quote = none)
    (kept : endsBlank layout.written = true ∨ Closable layout.written (skipBlank rest)) :
    Faithful layout ((rest.takeWhile isBlank).reverse ++ read) (skipBlank rest) := by
  rw [← takeWhile_append_skipBlank rest] at before
  exact before.skipped outside (fun _ => List.mem_takeWhile_imp) kept

theorem braceOpened (before : Faithful layout read ('\x7b' :: rest))
    (outside : layout.quote = none) : Faithful layout.openBrace ('\x7b' :: read) rest :=
  (before.copiedOutside outside (by decide) rfl rfl rfl :
    Faithful { layout.push '\x7b' with depth := layout.depth + 1 } _ _).broken outside

theorem braceClosed (before : Faithful layout read ('\x7d' :: rest))
    (outside : layout.quote = none) :
    Faithful (layout.closeBrace (skipBlank rest))
      ((rest.takeWhile isBlank).reverse ++ '\x7d' :: read) (skipBlank rest) := by
  let shallow : Layout := { layout with depth := layout.depth - 1 }
  have dedented : Faithful shallow read ('\x7d' :: rest) :=
    ⟨before.respaced, before.gap, before.quotes, before.quote, before.escaped⟩
  have trimmed := dedented.trimmed outside (closable_brace _ _)
  -- The brace gets a line of its own, whether one is there already or not.
  have placed : Faithful
      (if shallow.trimEnd.lineIsBlank then shallow.trimEnd.reindent else shallow.trimEnd.newline)
      read ('\x7d' :: rest) := by
    split
    · next lineBlank => exact trimmed.reindented outside lineBlank (closable_brace _ _)
    · exact trimmed.broken outside
  generalize placedEq : (if shallow.trimEnd.lineIsBlank then shallow.trimEnd.reindent
    else shallow.trimEnd.newline) = line at placed
  have lineOutside : line.quote = none := by
    rw [← placedEq]
    split <;> exact outside
  have pushed : Faithful (line.push '\x7d') ('\x7d' :: read) rest :=
    placed.copiedOutside lineOutside (by decide) rfl rfl rfl
  have closable : ∀ next, Closable (line.push '\x7d').written next := by
    simp [push, Closable, visible_cons_of_solid (show isBlank '\x7d' = false by decide)]
  have spaced : Faithful ((line.push '\x7d').push ' ') ('\x7d' :: read) rest :=
    pushed.relaid lineOutside (List.nil_append _).symm (show _ = [' '] ++ _ from rfl) (by simp)
      (List.forall_mem_singleton.mpr (by decide)) (.inl rfl) rfl rfl
  have broken := pushed.broken lineOutside
  simp only [closeBrace]
  rw [placedEq]
  split
  · exact pushed.skippedAhead lineOutside (.inr (closable _))
  · split
    · exact pushed.skippedAhead lineOutside (.inr (closable _))
    · split
      · exact spaced.skippedAhead lineOutside (.inl rfl)
      · exact broken.skippedAhead lineOutside (.inl (endsBlank_newline _))

theorem statementEnded (before : Faithful layout read (';' :: rest))
    (outside : layout.quote = none) :
    Faithful (layout.endStatement (skipBlank rest))
      ((rest.takeWhile isBlank).reverse ++ ';' :: read) (skipBlank rest) := by
  have pushed : Faithful (layout.push ';') (';' :: read) rest :=
    before.copiedOutside outside (by decide) rfl rfl rfl
  have broken := pushed.broken outside
  unfold endStatement
  split
  · next ends => exact pushed.skippedAhead outside (by simp [ends, Closable])
  · next next' _ ends =>
    split
    · next closes => exact pushed.skippedAhead outside (by simp [ends, Closable, closes])
    · exact broken.skippedAhead outside (.inl (endsBlank_newline _))

theorem bracesCopied {after : List Char} (before : Faithful layout read ('\x7b' :: rest))
    (outside : layout.quote = none) (empty : skipBlank rest = '\x7d' :: after) :
    Faithful ((layout.push '\x7b').push '\x7d')
      ('\x7d' :: ((rest.takeWhile isBlank).reverse ++ '\x7b' :: read)) after := by
  have pushed : Faithful (layout.push '\x7b') ('\x7b' :: read) rest :=
    before.copiedOutside outside (by decide) rfl rfl rfl
  have ahead := pushed.skippedAhead outside (.inr (empty ▸ closable_brace _ _))
  rw [empty] at ahead
  exact ahead.copiedOutside outside (by decide) rfl rfl rfl

theorem spaceSkipped (before : Faithful layout read (' ' :: rest)) (outside : layout.quote = none)
    (lineBlank : layout.lineIsBlank = true) : Faithful layout (' ' :: read) rest := by
  have gapKept : endsBlank layout.written = true ∨ Closable layout.written rest :=
    (layout.endsBlank_of_lineIsBlank lineBlank).imp_right fun none => by
      simp [none, Closable, visible]
  exact (show Faithful layout read ([' '] ++ rest) from before).skipped outside
    (List.forall_mem_singleton.mpr (by decide)) gapKept

/-- Every step keeps the layout faithful to what it has read. -/
theorem step {after : List Char} (taken : Step layout c rest next after)
    (before : Faithful layout read (c :: rest)) :
    ∃ passed, rest = passed ++ after ∧ Faithful next (passed.reverse ++ c :: read) after := by
  have ahead := takeWhile_append_skipBlank rest
  cases taken with
  | quoted inside => exact ⟨[], rfl, before.copiedQuoted inside⟩
  | opening outside isOpening => exact ⟨[], rfl, before.opened outside isOpening⟩
  | openParen outside => exact ⟨[], rfl, before.copiedOutside outside (by decide) rfl rfl rfl⟩
  | closeParen outside => exact ⟨[], rfl, before.copiedOutside outside (by decide) rfl rfl rfl⟩
  | emptyBraces outside empty =>
    refine ⟨rest.takeWhile isBlank ++ ['\x7d'], ?_, ?_⟩
    · rw [List.append_assoc, List.singleton_append, ← empty, ahead]
    · simpa using before.bracesCopied outside empty
  | openBrace outside _ => exact ⟨[], rfl, before.braceOpened outside⟩
  | closeBrace outside => exact ⟨_, ahead.symm, before.braceClosed outside⟩
  | endStatement outside _ => exact ⟨_, ahead.symm, before.statementEnded outside⟩
  | innerSemicolon outside _ =>
    exact ⟨[], rfl, before.copiedOutside outside (by decide) rfl rfl rfl⟩
  | leadingSpace outside lineBlank => exact ⟨[], rfl, before.spaceSkipped outside lineBlank⟩
  | plain outside noQuote _ _ => exact ⟨[], rfl, before.copiedOutside outside noQuote rfl rfl rfl⟩

end Faithful

/-- A whole scan is faithful to its code. -/
theorem faithful_run (code : List Char) : Faithful (Layout.run {} code) code.reverse [] := by
  have start : Faithful {} [] code :=
    ⟨.start, by simp [endsBlank], rfl, rfl, rfl⟩
  simpa using run_induction (motive := Faithful) Faithful.step {} [] code start

end Layout

/-- Laying code out only moves blanks: the written text has the code's visible characters, and where
two of them were apart and now touch, one is a closing brace. -/
theorem respaced_beautify (code : String) :
    Respaced code.toList.reverse (beautify code).toList.reverse := by
  have scanned := (Layout.faithful_run code.toList).respaced
  rw [← List.takeWhile_append_dropWhile (p := (· = ' ')) (l := (Layout.run {} code.toList).written)]
    at scanned
  simpa [beautify, Layout.trimEnd] using
    scanned.takeBackBlanks fun _ => Layout.isBlank_of_mem_trailing

theorem visible_beautify (code : String) :
    visible (beautify code).toList = visible code.toList := by
  have reversed := (respaced_beautify code).visible_eq
  rw [visible_reverse, visible_reverse] at reversed
  exact (List.reverse_inj.mp reversed).symm

/-- The layout scan ends inside the quote that is open in the code, if one is. -/
theorem quote_run (code : String) :
    (Layout.run {} code.toList).quote = (Quotes.scan code.toList).pending.map Prod.fst := by
  simpa using (Layout.faithful_run code.toList).quote

/-- Code whose quotes are all closed keeps its quoted pieces as they stand. -/
theorem scan_beautify {code : String} (outside : (Layout.run {} code.toList).quote = none) :
    Quotes.scan (beautify code).toList = Quotes.scan code.toList := by
  have trimmed := (Layout.faithful_run code.toList).trimmed outside (.inr (by simp))
  simpa [beautify] using trimmed.quotes

/-- Two visible characters that code keeps apart, inside quotes or outside, only come to touch next
to a closing brace. -/
theorem brace_of_touching {code : String} {before gap after before' after' : List Char}
    {first second : Char} (isCode : code.toList = before ++ first :: (gap ++ second :: after))
    (apart : gap ≠ []) (blank : ∀ c ∈ gap, isBlank c = true) (solidFirst : isBlank first = false)
    (solidSecond : isBlank second = false)
    (isLaidOut : (beautify code).toList = before' ++ first :: second :: after')
    (sameRank : (visible before').length = (visible before).length) :
    first = '\x7d' ∨ second = '\x7d' := by
  have related := respaced_beautify code
  have sameVisible := congrArg List.length (visible_beautify code)
  rw [isCode, isLaidOut] at related sameVisible
  simp only [visible_append, visible_cons_of_solid solidFirst, visible_cons_of_solid solidSecond,
    visible_of_blanks blank, List.length_append, List.length_cons, List.length_nil] at sameVisible
  have blankReversed : ∀ c ∈ gap.reverse, isBlank c = true := by simpa using blank
  have joined : Respaced (after.reverse ++ second :: (gap.reverse ++ first :: before.reverse))
      (after'.reverse ++ second :: first :: before'.reverse) := by
    simpa using related
  refine joined.brace_of_joined (by simpa using apart) blankReversed solidFirst solidSecond ?_
  rw [visible_reverse, visible_reverse, List.length_reverse, List.length_reverse]
  omega

/-- Laying code out only moves blanks. No visible character is added, lost, changed or reordered;
where the layout scan ends outside quotes, the quoted pieces are the same, character for character;
and two visible characters that were apart come to touch only if one of them is a closing brace. -/
theorem beautify_only_moves_blanks (code : String) :
    visible (beautify code).toList = visible code.toList ∧
    (Layout.run {} code.toList).quote = (Quotes.scan code.toList).pending.map Prod.fst ∧
    ((Layout.run {} code.toList).quote = none →
      Quotes.scan (beautify code).toList = Quotes.scan code.toList) ∧
    (∀ (before gap after before' after' : List Char) (first second : Char),
      code.toList = before ++ first :: (gap ++ second :: after) →
      gap ≠ [] → (∀ c ∈ gap, isBlank c = true) → isBlank first = false → isBlank second = false →
      (beautify code).toList = before' ++ first :: second :: after' →
      (visible before').length = (visible before).length →
      first = '\x7d' ∨ second = '\x7d') := by
  refine ⟨visible_beautify code, quote_run code, scan_beautify, ?_⟩
  intro before gap after before' after' first second isCode apart blank solidFirst solidSecond
    isLaidOut sameRank
  exact brace_of_touching isCode apart blank solidFirst solidSecond isLaidOut sameRank

theorem beautify_only_moves_blanks_quotedBrace :
    Quotes.scan (beautify "f('\x7b ;') \x7d ;").toList = { closed := ["'\x7b ;'".toList] } ∧
      beautify "f('\x7b ;') \x7d ;" = "f('\x7b ;')\n\x7d;" := by
  obtain ⟨_, sameScan, quoted, _⟩ := beautify_only_moves_blanks "f('\x7b ;') \x7d ;"
  have outside : (Quotes.scan "f('\x7b ;') \x7d ;".toList).pending = none := by decide
  rw [outside] at sameScan
  refine ⟨(quoted sameScan).trans (by decide), by decide +kernel⟩

end ScriptLint.Code
