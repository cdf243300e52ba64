import ScriptLint.Code.Beautify

/-!
# The steps of the layout scan

What a step of the scan can do, once for all proofs about it: eleven cases, each with the condition
under which it is taken. Whatever holds at the start of a scan and is kept by each of them holds at
its end.
-/

namespace ScriptLint.Code

/-- Code with its leading blanks split off. -/
theorem takeWhile_append_skipBlank (code : List Char) :
    code.takeWhile isBlank ++ skipBlank code = code :=
  List.takeWhile_append_dropWhile

namespace Layout

/-- A step from a layout that reads `c` in front of `rest`, to a layout and the code left to
read. -/
inductive Step (layout : Layout) : Char → List Char → Layout → List Char → Prop where
  | quoted {quote c : Char} {rest : List Char} (inside : layout.quote = some quote) :
      Step layout c rest (layout.copyQuoted quote c) rest
  | opening {c : Char} {rest : List Char} (outside : layout.quote = none)
      (isOpening : isQuote c = true) :
      Step layout c rest { layout.push c with quote := some c } rest
  | openParen {rest : List Char} (outside : layout.quote = none) :
      Step layout '(' rest { layout.push '(' with parens := layout.parens + 1 } rest
  | closeParen {rest : List Char} (outside : layout.quote = none) :
      Step layout ')' rest { layout.push ')' with parens := layout.parens - 1 } rest
  | emptyBraces {rest after : List Char} (outside : layout.quote = none)
      (empty : skipBlank rest = '\x7d' :: after) :
      Step layout '\x7b' rest ((layout.push '\x7b').push '\x7d') after
  | openBrace {rest : List Char} (outside : layout.quote = none)
      (filled : (skipBlank rest).head? ≠ some '\x7d') :
      Step layout '\x7b' rest layout.openBrace rest
  | closeBrace {rest : List Char} (outside : layout.quote = none) :
      Step layout '\x7d' rest (layout.closeBrace (skipBlank rest)) (skipBlank rest)
  | endStatement {rest : List Char} (outside : layout.quote = none) (flat : layout.parens = 0) :
      Step layout ';' rest (layout.endStatement (skipBlank rest)) (skipBlank rest)
  | innerSemicolon {rest : List Char} (outside : layout.quote = none)
      (nested : layout.parens ≠ 0) : Step layout ';' rest (layout.push ';') rest
  | leadingSpace {rest : List Char} (outside : layout.quote = none)
      (lineBlank : layout.lineIsBlank = true) : Step layout ' ' rest layout rest
  | plain {c : Char} {rest : List Char} (outside : layout.quote = none)
      (noQuote : isQuote c = false) (ordinary : c ∉ ['(', ')', '\x7b', '\x7d', ';'])
      (shown : c = ' ' → layout.lineIsBlank = false) : Step layout c rest (layout.push c) rest

/-- The scan takes one of these steps. -/
theorem step_spec (layout : Layout) (c : Char) (rest : List Char) :
    Step layout c rest (layout.step c rest).1 (layout.step c rest).2 := by
  cases known : layout.quote with
  | some quote =>
    simp only [step, known]
    exact .quoted known
  | none =>
    simp only [step, known]
    split
    · next opening => exact .opening known opening
    · next noQuote =>
      split
      · next same => exact same ▸ .openParen known
      · split
        · next same => exact same ▸ .closeParen known
        · split
          · next same =>
            subst same
            split
            · next empty => exact .emptyBraces known empty
            · next filled =>
              refine .openBrace known fun closes => ?_
              obtain ⟨after, split⟩ := List.head?_eq_some_iff.mp closes
              exact filled after split
          · split
            · next same => exact same ▸ .closeBrace known
            · split
              · next same =>
                subst same
                split
                · next flat => exact .endStatement known flat
                · next nested => exact .innerSemicolon known nested
              · split
                · next space =>
                  simp only [Bool.and_eq_true, decide_eq_true_eq] at space
                  exact space.1 ▸ .leadingSpace known space.2
                · next shown =>
                  refine .plain known (by simpa using noQuote) (by simp_all) fun space => ?_
                  simpa [space] using shown

/-- What the steps keep, a whole scan keeps. The property may depend on the code read, newest
character first, and on the code left to read. -/
theorem run_induction {motive : Layout → List Char → List Char → Prop}
    (step : ∀ {layout next : Layout} {c : Char} {read rest after : List Char},
      Step layout c rest next after → motive layout read (c :: rest) →
        ∃ taken, rest = taken ++ after ∧ motive next (taken.reverse ++ c :: read) after)
    (layout : Layout) (read code : List Char) (start : motive layout read code) :
    motive (layout.run code) (code.reverse ++ read) [] := by
  fun_induction run layout code generalizing read with
  | case1 layout => exact start
  | case2 layout c rest ih =>
    obtain ⟨taken, split, next⟩ := step (layout.step_spec c rest) start
    have finished := ih _ next
    generalize (layout.step c rest).2 = after at split finished
    subst split
    simpa using finished

end Layout

end ScriptLint.Code
