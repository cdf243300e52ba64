import Mathlib.Data.List.Forall2
import ScriptLint.Proofs.Text.Pieces
import ScriptLint.Report.Text

/-!
# Text reports tell their findings apart

The lines of a text report are those of its findings, one after the other. A description is followed
by an empty line, and an empty line also stands where a description is missing. Which of the two it
is shows in what follows: the next finding starts with a line that is not empty, and a report does
not go on behind its last finding. So the lines of a finding are told from those after it, whatever
its description looks like.
-/

namespace ScriptLint

/-- The tag and the description have no line break. -/
structure Finding.OneLine (finding : Finding) : Prop where
  tag : '\n' ∉ finding.tag.toList
  description : ∀ description ∈ finding.description, '\n' ∉ description.toList

/-- Everything that a text report shows of the two findings is the same. -/
structure Finding.ShowsLike (finding other : Finding) : Prop where
  tag : finding.tag = other.tag
  startLine : finding.node.span.startLine = other.node.span.startLine
  endLine : finding.node.span.endLine = other.node.span.endLine
  description : finding.description = other.description

namespace Report

/-! ## Lines of a finding -/

/-- The line that names a finding. -/
def tagLine (finding : Finding) : String :=
  "Type " ++ finding.tag

/-- The line that says where a finding is. -/
def placeLine (finding : Finding) : String :=
  "Lines " ++ toString finding.node.span.startLine ++ "-" ++ toString finding.node.span.endLine

/-- The lines behind the place of a finding. -/
def descriptionLines : Option String → List (List Char)
  | some description => [description.toList, []]
  | none => [[]]

/-- The lines of a finding in a report. -/
def findingLines (finding : Finding) : List (List Char) :=
  (tagLine finding).toList :: (placeLine finding).toList :: descriptionLines finding.description

variable {finding other : Finding} {findings others : List Finding}

theorem notMem_toDigits {c : Char} (noDigit : c.isDigit = false) (number : Nat) :
    c ∉ Nat.toDigits 10 number := by
  intro member
  rw [Nat.isDigit_of_mem_toDigits (by decide) (by decide) member] at noDigit
  cases noDigit

theorem toDigits_inj {first second : Nat} (same : Nat.toDigits 10 first = Nat.toDigits 10 second) :
    first = second := by
  have read := congrArg (Nat.ofDigitChars 10 · 0) same
  simpa only [Nat.ofDigitChars_ten_toDigits] using read

theorem toList_placeLine (finding : Finding) :
    (placeLine finding).toList =
      ("Lines ".toList ++ Nat.toDigits 10 finding.node.span.startLine) ++
        '-' :: Nat.toDigits 10 finding.node.span.endLine := by
  simp [placeLine]

theorem pieces_textRows (oneLine : finding.OneLine) :
    (textRows finding).flatMap (pieces '\n' ·.toList) = findingLines finding := by
  have tagged : pieces '\n' (tagLine finding).toList = [(tagLine finding).toList] := by
    refine pieces_of_notMem fun member => ?_
    rw [tagLine, String.toList_append] at member
    obtain word | inTag := List.mem_append.mp member
    · revert word
      decide
    · exact oneLine.tag inTag
  have placed : pieces '\n' (placeLine finding).toList = [(placeLine finding).toList] := by
    have start := notMem_toDigits (c := '\n') (by decide) finding.node.span.startLine
    have stop := notMem_toDigits (c := '\n') (by decide) finding.node.span.endLine
    rw [toList_placeLine]
    exact pieces_of_notMem (by simp [start, stop])
  change [tagLine finding, placeLine finding, _].flatMap _ = _
  rw [findingLines]
  cases known : finding.description with
  | none =>
    simp only [List.flatMap_cons, List.flatMap_nil, tagged, placed]
    rfl
  | some description =>
    have described : pieces '\n' (description ++ "\n").toList = [description.toList, []] := by
      have shown : (description ++ "\n").toList = description.toList ++ '\n' :: [] := by simp
      rw [shown, pieces_append_cons, pieces_of_notMem (oneLine.description description known)]
      rfl
    simp only [List.flatMap_cons, List.flatMap_nil, tagged, placed, described]
    rfl

/-- The lines of a report are the lines of its findings. -/
theorem pieces_renderText (oneLine : ∀ finding ∈ findings, finding.OneLine)
    (nonempty : findings ≠ []) :
    pieces '\n' (renderText findings).toList = findings.flatMap findingLines := by
  have rows : findings.flatMap textRows ≠ [] := by
    obtain ⟨finding, later, rfl⟩ := List.exists_cons_of_ne_nil nonempty
    simp [textRows]
  rw [renderText, pieces_joinLines rows, List.flatMap_assoc]
  exact List.flatMap_congr fun finding member => pieces_textRows (oneLine finding member)

/-! ## Telling findings apart -/

/-- The two numbers stand on either side of the only dash. -/
theorem placeLine_inj (same : (placeLine finding).toList = (placeLine other).toList) :
    finding.node.span.startLine = other.node.span.startLine ∧
      finding.node.span.endLine = other.node.span.endLine := by
  have cut (finding : Finding) : pieces '-' (placeLine finding).toList =
      ["Lines ".toList ++ Nat.toDigits 10 finding.node.span.startLine,
        Nat.toDigits 10 finding.node.span.endLine] := by
    have start := notMem_toDigits (c := '-') (by decide) finding.node.span.startLine
    have stop := notMem_toDigits (c := '-') (by decide) finding.node.span.endLine
    rw [toList_placeLine, pieces_append_cons, pieces_of_notMem stop,
      pieces_of_notMem (by simp [start])]
    rfl
  have halves := congrArg (pieces '-') same
  rw [cut, cut] at halves
  obtain ⟨starts, stops⟩ := List.cons.inj halves
  exact ⟨toDigits_inj (List.append_cancel_left starts), toDigits_inj (List.cons.inj stops).1⟩

/-- What follows is known not to start with an empty line, so an empty line is told from the
description that it might be. -/
theorem descriptionLines_append_inj {first second : Option String} {rest later : List (List Char)}
    (restStarts : rest.head? ≠ some []) (laterStarts : later.head? ≠ some [])
    (same : descriptionLines first ++ rest = descriptionLines second ++ later) :
    first = second ∧ rest = later := by
  cases first with
  | none =>
    cases second with
    | none => exact ⟨rfl, (List.cons.inj same).2⟩
    | some description =>
      obtain ⟨-, rfl⟩ := List.cons.inj same
      exact absurd rfl restStarts
  | some description =>
    cases second with
    | none =>
      obtain ⟨-, rfl⟩ := List.cons.inj same
      exact absurd rfl laterStarts
    | some other =>
      obtain ⟨description_eq, ends⟩ := List.cons.inj same
      rw [String.toList_inj.mp description_eq]
      exact ⟨rfl, (List.cons.inj ends).2⟩

theorem head?_flatMap_findingLines (findings : List Finding) :
    (findings.flatMap findingLines).head? ≠ some [] := by
  cases findings <;> simp [findingLines, tagLine]

/-- The lines of a finding are told from those of the findings behind it. -/
theorem findingLines_append_inj
    (same : findingLines finding ++ findings.flatMap findingLines =
      findingLines other ++ others.flatMap findingLines) :
    finding.ShowsLike other ∧ findings.flatMap findingLines = others.flatMap findingLines := by
  simp only [findingLines, List.cons_append, List.cons.injEq] at same
  obtain ⟨tagged, placed, rest⟩ := same
  simp only [tagLine, String.toList_append] at tagged
  have tag : finding.tag = other.tag := String.toList_inj.mp (List.append_cancel_left tagged)
  obtain ⟨startLine, endLine⟩ := placeLine_inj placed
  obtain ⟨description, rest⟩ := descriptionLines_append_inj
    (head?_flatMap_findingLines findings) (head?_flatMap_findingLines others) rest
  exact ⟨⟨tag, startLine, endLine, description⟩, rest⟩

theorem showsLike_of_flatMap_findingLines
    (same : findings.flatMap findingLines = others.flatMap findingLines) :
    List.Forall₂ Finding.ShowsLike findings others := by
  induction findings generalizing others with
  | nil =>
    cases others with
    | nil => exact .nil
    | cons other others => simp [findingLines] at same
  | cons finding findings ih =>
    cases others with
    | nil => simp [findingLines] at same
    | cons other others =>
      obtain ⟨alike, rest⟩ := findingLines_append_inj same
      exact .cons alike (ih rest)

theorem renderText_congr (alike : List.Forall₂ Finding.ShowsLike findings others) :
    renderText findings = renderText others := by
  have rows : findings.flatMap textRows = others.flatMap textRows := by
    induction alike with
    | nil => rfl
    | cons first _ ih =>
      simp only [List.flatMap_cons, ih, textRows, Finding.span, first.tag, first.startLine,
        first.endLine, first.description]
  rw [renderText, rows, renderText]

theorem renderText_ne_empty (oneLine : ∀ finding ∈ findings, finding.OneLine)
    (nonempty : findings ≠ []) : renderText findings ≠ "" := by
  intro empty
  have lines := pieces_renderText oneLine nonempty
  obtain ⟨finding, later, rfl⟩ := List.exists_cons_of_ne_nil nonempty
  simp [empty, pieces, findingLines] at lines

/-- Two reports are the same text just if they show the same: as many findings and, one by one, the
same tags, lines and descriptions. A missing description is told from an empty one. -/
theorem renderText_eq_iff (oneLine : ∀ finding ∈ findings, finding.OneLine)
    (othersOneLine : ∀ other ∈ others, other.OneLine) :
    renderText findings = renderText others ↔
      findings.length = others.length ∧ List.Forall₂ Finding.ShowsLike findings others := by
  constructor
  · intro same
    suffices alike : List.Forall₂ Finding.ShowsLike findings others from ⟨alike.length_eq, alike⟩
    by_cases empty : findings = []
    · subst empty
      by_cases othersEmpty : others = []
      · rw [othersEmpty]
        exact .nil
      · exact absurd same.symm (renderText_ne_empty othersOneLine othersEmpty)
    by_cases othersEmpty : others = []
    · subst othersEmpty
      exact absurd same (renderText_ne_empty oneLine empty)
    have lines := congrArg (fun text => pieces '\n' text.toList) same
    simp only [pieces_renderText oneLine empty, pieces_renderText othersOneLine othersEmpty]
      at lines
    exact showsLike_of_flatMap_findingLines lines
  · rintro ⟨-, alike⟩
    exact renderText_congr alike

/-- A finding with this description, if it has one. -/
def spare (description : Option String) : Finding :=
  { node := ⟨{}, .literal "0" .number⟩, tag := "A", description }

/-- A missing description in front of an empty one is not the other way round, and a description
that looks like the first line of a finding is not one. -/
theorem renderText_eq_iff_emptyDescription :
    renderText [spare none, spare (some "")] ≠ renderText [spare (some ""), spare none] ∧
      renderText [spare none, spare none] ≠ renderText [spare (some "Type A")] := by
  have oneLine : ∀ description ∈ [none, some "", some "Type A"], (spare description).OneLine := by
    simp only [List.forall_mem_cons]
    refine ⟨⟨by decide, nofun⟩, ⟨by decide, ?_⟩, ⟨by decide, ?_⟩, List.forall_mem_nil _⟩
    all_goals
      rintro _ ⟨⟩
      decide
  constructor
  · rw [ne_eq, renderText_eq_iff (by simp [oneLine]) (by simp [oneLine])]
    rintro ⟨-, alike⟩
    cases (List.forall₂_cons.mp alike).1.description
  · rw [ne_eq, renderText_eq_iff (by simp [oneLine]) (by simp [oneLine])]
    rintro ⟨fewer, -⟩
    cases fewer

end Report

end ScriptLint
