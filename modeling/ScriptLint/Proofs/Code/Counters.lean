import ScriptLint.Proofs.Code.Balance
import ScriptLint.Proofs.Code.Brackets
import ScriptLint.Proofs.Code.Steps

/-!
# Counters of the layout scan

The scan counts open braces and parentheses and stops at zero. Code whose brackets outside quotes
are properly nested never makes it stop there: along such code the scan is a run of the reader that
keeps the brackets themselves, and its counters count them. Reconstructed code is of that kind if
its leaves are plain, also where a template inside another one turns the scan's idea of quoted and
unquoted text around.
-/

namespace ScriptLint

open Code Segment

namespace Code

/-! ## Reading brackets and quotes -/

/-- What is open after a text: a quote, and the parentheses and braces met outside quotes, innermost
first. -/
structure Nesting where
  quote : Option Char := none
  escaped : Bool := false
  brackets : List Char := []
  deriving DecidableEq, Repr

/-- Reads one character on; a closing bracket has to fit. -/
def Nesting.read (state : Nesting) (c : Char) : Option Nesting :=
  match state.quote with
  | some quote => some <|
    if state.escaped then { state with escaped := false }
    else if c = '\\' then { state with escaped := true }
    else if c = quote then { state with quote := none }
    else state
  | none =>
    if isQuote c then some { state with quote := some c }
    else (nest state.brackets c).map fun brackets => { state with brackets }

variable {text code rest : List Char} {state middle final : Nesting} {c quote : Char}

/-- Properly nested text leaves the open parentheses and braces as they are. -/
theorem Balanced.foldlM_nest (balanced : Balanced text) (brackets : List Char) :
    text.foldlM nest brackets = some brackets := by
  induction balanced generalizing brackets with
  | empty => rfl
  | @plain c notOpening notClosing =>
    have ordinary : c ∉ ['(', ')', '\x7b', '\x7d'] := by
      simp only [List.mem_cons, List.not_mem_nil, or_false]
      rintro (rfl | rfl | rfl | rfl)
      · cases notOpening
      · cases notClosing
      · cases notOpening
      · cases notClosing
    simp [nest_of_ordinary ordinary]
  | append _ _ ih ihToo =>
    rw [List.foldlM_append, ih]
    exact ihToo brackets
  | enclosed closes _ ih =>
    obtain ⟨rfl, rfl⟩ | ⟨rfl, rfl⟩ | ⟨rfl, rfl⟩ := closes_cases closes
    all_goals simp [nest, ih]

theorem eq_of_nest_paren {brackets after : List Char} (closes : nest brackets ')' = some after) :
    brackets = '(' :: after := by
  simpa using nest_cases closes

theorem eq_of_nest_brace {brackets after : List Char} (closes : nest brackets '\x7d' = some after) :
    brackets = '\x7b' :: after := by
  simpa using nest_cases closes

namespace Nesting

theorem exists_nest (reads : state.read c = some middle) (outside : state.quote = none)
    (bare : isQuote c = false) :
    ∃ brackets, nest state.brackets c = some brackets ∧ middle = { state with brackets } := by
  obtain ⟨quote, escaped, brackets⟩ := state
  cases outside
  simp only [read, bare, Bool.false_eq_true, if_false] at reads
  obtain ⟨after, isNest, rfl⟩ := Option.map_eq_some_iff.mp reads
  exact ⟨after, isNest, rfl⟩

theorem read_of_ordinary (outside : state.quote = none) (bare : isQuote c = false)
    (ordinary : c ∉ ['(', ')', '\x7b', '\x7d']) : state.read c = some state := by
  obtain ⟨quote, escaped, brackets⟩ := state
  cases outside
  simp [read, bare, nest_of_ordinary ordinary]

theorem foldlM_skipBlank (outside : state.quote = none) (rest : List Char) :
    (skipBlank rest).foldlM read state = rest.foldlM read state := by
  induction rest with
  | nil => rfl
  | cons c rest ih =>
    cases blank : isBlank c with
    | false => rw [skipBlank, List.dropWhile_cons_of_neg (by simp [blank])]
    | true =>
      have bare := Quotes.isQuote_eq_false_of_isBlank blank
      rw [skipBlank, List.dropWhile_cons_of_pos blank, ← skipBlank, ih, List.foldlM_cons,
        read_of_ordinary outside bare (ordinary_of_isBlank blank)]
      rfl

end Nesting

namespace Layout

/-! ## The scan as a run of the reader -/

/-- The states that the scan comes to, each with the code it has still to read. -/
def stops (layout : Layout) : List Char → List (Layout × List Char)
  | [] => [(layout, [])]
  | c :: rest => (layout, c :: rest) :: stops (layout.step c rest).1 (layout.step c rest).2
termination_by code => code.length
decreasing_by exact Nat.lt_succ_of_le (length_step_le layout c rest)

/-- What is read next takes no counter below zero: outside quotes a closing bracket is met with one
of its kind counted. -/
def CountsDown (layout : Layout) (code : List Char) : Prop :=
  layout.quote = none →
    (code.head? = some ')' → layout.parens ≠ 0) ∧ (code.head? = some '\x7d' → layout.depth ≠ 0)

/-- The counters of the scan count the brackets of the reader, and both are in the same quote. -/
structure Tracks (layout : Layout) (state : Nesting) : Prop where
  quote : layout.quote = state.quote
  escaped : layout.escaped = state.escaped
  parens : layout.parens = state.brackets.count '('
  depth : layout.depth = state.brackets.count '\x7b'

variable {layout next : Layout} {after : List Char}

theorem mem_stops_run (layout : Layout) (code : List Char) :
    (layout.run code, []) ∈ layout.stops code := by
  fun_induction run layout code with
  | case1 layout => simp [stops]
  | case2 layout c rest ih =>
    rw [stops]
    exact List.mem_cons_of_mem _ ih

theorem exists_written_closeBrace (layout : Layout) (ahead : List Char) :
    ∃ written, layout.closeBrace ahead = { layout with depth := layout.depth - 1, written } := by
  unfold closeBrace
  dsimp only
  repeat' split
  all_goals exact ⟨_, rfl⟩

theorem exists_written_endStatement (layout : Layout) (ahead : List Char) :
    ∃ written, layout.endStatement ahead = { layout with written } := by
  unfold endStatement
  dsimp only
  repeat' split
  all_goals exact ⟨_, rfl⟩

namespace Tracks

theorem outside (tracks : Tracks layout state) (outside : layout.quote = none) :
    state.quote = none :=
  tracks.quote.symm.trans outside

theorem countsDown (tracks : Tracks layout state)
    (reads : code.foldlM Nesting.read state = some final) : layout.CountsDown code := by
  intro outside
  cases code with
  | nil => simp
  | cons c rest =>
    obtain ⟨middle, isMiddle, -⟩ := Option.bind_eq_some_iff.mp reads
    rw [tracks.parens, tracks.depth, List.head?_cons, Option.some.injEq, Option.some.injEq]
    constructor
    · rintro rfl
      obtain ⟨brackets, isNest, -⟩ := Nesting.exists_nest isMiddle (tracks.outside outside) rfl
      simp [eq_of_nest_paren isNest]
    · rintro rfl
      obtain ⟨brackets, isNest, -⟩ := Nesting.exists_nest isMiddle (tracks.outside outside) rfl
      simp [eq_of_nest_brace isNest]

theorem copiedQuoted (tracks : Tracks layout state) (inside : layout.quote = some quote)
    (reads : state.read c = some middle) : Tracks (layout.copyQuoted quote c) middle := by
  have insideToo : state.quote = some quote := tracks.quote.symm.trans inside
  have escaped : (layout.push c).escaped = state.escaped := tracks.escaped
  simp only [Nesting.read, insideToo] at reads
  obtain rfl := Option.some.inj reads
  simp only [copyQuoted, escaped]
  repeat' split
  · exact ⟨inside, rfl, tracks.parens, tracks.depth⟩
  · exact ⟨inside, rfl, tracks.parens, tracks.depth⟩
  · exact ⟨rfl, rfl, tracks.parens, tracks.depth⟩
  · exact ⟨tracks.quote, tracks.escaped, tracks.parens, tracks.depth⟩

/-- Each step of the scan is one that the reader takes. -/
theorem step (tracks : Tracks layout state) (taken : Step layout c rest next after)
    (reads : (c :: rest).foldlM Nesting.read state = some final) :
    ∃ state', Tracks next state' ∧ after.foldlM Nesting.read state' = some final := by
  obtain ⟨middle, isMiddle, reads⟩ := Option.bind_eq_some_iff.mp reads
  cases taken with
  | quoted inside => exact ⟨middle, tracks.copiedQuoted inside isMiddle, reads⟩
  | opening outside isOpening =>
    simp only [Nesting.read, tracks.outside outside, isOpening, if_true] at isMiddle
    obtain rfl := Option.some.inj isMiddle
    refine ⟨_, ?_, reads⟩
    exact ⟨rfl, tracks.escaped, tracks.parens, tracks.depth⟩
  | openParen outside =>
    obtain ⟨brackets, isNest, rfl⟩ := Nesting.exists_nest isMiddle (tracks.outside outside) rfl
    obtain rfl : '(' :: state.brackets = brackets := Option.some.inj isNest
    refine ⟨_, ?_, reads⟩
    exact ⟨tracks.quote, tracks.escaped, by simp [tracks.parens], by simp [push, tracks.depth]⟩
  | closeParen outside =>
    obtain ⟨brackets, isNest, rfl⟩ := Nesting.exists_nest isMiddle (tracks.outside outside) rfl
    have isState := eq_of_nest_paren isNest
    refine ⟨_, ?_, reads⟩
    exact ⟨tracks.quote, tracks.escaped, by simp [tracks.parens, isState],
      by simp [push, tracks.depth, isState]⟩
  | emptyBraces outside empty =>
    -- The reader opens the brace, passes the blanks and closes it again.
    obtain ⟨opened, isNest, rfl⟩ := Nesting.exists_nest isMiddle (tracks.outside outside) rfl
    obtain rfl : '\x7b' :: state.brackets = opened := Option.some.inj isNest
    rw [← Nesting.foldlM_skipBlank (by exact tracks.outside outside), empty] at reads
    obtain ⟨closed, isClosed, reads⟩ := Option.bind_eq_some_iff.mp reads
    obtain ⟨brackets, isNest, rfl⟩ := Nesting.exists_nest isClosed (tracks.outside outside) rfl
    obtain rfl : state.brackets = brackets := Option.some.inj isNest
    exact ⟨state, ⟨tracks.quote, tracks.escaped, tracks.parens, tracks.depth⟩, reads⟩
  | openBrace outside _ =>
    obtain ⟨brackets, isNest, rfl⟩ := Nesting.exists_nest isMiddle (tracks.outside outside) rfl
    obtain rfl : '\x7b' :: state.brackets = brackets := Option.some.inj isNest
    refine ⟨_, ?_, reads⟩
    exact ⟨tracks.quote, tracks.escaped, tracks.parens.trans (by simp),
      (congrArg (· + 1) tracks.depth).trans (by simp)⟩
  | closeBrace outside =>
    obtain ⟨brackets, isNest, rfl⟩ := Nesting.exists_nest isMiddle (tracks.outside outside) rfl
    have isState := eq_of_nest_brace isNest
    obtain ⟨written, isNext⟩ := exists_written_closeBrace layout (skipBlank rest)
    rw [isNext]
    refine ⟨_, ?_, (Nesting.foldlM_skipBlank (by exact tracks.outside outside) rest).trans reads⟩
    exact ⟨tracks.quote, tracks.escaped, by simp [tracks.parens, isState],
      by simp [tracks.depth, isState]⟩
  | endStatement outside _ =>
    rw [Nesting.read_of_ordinary (tracks.outside outside) rfl (by decide)] at isMiddle
    obtain rfl := Option.some.inj isMiddle
    obtain ⟨written, isNext⟩ := exists_written_endStatement layout (skipBlank rest)
    rw [isNext]
    exact ⟨state, ⟨tracks.quote, tracks.escaped, tracks.parens, tracks.depth⟩,
      (Nesting.foldlM_skipBlank (tracks.outside outside) rest).trans reads⟩
  | innerSemicolon outside _ =>
    rw [Nesting.read_of_ordinary (tracks.outside outside) rfl (by decide)] at isMiddle
    obtain rfl := Option.some.inj isMiddle
    exact ⟨state, ⟨tracks.quote, tracks.escaped, tracks.parens, tracks.depth⟩, reads⟩
  | leadingSpace outside _ =>
    rw [Nesting.read_of_ordinary (tracks.outside outside) rfl (by decide)] at isMiddle
    obtain rfl := Option.some.inj isMiddle
    exact ⟨state, tracks, reads⟩
  | plain outside noQuote ordinary _ =>
    have unbracketed : c ∉ ['(', ')', '\x7b', '\x7d'] := by simp_all
    rw [Nesting.read_of_ordinary (tracks.outside outside) noQuote unbracketed] at isMiddle
    obtain rfl := Option.some.inj isMiddle
    exact ⟨state, ⟨tracks.quote, tracks.escaped, tracks.parens, tracks.depth⟩, reads⟩

/-- Wherever the scan stops, the reader is in step with it and reads the rest of the code to the
same end. -/
theorem of_mem_stops {stop : Layout × List Char} (tracks : Tracks layout state)
    (reads : code.foldlM Nesting.read state = some final) (member : stop ∈ layout.stops code) :
    ∃ state', Tracks stop.1 state' ∧ stop.2.foldlM Nesting.read state' = some final := by
  fun_induction stops layout code generalizing state with
  | case1 layout =>
    obtain rfl := List.mem_singleton.mp member
    exact ⟨state, tracks, reads⟩
  | case2 layout c rest ih =>
    obtain rfl | later := List.mem_cons.mp member
    · exact ⟨state, tracks, reads⟩
    · obtain ⟨state', tracks, reads⟩ := tracks.step (layout.step_spec c rest) reads
      exact ih tracks reads later

end Tracks

end Layout

/-! ## Texts that leave the reader as it was -/

namespace Nesting

/-- Outside quotes, with these brackets open. -/
def outside (brackets : List Char) : Nesting :=
  { brackets }

/-- Inside a quote, with these brackets open outside of it. -/
def within (quote : Char) (brackets : List Char) : Nesting :=
  { quote := some quote, brackets }

theorem read_outside_quote (isOpening : isQuote quote = true) (brackets : List Char) :
    (outside brackets).read quote = some (within quote brackets) := by
  simp [read, outside, within, isOpening]

theorem read_within_quote (noEscape : quote ≠ '\\') (brackets : List Char) :
    (within quote brackets).read quote = some (outside brackets) := by
  simp [read, outside, within, noEscape]

theorem foldlM_outside (bare : ∀ c ∈ text, isQuote c = false) (brackets : List Char) :
    text.foldlM read (outside brackets) = (text.foldlM nest brackets).map outside := by
  induction text generalizing brackets with
  | nil => rfl
  | cons c rest ih =>
    rw [List.forall_mem_cons] at bare
    have step : (outside brackets).read c = (nest brackets c).map outside := by
      rw [read, outside]
      simp only [bare.1, Bool.false_eq_true, if_false]
      rfl
    rw [List.foldlM_cons, step, List.foldlM_cons]
    cases nest brackets c with
    | none => rfl
    | some after => exact ih bare.2 after

theorem foldlM_within (noQuote : quote ∉ text) (noEscape : '\\' ∉ text) (brackets : List Char) :
    text.foldlM read (within quote brackets) = some (within quote brackets) := by
  induction text with
  | nil => rfl
  | cons c rest ih =>
    rw [List.mem_cons, not_or] at noQuote noEscape
    have step : (within quote brackets).read c = some (within quote brackets) := by
      simp [read, within, Ne.symm noQuote.1, Ne.symm noEscape.1]
    rw [List.foldlM_cons, step]
    exact ih noQuote.2 noEscape.2

end Nesting

/-- Reading the text changes nothing, neither outside quotes nor inside a template. -/
structure Neutral (text : List Char) : Prop where
  outside : ∀ brackets, text.foldlM Nesting.read (.outside brackets) = some (.outside brackets)
  inside : ∀ brackets,
    text.foldlM Nesting.read (.within '\x60' brackets) = some (.within '\x60' brackets)

/-- A character that neither opens or closes a quote nor escapes one. -/
def isInert (c : Char) : Bool :=
  !isQuote c && c ≠ '\\'

/-- A character that the scan copies wherever it stands. -/
def isPlain (c : Char) : Bool :=
  isInert c && c ∉ ['(', ')', '\x7b', '\x7d']

theorem isInert_iff : isInert c = true ↔ isQuote c = false ∧ c ≠ '\\' := by
  simp [isInert]

theorem foldlM_inTemplate (inert : ∀ c ∈ text, isInert c = true) (brackets : List Char) :
    text.foldlM Nesting.read (.within '\x60' brackets) = some (.within '\x60' brackets) := by
  refine Nesting.foldlM_within ?_ ?_ brackets
  · intro member
    cases inert _ member
  · intro member
    cases inert _ member

theorem neutral_of_plain (plain : ∀ c ∈ text, isPlain c = true) : Neutral text := by
  have inert : ∀ c ∈ text, isInert c = true := fun c member =>
    (Bool.and_eq_true_iff.mp (plain c member)).1
  refine ⟨fun brackets => ?_, foldlM_inTemplate inert⟩
  have idle : text.foldlM nest brackets = some brackets := by
    clear inert
    induction text with
    | nil => rfl
    | cons c rest ih =>
      rw [List.forall_mem_cons] at plain
      have ordinary := of_decide_eq_true (Bool.and_eq_true_iff.mp plain.1).2
      rw [List.foldlM_cons, nest_of_ordinary ordinary]
      exact ih plain.2
  rw [Nesting.foldlM_outside fun c member => (isInert_iff.mp (inert c member)).1, idle]
  rfl

/-- Between backticks a text is read inside quotes where the whole is read outside, and outside
where the whole is read inside. -/
theorem Neutral.enclosed (neutral : Neutral text) : Neutral ('\x60' :: (text ++ ['\x60'])) := by
  constructor
  · intro brackets
    rw [List.foldlM_cons, Nesting.read_outside_quote rfl, Option.bind_eq_bind, Option.bind_some,
      List.foldlM_append, neutral.inside]
    exact Nesting.read_within_quote (by decide) brackets
  · intro brackets
    rw [List.foldlM_cons, Nesting.read_within_quote (by decide), Option.bind_eq_bind,
      Option.bind_some, List.foldlM_append, neutral.outside]
    have opens : (Nesting.outside brackets).read '\x60' = some (.within '\x60' brackets) :=
      Nesting.read_outside_quote rfl brackets
    exact opens

/-- A text between two quotes that it does not have inside, and that end no template around it. -/
theorem neutral_of_quoted {body : List Char} (isOpening : isQuote quote = true)
    (apart : quote ≠ '\x60') (noQuote : quote ∉ body) (noEscape : '\\' ∉ body)
    (noBacktick : '\x60' ∉ body) : Neutral (quote :: (body ++ [quote])) := by
  have notEscape : quote ≠ '\\' := by
    rintro rfl
    cases isOpening
  constructor
  · intro brackets
    rw [List.foldlM_cons, Nesting.read_outside_quote isOpening, Option.bind_eq_bind,
      Option.bind_some, List.foldlM_append, Nesting.foldlM_within noQuote noEscape]
    exact Nesting.read_within_quote notEscape brackets
  · refine Nesting.foldlM_within ?_ ?_
    · simp [noBacktick, Ne.symm apart]
    · simp [noEscape, Ne.symm notEscape]

end Code

namespace Segment

variable {segments : List Segment}

theorem inert_separated (nodes : List Node) : (marks (separated nodes)).all isInert = true := by
  simp +decide [marks_separated, List.all_flatten, List.all_replicate]

theorem inert_ended (nodes : List Node) : (marks (ended nodes)).all isInert = true := by
  simp +decide [marks_ended, List.all_replicate]

theorem inert_templatePieces (quasis expressions : List Node) :
    (marks (templatePieces quasis expressions)).all isInert = true := by
  simp +decide [marks_templatePieces, List.all_flatten, List.all_replicate]

theorem word_notMem_templatePieces (text : String) (quasis expressions : List Node) :
    .word text ∉ templatePieces quasis expressions := by
  induction quasis, expressions using templatePieces.induct with
  | case1 => simp [templatePieces]
  | case2 quasi quasis ih => simpa [templatePieces] using ih
  | case3 quasi quasis expression expressions ih => simpa [templatePieces] using ih

theorem inert_inBraces (inert : (marks segments).all isInert = true) :
    (marks (inBraces segments)).all isInert = true := by
  unfold inBraces
  split <;> simp +decide [inert]

theorem inert_bracedBody (node : Node) :
    (marks (inBraces (statementBody node))).all isInert = true := by
  refine inert_inBraces ?_
  unfold statementBody
  split <;> rfl

theorem inert_elseBranch (node : Option Node) : (marks (elseBranch node)).all isInert = true := by
  cases node with
  | none => rfl
  | some node =>
    rw [elseBranch, marks_mark, List.all_append]
    split
    · rfl
    · simp +decide [inert_bracedBody]

/-- Segments that each leave the state of a reader as it is do so together. -/
theorem foldlM_rendered_of_idle {σ : Type} {read : σ → Char → Option σ} {state : σ}
    (idle : ∀ segment ∈ segments, segment.text.toList.foldlM read state = some state) :
    (rendered segments).toList.foldlM read state = some state := by
  induction segments with
  | nil => rfl
  | cons segment rest ih =>
    rw [List.forall_mem_cons] at idle
    rw [rendered_cons, String.toList_append, List.foldlM_append, idle.1]
    exact ih idle.2

/-- Segments are neutral if what stands between their marks is and the marks are inert and properly
nested: inside a template the marks are copied, and outside their brackets fit each other. -/
theorem neutral_rendered (inert : (marks segments).all isInert = true)
    (balanced : Balanced (marks segments))
    (words : ∀ text, .word text ∈ segments → Neutral text.toList)
    (parts : ∀ node, .part node ∈ segments → Neutral node.text.toList) :
    Neutral (rendered segments).toList := by
  have inertMark : ∀ text, .mark text ∈ segments → ∀ c ∈ text.toList, isInert c = true :=
    fun text member c inText =>
      List.all_eq_true.mp inert c (List.mem_flatMap.mpr ⟨.mark text, member, inText⟩)
  constructor
  · intro brackets
    have each : ∀ segment ∈ segments, ∀ brackets,
        segment.text.toList.foldlM Nesting.read (.outside brackets) =
          (segment.punctuation.foldlM nest brackets).map .outside := by
      intro segment member brackets
      cases segment with
      | mark text =>
        refine Nesting.foldlM_outside (fun c inText => ?_) brackets
        exact (isInert_iff.mp (inertMark text member c inText)).1
      | word text => exact (words text member).outside brackets
      | part node => exact (parts node member).outside brackets
    rw [foldlM_rendered each, balanced.foldlM_nest]
    rfl
  · intro brackets
    refine foldlM_rendered_of_idle fun segment member => ?_
    cases segment with
    | mark text => exact foldlM_inTemplate (inertMark text member) brackets
    | word text => exact (words text member).inside brackets
    | part node => exact (parts node member).inside brackets

end Segment

/-- Only templates bring quotes, and no form brings escapes. -/
theorem Form.inert_marks {form : Form Node} (noTemplate : form.kind ≠ .templateLiteral) :
    (marks form.segments).all isInert = true := by
  have bracedPart : ∀ node, (marks (inBraces [.part node])).all isInert = true :=
    fun node => inert_inBraces rfl
  cases form with
  | templateLiteral => exact absurd rfl noTemplate
  | objectExpression properties => exact inert_inBraces (inert_separated _)
  | returnStatement argument => cases argument <;> rfl
  | variableDeclarator id init => cases init <;> rfl
  | variableDeclaration keyword declarations =>
    cases keyword <;> simp +decide [segments, inert_separated]
  | arrowFunctionExpression params body isAsync =>
    rw [segments]
    split <;> simp +decide [inert_separated, bracedPart]
  | callExpression callee arguments optional =>
    cases optional <;> simp +decide [segments, inert_separated]
  | memberExpression object name computed optional => cases computed <;> cases optional <;> rfl
  | property key value computed shorthand => cases shorthand <;> cases computed <;> rfl
  | unaryExpression operator argument leading | updateExpression operator argument leading =>
    cases leading <;> rfl
  | _ =>
    simp +decide [segments, inert_separated, inert_ended, inert_bracedBody, inert_elseBranch,
      bracedPart]

namespace Node

/-- The text of a string. Scripts write it between two `'` or two `"`, and it has neither that quote
nor a backtick or a backslash inside. Only a tree that no script is parsed to has a string between
backticks: it ends a template that it stands in, so its body has to be as plain as other leaves. -/
inductive IsStringText (raw : String) : Prop where
  | quoted {quote : Char} {body : List Char} (isQuoted : quote = '\x27' ∨ quote = '\x22')
    (isRaw : raw.toList = quote :: (body ++ [quote])) (noQuote : quote ∉ body)
    (noEscape : '\\' ∉ body) (noBacktick : '\x60' ∉ body)
  | backquoted {body : List Char} (isRaw : raw.toList = '\x60' :: (body ++ ['\x60']))
    (plain : ∀ c ∈ body, isPlain c = true)

/-- Leaves that a scan for brackets reads over: what is no string has no quotes, escapes,
parentheses or braces. -/
structure LeavesPlain (root : Node) : Prop where
  strings : ∀ inner ∈ root.printed, ∀ raw, inner.form = .literal raw .string → IsStringText raw
  words : ∀ inner ∈ root.printed, (∀ raw, inner.form ≠ .literal raw .string) →
    ∀ word ∈ inner.words, ∀ c ∈ word.toList, isPlain c = true

variable {node part : Node}

theorem LeavesPlain.of_part (leaves : node.LeavesPlain) (isPart : part ∈ node.parts) :
    part.LeavesPlain :=
  ⟨fun inner member => leaves.strings inner (mem_printed_of_mem_parts isPart member),
    fun inner member => leaves.words inner (mem_printed_of_mem_parts isPart member)⟩

theorem neutral_string {raw : String} (isString : node.form = .literal raw .string)
    (leaves : node.LeavesPlain) : Neutral node.text.toList := by
  have isText : node.text = raw := by
    rw [text_eq_rendered, segments, isString]
    simp [Form.segments, Segment.text]
  rw [isText]
  cases leaves.strings node node.mem_printed_self raw isString with
  | quoted isQuoted isRaw noQuote noEscape noBacktick =>
    rw [isRaw]
    obtain rfl | rfl := isQuoted <;>
      exact neutral_of_quoted rfl (by decide) noQuote noEscape noBacktick
  | backquoted isRaw plain =>
    rw [isRaw]
    exact (neutral_of_plain plain).enclosed

theorem neutral_template {quasis expressions : List Node}
    (isTemplate : node.form = .templateLiteral quasis expressions)
    (below : ∀ part ∈ node.parts, Neutral part.text.toList) : Neutral node.text.toList := by
  have isText : node.text.toList =
      '\x60' :: ((rendered (templatePieces quasis expressions)).toList ++ ['\x60']) := by
    rw [text_eq_rendered, segments, isTemplate]
    simp [Form.segments, Segment.text]
  rw [isText]
  refine Neutral.enclosed (neutral_rendered (inert_templatePieces quasis expressions)
    (balanced_templatePieces quasis expressions) ?_ ?_)
  · exact fun text member => absurd member (word_notMem_templatePieces text quasis expressions)
  · intro part member
    refine below part (mem_parts.mpr ?_)
    rw [segments, isTemplate]
    simp [Form.segments, member]

/-- The text of a node with plain leaves keeps the reader as it was, whether the node is met outside
quotes or inside a template. -/
theorem neutral_text (leaves : node.LeavesPlain) : Neutral node.text.toList := by
  induction node using parts_induction with
  | step node ih =>
    have below : ∀ part ∈ node.parts, Neutral part.text.toList := fun part isPart =>
      ih part isPart (leaves.of_part isPart)
    by_cases isString : ∃ raw, node.form = .literal raw .string
    · obtain ⟨raw, isString⟩ := isString
      exact neutral_string isString leaves
    · by_cases isTemplate : node.kind = .templateLiteral
      · obtain ⟨quasis, expressions, isTemplate⟩ := exists_of_kind_templateLiteral isTemplate
        exact neutral_template isTemplate below
      · rw [text_eq_rendered]
        refine neutral_rendered (Form.inert_marks isTemplate) node.form.balanced_marks ?_ ?_
        · intro text member
          exact neutral_of_plain (leaves.words node node.mem_printed_self (not_exists.mp isString)
            text (mem_words.mpr member))
        · exact fun part member => below part (mem_parts.mpr member)

end Node

/-- Laying out the text of a node with plain leaves never takes a counter below zero, and ends with
both counters at zero and outside quotes. -/
theorem Node.layout_exact (root : Node) (leaves : root.LeavesPlain) :
    (∀ stop ∈ Layout.stops {} root.text.toList, stop.1.CountsDown stop.2) ∧
    (Layout.run {} root.text.toList).depth = 0 ∧
    (Layout.run {} root.text.toList).parens = 0 ∧
    (Layout.run {} root.text.toList).quote = none := by
  have start : Layout.Tracks {} (.outside []) := ⟨rfl, rfl, rfl, rfl⟩
  have reads := (neutral_text leaves).outside []
  constructor
  · intro stop member
    obtain ⟨state, tracks, readsOn⟩ := start.of_mem_stops reads member
    exact tracks.countsDown readsOn
  · obtain ⟨state, tracks, readsOn⟩ := start.of_mem_stops reads (Layout.mem_stops_run {} _)
    obtain rfl := Option.some.inj readsOn
    exact ⟨tracks.depth, tracks.parens, tracks.quote⟩

/-- A string between backticks ends the template that it stands in, and what is inside is read as
code: a parenthesis there stays open. -/
example :
    let quasi : Node := ⟨default, .templateElement "a"⟩
    let text : Node := ⟨default, .literal "`(`" .string⟩
    let root : Node := ⟨default, .templateLiteral [quasi] [text]⟩
    (Layout.run {} root.text.toList).parens = 1 := by
  decide +kernel

/-- A call with a bracket in a string, inside a template that is read as code because it stands in
another one. -/
theorem Node.layout_exact_innerTemplate :
    let template inner : Node :=
      ⟨default, .templateLiteral [⟨default, .templateElement "; a"⟩] [inner]⟩
    let name : Node := ⟨default, .identifier "f"⟩
    let text : Node := ⟨default, .literal "'\x7b('" .string⟩
    let object : Node := ⟨default, .objectExpression []⟩
    let call : Node := ⟨default, .callExpression name [text, object] false⟩
    let root := template (template call)
    root.LeavesPlain ∧ beautify root.text =
        "`; a$\x7b`;\na$\x7b\n    f('\x7b(', \x7b\x7d)\n\x7d\n`\x7d`" ∧
      (∀ stop ∈ Layout.stops {} root.text.toList, stop.1.CountsDown stop.2) ∧
      (Layout.run {} root.text.toList).depth = 0 ∧
      (Layout.run {} root.text.toList).parens = 0 ∧
      (Layout.run {} root.text.toList).quote = none := by
  intro template name text object call root
  have isPrinted : root.printed = [root, ⟨default, .templateElement "; a"⟩, template call,
      ⟨default, .templateElement "; a"⟩, call, name, text, object] := by cbv
  have leaves : root.LeavesPlain := by
    constructor
    · rw [isPrinted]
      simp only [root, template, name, text, object, call, List.forall_mem_cons, reduceCtorEq,
        false_implies, implies_true, true_and]
      refine ⟨?_, List.forall_mem_nil _⟩
      rintro _ ⟨⟩
      exact .quoted (.inl rfl) (show _ = '\x27' :: ("\x7b(".toList ++ ['\x27']) from rfl)
        (by decide) (by decide) (by decide)
    · have checked : ∀ inner : Node, (inner.words.all fun word => word.toList.all isPlain) = true →
          ∀ word ∈ inner.words, ∀ c ∈ word.toList, isPlain c = true := by
        simp only [List.all_eq_true, imp_self, implies_true]
      rw [isPrinted]
      simp only [List.forall_mem_cons]
      refine ⟨fun _ => ?_, fun _ => ?_, fun _ => ?_, fun _ => ?_, fun _ => ?_, fun _ => ?_,
        fun other => absurd rfl (other _), fun _ => ?_, List.forall_mem_nil _⟩
      all_goals exact checked _ (by decide)
  exact ⟨leaves, by decide +kernel, layout_exact root leaves⟩

end ScriptLint
