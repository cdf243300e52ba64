import ScriptLint.Proofs.Code.Segments
import ScriptLint.Proofs.Code.Spacing

/-!
# Quoted contents in reconstructed code

The layout scan tells quoted text by one quote at a time. Where that is how a node's text is quoted,
with no quote characters outside string literals and templates and no backtick inside a
substitution, every string literal and every piece of a template is displayed as it stands. A
template inside a substitution of another one is not: the scan takes its backticks for the end of
the outer one.
-/

namespace ScriptLint

open Code Segment

namespace Code.Quotes

variable {text first second body : List Char} {pieces more : List (List Char)} {quote last : Char}

/-! ## Texts that the scan leaves as it entered them -/

/-- From outside quotes to outside quotes, with these pieces closed on the way. -/
def Closes (text : List Char) (pieces : List (List Char)) : Prop :=
  ∀ closed, text.foldl read { closed } = { closed := closed ++ pieces }

/-- From inside a quote to inside the same quote. -/
def Stays (quote : Char) (text : List Char) : Prop :=
  ∀ closed piece, text.foldl read { closed, pending := some (quote, piece) } =
    { closed, pending := some (quote, piece ++ text) }

theorem Closes.scan_eq (closes : Closes text pieces) : scan text = { closed := pieces } :=
  closes []

theorem Closes.append (closes : Closes first pieces) (closesToo : Closes second more) :
    Closes (first ++ second) (pieces ++ more) := by
  intro closed
  rw [List.foldl_append, closes, closesToo, List.append_assoc]

theorem closes_of_bare (bare : ∀ c ∈ text, isQuote c = false) : Closes text [] := by
  intro closed
  rw [List.append_nil]
  induction text with
  | nil => rfl
  | cons c rest ih =>
    rw [List.forall_mem_cons] at bare
    have skipped : ({ closed } : Quotes).read c = { closed } := by simp [read, bare.1]
    rw [List.foldl_cons, skipped, ih bare.2]

theorem Stays.append (stays : Stays quote first) (staysToo : Stays quote second) :
    Stays quote (first ++ second) := by
  intro closed piece
  rw [List.foldl_append, stays, staysToo, List.append_assoc]

/-- Without its quote a text is read on to its end. -/
theorem exists_foldl_inside (noQuote : quote ∉ text) (closed : List (List Char))
    (piece : List Char) (escaped : Bool) :
    ∃ escaped', text.foldl read { closed, pending := some (quote, piece), escaped } =
        { closed, pending := some (quote, piece ++ text), escaped := escaped' } ∧
      ('\\' ∉ text → escaped = false → escaped' = false) := by
  induction text generalizing piece escaped with
  | nil => exact ⟨escaped, by simp, fun _ same => same⟩
  | cons c rest ih =>
    rw [List.mem_cons, not_or] at noQuote
    have step : ∃ next, Quotes.read { closed, pending := some (quote, piece), escaped } c =
        { closed, pending := some (quote, piece ++ [c]), escaped := next } ∧
        (c ≠ '\\' → escaped = false → next = false) := by
      cases escaped with
      | true => exact ⟨false, by simp [read], fun _ _ => rfl⟩
      | false =>
        by_cases isEscape : c = '\\'
        · exact ⟨true, by simp [read, isEscape], fun other => absurd isEscape other⟩
        · exact ⟨false, by simp [read, isEscape, Ne.symm noQuote.1], fun _ => id⟩
    obtain ⟨next, isNext, unescaped⟩ := step
    obtain ⟨escaped', isLast, unescapedToo⟩ := ih noQuote.2 (piece ++ [c]) next
    refine ⟨escaped', by rw [List.foldl_cons, isNext, isLast, List.append_assoc]; rfl, ?_⟩
    intro noEscape same
    rw [List.mem_cons, not_or] at noEscape
    exact unescapedToo noEscape.2 (unescaped (Ne.symm noEscape.1) same)

theorem stays_of_not_mem (noQuote : quote ∉ text) (noEscape : '\\' ∉ text) : Stays quote text := by
  intro closed piece
  obtain ⟨escaped, isLast, unescaped⟩ := exists_foldl_inside noQuote closed piece false
  rw [isLast, unescaped noEscape rfl]

/-- A backslash does not reach past the character behind it. -/
theorem stays_concat (noQuote : quote ∉ text) (otherQuote : last ≠ quote) (noEscape : last ≠ '\\') :
    Stays quote (text ++ [last]) := by
  intro closed piece
  obtain ⟨escaped, isLast, -⟩ := exists_foldl_inside noQuote closed piece false
  rw [List.foldl_append, isLast]
  cases escaped <;> simp [read, otherQuote, noEscape]

/-- A text between two quotes is one piece. -/
theorem Stays.closes (stays : Stays quote body) (isOpening : isQuote quote = true)
    (noEscape : quote ≠ '\\') :
    Closes (quote :: (body ++ [quote])) [quote :: (body ++ [quote])] := by
  intro closed
  have opened : ({ closed } : Quotes).read quote =
      { closed, pending := some (quote, [quote]) } := by
    simp [read, isOpening]
  rw [List.foldl_cons, opened, List.foldl_append, stays]
  simp [read, noEscape]

/-- The pieces that have been closed stand in the text, and the open one stands at its end. -/
theorem infix_of_mem_closed (text : List Char) :
    (∀ piece ∈ (scan text.reverse).closed, piece <:+: text.reverse) ∧
      ∀ quote piece, (scan text.reverse).pending = some (quote, piece) →
        piece <:+ text.reverse := by
  induction text with
  | nil =>
    refine ⟨List.forall_mem_nil _, ?_⟩
    rintro _ _ ⟨⟩
  | cons c older ih =>
    obtain ⟨isInfix, isSuffix⟩ := ih
    rw [scan_reverse_cons, List.reverse_cons]
    have grown : ∀ piece ∈ (scan older.reverse).closed, piece <:+: older.reverse ++ [c] :=
      fun piece member => (isInfix piece member).trans (List.prefix_append ..).isInfix
    cases known : (scan older.reverse).pending with
    | none =>
      simp only [read, known]
      split
      · refine ⟨grown, ?_⟩
        rintro _ _ ⟨⟩
        exact List.suffix_append ..
      · exact ⟨grown, fun _ _ isOpen => by cases known.symm.trans isOpen⟩
    | some opened =>
      obtain ⟨quote, piece⟩ := opened
      have extended : piece ++ [c] <:+ older.reverse ++ [c] := by
        obtain ⟨before, split⟩ := isSuffix quote piece known
        exact ⟨before, by rw [← List.append_assoc, split]⟩
      have openEnd : ∀ quote' piece', some (quote, piece ++ [c]) = some (quote', piece') →
          piece' <:+ older.reverse ++ [c] := by
        rintro _ _ ⟨⟩
        exact extended
      simp only [read, known]
      split
      · exact ⟨grown, openEnd⟩
      · split
        · exact ⟨grown, openEnd⟩
        · split
          · simp only [List.forall_mem_append, List.forall_mem_singleton]
            refine ⟨⟨grown, extended.isInfix⟩, ?_⟩
            rintro _ _ ⟨⟩
          · exact ⟨grown, openEnd⟩

/-! ## Quoted texts that the pieces have in them -/

/-- The scan comes out of the text as it went in, and each of the texts told by `quoted` stands in
one of the pieces it has closed. -/
def Covers (text : List Char) (quoted : String → Prop) : Prop :=
  ∃ pieces, Closes text pieces ∧ ∀ raw, quoted raw → ∃ piece ∈ pieces, raw.toList <:+: piece

theorem Covers.rendered {segments : List Segment} {quoted : Segment → String → Prop}
    (each : ∀ segment ∈ segments, Covers segment.text.toList (quoted segment)) :
    Covers (Segment.rendered segments).toList
      fun raw => ∃ segment ∈ segments, quoted segment raw := by
  induction segments with
  | nil =>
    refine ⟨[], closes_of_bare (List.forall_mem_nil _), ?_⟩
    rintro _ ⟨_, inNothing, -⟩
    cases inNothing
  | cons segment rest ih =>
    rw [List.forall_mem_cons] at each
    obtain ⟨pieces, closes, found⟩ := each.1
    obtain ⟨more, closesToo, foundToo⟩ := ih each.2
    refine ⟨pieces ++ more, ?_, ?_⟩
    · rw [Segment.rendered_cons, String.toList_append]
      exact closes.append closesToo
    · rintro raw ⟨segment', isSegment, isQuoted⟩
      rcases List.mem_cons.mp isSegment with rfl | later
      · obtain ⟨piece, member, isInfix⟩ := found raw isQuoted
        exact ⟨piece, List.mem_append_left _ member, isInfix⟩
      · obtain ⟨piece, member, isInfix⟩ := foundToo raw ⟨segment', later, isQuoted⟩
        exact ⟨piece, List.mem_append_right _ member, isInfix⟩

/-- Laying code out leaves what the pieces have in them as it stands. -/
theorem Covers.infix_beautify {code raw : String} {quoted : String → Prop}
    (covers : Covers code.toList quoted) (isQuoted : quoted raw) :
    raw.toList <:+: (beautify code).toList := by
  obtain ⟨pieces, closes, found⟩ := covers
  obtain ⟨piece, member, isInfix⟩ := found raw isQuoted
  have outside : (Layout.run {} code.toList).quote = none := by
    rw [quote_run, closes.scan_eq]
    rfl
  have kept : (scan (beautify code).toList).closed = pieces := by
    rw [scan_beautify outside, closes.scan_eq]
  have inLayout := (infix_of_mem_closed (beautify code).toList.reverse).1 piece
  rw [List.reverse_reverse, kept] at inLayout
  exact isInfix.trans (inLayout member)

end Code.Quotes

open Quotes

namespace Node

/-! ## Conditions -/

/-- The node is printed with a string literal or a piece of a template that has this raw text. -/
def PrintsQuoted (node : Node) (raw : String) : Prop :=
  ∃ inner ∈ node.printed, inner.form = .literal raw .string ∨ inner.form = .templateElement raw

/-- Raw texts as they are written without escapes: string literals between two quotes that they do
not have inside, pieces of templates without backticks. -/
structure RawsUnescaped (root : Node) : Prop where
  strings : ∀ inner ∈ root.printed, ∀ raw, inner.form = .literal raw .string →
    ∃ quote body, raw.toList = quote :: (body ++ [quote]) ∧ isQuote quote = true ∧
      quote ∉ body ∧ '\\' ∉ body
  elements : ∀ inner ∈ root.printed, ∀ raw, inner.form = .templateElement raw →
    '\x60' ∉ raw.toList ∧ '\\' ∉ raw.toList

/-- Quotes do not nest. Outside templates only string literals have quote characters in them, and
templates are made of template text and of substitutions without backticks. -/
structure QuotesFlat (root : Node) : Prop where
  words : ∀ inner ∈ root.surface, (∀ raw, inner.form ≠ .literal raw .string) →
    ∀ word ∈ inner.words, ∀ c ∈ word.toList, isQuote c = false
  elements : ∀ inner ∈ root.surface, inner.kind ≠ .templateElement
  templates : ∀ inner ∈ root.surface, ∀ quasis expressions,
    inner.form = .templateLiteral quasis expressions →
      (∀ quasi ∈ quasis, quasi.kind = .templateElement) ∧
      ∀ expression ∈ expressions, '\x60' ∉ expression.text.toList

variable {node part inner : Node} {raw : String}

theorem text_of_quoted
    (quoted : inner.form = .literal raw .string ∨ inner.form = .templateElement raw) :
    inner.text = raw := by
  obtain ⟨span, form⟩ := inner
  rcases quoted with rfl | rfl <;> simp [Node.text, Form.text]

theorem exists_of_kind_templateElement (isElement : node.kind = .templateElement) :
    ∃ raw, node.form = .templateElement raw := by
  obtain ⟨span, form⟩ := node
  cases form with
  | templateElement raw => exact ⟨raw, rfl⟩
  | _ => cases isElement

theorem mem_surface_self (node : Node) : node ∈ node.surface :=
  mem_reached_iff.mpr (.inl rfl)

theorem RawsUnescaped.of_part (unescaped : node.RawsUnescaped) (isPart : part ∈ node.parts) :
    part.RawsUnescaped :=
  ⟨fun inner member => unescaped.strings inner (mem_printed_of_mem_parts isPart member),
    fun inner member => unescaped.elements inner (mem_printed_of_mem_parts isPart member)⟩

theorem QuotesFlat.of_part (flat : node.QuotesFlat) (noTemplate : node.kind ≠ .templateLiteral)
    (isPart : part ∈ node.parts) : part.QuotesFlat := by
  have onSurface : ∀ inner ∈ part.surface, inner ∈ node.surface := fun inner member =>
    mem_reached_iff.mpr (.inr ⟨by simpa using noTemplate, part, isPart, member⟩)
  exact ⟨fun inner member => flat.words inner (onSurface inner member),
    fun inner member => flat.elements inner (onSurface inner member),
    fun inner member => flat.templates inner (onSurface inner member)⟩

/-! ## Nodes -/

theorem mem_templatePieces_of_mem_quasis {quasi : Node} {quasis expressions : List Node}
    (member : quasi ∈ quasis) : .part quasi ∈ templatePieces quasis expressions := by
  induction quasis, expressions using templatePieces.induct with
  | case1 => cases member
  | case2 first quasis ih =>
    rcases List.mem_cons.mp member with rfl | later
    · simp [templatePieces]
    · simp [templatePieces, ih later]
  | case3 first quasis expression expressions ih =>
    rcases List.mem_cons.mp member with rfl | later
    · simp [templatePieces]
    · simp [templatePieces, ih later]

/-- The inside of a template is read on to its end. -/
theorem stays_templatePieces {quasis expressions : List Node}
    (texts : ∀ quasi ∈ quasis, '\x60' ∉ quasi.text.toList ∧ '\\' ∉ quasi.text.toList)
    (substituted : ∀ expression ∈ expressions, '\x60' ∉ expression.text.toList) :
    Stays '\x60' (rendered (templatePieces quasis expressions)).toList := by
  induction quasis, expressions using templatePieces.induct with
  | case1 => exact stays_of_not_mem List.not_mem_nil List.not_mem_nil
  | case2 quasi quasis ih =>
    rw [List.forall_mem_cons] at texts
    rw [templatePieces, rendered_cons, String.toList_append]
    exact (stays_of_not_mem texts.1.1 texts.1.2).append (ih texts.2 (List.forall_mem_nil _))
  | case3 quasi quasis expression expressions ih =>
    rw [List.forall_mem_cons] at texts substituted
    -- The brace that closes the substitution takes up a backslash at its end.
    have substitution : Stays '\x60' ("$\x7b".toList ++ expression.text.toList ++ ['\x7d']) := by
      refine stays_concat ?_ (by decide) (by decide)
      simpa using substituted.1
    have split : (rendered (templatePieces (quasi :: quasis) (expression :: expressions))).toList =
        quasi.text.toList ++ (("$\x7b".toList ++ expression.text.toList ++ ['\x7d']) ++
          (rendered (templatePieces quasis expressions)).toList) := by
      simp [templatePieces, Segment.text]
    rw [split]
    exact (stays_of_not_mem texts.1.1 texts.1.2).append
      (substitution.append (ih texts.2 substituted.2))

/-- Where the whole text of a node is one piece, that piece has everything quoted in it. -/
theorem covers_of_piece (closes : Closes node.text.toList [node.text.toList]) :
    Covers node.text.toList node.PrintsQuoted := by
  refine ⟨_, closes, ?_⟩
  rintro raw ⟨inner, member, isQuoted⟩
  rw [← text_of_quoted isQuoted]
  exact ⟨_, List.mem_singleton_self _, infix_of_mem_printed member⟩

theorem covers_template {quasis expressions : List Node}
    (isTemplate : node.form = .templateLiteral quasis expressions)
    (unescaped : node.RawsUnescaped) (flat : node.QuotesFlat) :
    Covers node.text.toList node.PrintsQuoted := by
  obtain ⟨ofElements, noBackticks⟩ :=
    flat.templates node node.mem_surface_self quasis expressions isTemplate
  have isSegments : node.segments =
      .mark "\x60" :: templatePieces quasis expressions ++ [.mark "\x60"] := by
    rw [segments, isTemplate, Form.segments]
  have texts : ∀ quasi ∈ quasis, '\x60' ∉ quasi.text.toList ∧ '\\' ∉ quasi.text.toList := by
    intro quasi member
    have isPart : quasi ∈ node.parts := by
      rw [mem_parts, isSegments]
      simp [mem_templatePieces_of_mem_quasis member]
    obtain ⟨raw, isElement⟩ := exists_of_kind_templateElement (ofElements quasi member)
    rw [text_of_quoted (.inr isElement)]
    exact unescaped.elements quasi (mem_printed_of_mem_parts isPart quasi.mem_printed_self) raw
      isElement
  have stays := stays_templatePieces texts noBackticks
  have isText : node.text.toList =
      '\x60' :: ((rendered (templatePieces quasis expressions)).toList ++ ['\x60']) := by
    rw [text_eq_rendered, isSegments]
    simp [Segment.text]
  apply covers_of_piece
  rw [isText]
  exact stays.closes (by decide) (by decide)

theorem covers_string (isString : node.form = .literal raw .string)
    (unescaped : node.RawsUnescaped) : Covers node.text.toList node.PrintsQuoted := by
  obtain ⟨quote, body, isRaw, isOpening, noQuote, noEscape⟩ :=
    unescaped.strings node node.mem_printed_self raw isString
  have noBackslash : quote ≠ '\\' := by
    rintro rfl
    cases isOpening
  apply covers_of_piece
  rw [text_of_quoted (.inl isString), isRaw]
  exact (stays_of_not_mem noQuote noEscape).closes isOpening noBackslash

/-- A node that brings no quotes of its own: its parts have everything quoted in them. -/
theorem covers_parts (noTemplate : node.kind ≠ .templateLiteral)
    (noString : ∀ raw, node.form ≠ .literal raw .string) (flat : node.QuotesFlat)
    (below : ∀ part ∈ node.parts, Covers part.text.toList part.PrintsQuoted) :
    Covers node.text.toList node.PrintsQuoted := by
  have each : ∀ segment ∈ node.segments, Covers segment.text.toList fun raw =>
      ∃ part ∈ segment.part?, part.PrintsQuoted raw := by
    intro segment member
    have plain := Form.plain_segments noTemplate segment member
    cases segment with
    | mark text =>
      have bare : ∀ c ∈ text.toList, isQuote c = false := by simpa using plain
      exact ⟨[], closes_of_bare bare, by simp [part?]⟩
    | word text =>
      have bare := flat.words node node.mem_surface_self noString text (mem_words.mpr member)
      exact ⟨[], closes_of_bare bare, by simp [part?]⟩
    | part part => simpa [part?, Segment.text] using below part (mem_parts.mpr member)
  obtain ⟨pieces, closes, found⟩ := Covers.rendered each
  rw [← text_eq_rendered] at closes
  refine ⟨pieces, closes, ?_⟩
  rintro raw ⟨inner, member, isQuoted⟩
  obtain rfl | ⟨-, part, isPart, inPart⟩ := mem_reached_iff.mp member
  · rcases isQuoted with isString | isElement
    · exact absurd isString (noString raw)
    · refine absurd ?_ (flat.elements inner inner.mem_surface_self)
      rw [kind, isElement]
      rfl
  · exact found raw ⟨.part part, mem_parts.mp isPart, part, rfl, inner, inPart, isQuoted⟩

theorem covers_text (unescaped : node.RawsUnescaped) (flat : node.QuotesFlat) :
    Covers node.text.toList node.PrintsQuoted := by
  induction node using parts_induction with
  | step node ih =>
    -- A string literal and a template are one piece each; any other node leaves it to its parts.
    by_cases isString : ∃ raw, node.form = .literal raw .string
    · obtain ⟨raw, isString⟩ := isString
      exact covers_string isString unescaped
    · by_cases isTemplate : node.kind = .templateLiteral
      · obtain ⟨quasis, expressions, isTemplate⟩ := exists_of_kind_templateLiteral isTemplate
        exact covers_template isTemplate unescaped flat
      · refine covers_parts isTemplate (not_exists.mp isString) flat fun part isPart => ?_
        exact ih part isPart (unescaped.of_part isPart) (flat.of_part isTemplate isPart)

end Node

/-- The raw text of every string literal and every piece of a template that a node prints is
displayed as it stands, if quotes do not nest in it. -/
theorem quoted_infix_beautify {root : Node} {raw : String} (unescaped : root.RawsUnescaped)
    (flat : root.QuotesFlat) (quoted : root.PrintsQuoted raw) :
    raw.toList <:+: (beautify root.text).toList :=
  (Node.covers_text unescaped flat).infix_beautify quoted

theorem quoted_infix_beautify_sum :
    let element raw : Node := ⟨default, .templateElement raw⟩
    let text : Node := ⟨default, .literal "'\x7b ;'" .string⟩
    let name : Node := ⟨default, .identifier "y"⟩
    let template : Node := ⟨default, .templateLiteral [element "x; ", element " \x7d"] [name]⟩
    let root : Node := ⟨default, .binaryExpression "+" text template⟩
    root.RawsUnescaped ∧ root.QuotesFlat ∧ root.PrintsQuoted " \x7d" ∧
      " \x7d".toList <:+: (beautify root.text).toList := by
  intro element text name template root
  have isPrinted : root.printed =
      [root, text, template, element "x; ", name, element " \x7d"] := by cbv
  have isSurface : root.surface = [root, text, template] := by cbv
  have unescaped : root.RawsUnescaped := by
    constructor
    · rw [isPrinted]
      simp only [root, text, template, element, name, List.forall_mem_cons, reduceCtorEq,
        false_implies, implies_true, true_and]
      refine ⟨?_, List.forall_mem_nil _⟩
      rintro _ ⟨⟩
      exact ⟨'\x27', "\x7b ;".toList, by decide⟩
    · rw [isPrinted]
      simp [root, text, template, element, name]
  have flat : root.QuotesFlat := by
    have rootWords : root.words = ["+"] := rfl
    have templateWords : template.words = [] := rfl
    have nameText : name.text = "y" := rfl
    have isElement : ∀ raw, (element raw).kind = .templateElement := fun _ => rfl
    constructor
    · rw [isSurface]
      simp only [List.forall_mem_cons, rootWords, templateWords]
      refine ⟨fun _ => ⟨?_, List.forall_mem_nil _⟩, fun other => absurd rfl (other _),
        fun _ => List.forall_mem_nil _, List.forall_mem_nil _⟩
      intro c member
      obtain rfl := List.mem_singleton.mp member
      rfl
    · rw [isSurface]
      simp [root, text, template, Node.kind, Form.kind]
    · rw [isSurface]
      simp [root, text, template, isElement, nameText]
  have quoted : root.PrintsQuoted " \x7d" :=
    ⟨element " \x7d", by rw [isPrinted]; simp, .inr rfl⟩
  exact ⟨unescaped, flat, quoted, quoted_infix_beautify unescaped flat quoted⟩

/-- The text of a template inside another one is taken for code and broken after its brace. -/
theorem inner_template_is_laid_out :
    let element raw : Node := ⟨default, .templateElement raw⟩
    let inner : Node := ⟨default, .templateLiteral [element "a \x7b b"] []⟩
    let root : Node := ⟨default, .templateLiteral [element "x", element ""] [inner]⟩
    root.RawsUnescaped ∧ root.PrintsQuoted "a \x7b b" ∧
      beautify root.text = "\x60x$\x7b\x60a \x7b\n    b\x60\x7d\x60" ∧
      ¬ "a \x7b b".toList <:+: (beautify root.text).toList := by
  intro element inner root
  have isPrinted : root.printed = [root, element "x", inner, element "a \x7b b", element ""] := by
    cbv
  refine ⟨?_, ⟨element "a \x7b b", by rw [isPrinted]; simp, .inr rfl⟩, ?_, ?_⟩
  · constructor
    · rw [isPrinted]
      simp [root, inner, element]
    · rw [isPrinted]
      simp [root, inner, element]
  · decide +kernel
  · decide +kernel

end ScriptLint
