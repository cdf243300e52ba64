import ScriptLint.Proofs.Code.Segments

/-!
# Brackets in reconstructed code

Properly nested texts are given by a grammar, and a reader that keeps the closing brackets it waits
for accepts exactly these. The punctuation that a node brings is properly nested whatever stands
between it, so a text printed from properly nested leaves is properly nested itself.
-/

namespace ScriptLint

namespace Code

/-- The bracket that closes an opening one. -/
def closing? (c : Char) : Option Char :=
  if c = '(' then some ')'
  else if c = '[' then some ']'
  else if c = '\x7b' then some '\x7d'
  else none

def isClosing (c : Char) : Bool :=
  c = ')' || c = ']' || c = '\x7d'

/-- The text is properly nested in round, square and curly brackets. -/
inductive Balanced : List Char → Prop where
  | empty : Balanced []
  | plain {c : Char} (notOpening : closing? c = none) (notClosing : isClosing c = false) :
      Balanced [c]
  | append {first second : List Char} (balanced : Balanced first) (balancedToo : Balanced second) :
      Balanced (first ++ second)
  | enclosed {opening closing : Char} {inner : List Char} (closes : closing? opening = some closing)
      (balanced : Balanced inner) : Balanced (opening :: (inner ++ [closing]))

/-- Reads one character on, with the closing brackets that are awaited, innermost first. -/
def await (awaited : List Char) (c : Char) : Option (List Char) :=
  match closing? c with
  | some closing => some (closing :: awaited)
  | none =>
    if isClosing c then if awaited.head? = some c then some awaited.tail else none
    else some awaited

variable {text first second awaited after : List Char} {c opening closing : Char}

theorem closes_cases (closes : closing? opening = some closing) :
    opening = '(' ∧ closing = ')' ∨ opening = '[' ∧ closing = ']' ∨
      opening = '\x7b' ∧ closing = '\x7d' := by
  unfold closing? at closes
  repeat' split at closes
  all_goals cases closes <;> simp_all

/-- What one character can do to the awaited brackets. -/
theorem await_cases (step : await awaited c = some after) :
    (∃ closing, closing? c = some closing ∧ after = closing :: awaited) ∨
      isClosing c = true ∧ awaited = c :: after ∨
      (closing? c = none ∧ isClosing c = false) ∧ after = awaited := by
  unfold await at step
  split at step
  · next closing opens => exact .inl ⟨closing, opens, (Option.some.inj step).symm⟩
  · next notOpening =>
    split at step
    · next closes =>
      split at step
      · next fits =>
        obtain ⟨outer, rfl⟩ := List.head?_eq_some_iff.mp fits
        cases step
        exact .inr (.inl ⟨closes, rfl⟩)
      · cases step
    · next notClosing =>
      have plain : closing? c = none ∧ isClosing c = false :=
        ⟨notOpening, by simpa using notClosing⟩
      exact .inr (.inr ⟨plain, (Option.some.inj step).symm⟩)

theorem Balanced.foldlM_await (balanced : Balanced text) (awaited : List Char) :
    text.foldlM await awaited = some awaited := by
  induction balanced generalizing awaited with
  | empty => rfl
  | plain notOpening notClosing => simp [await, notOpening, notClosing]
  | append _ _ ih ihToo =>
    rw [List.foldlM_append, ih]
    exact ihToo awaited
  | enclosed closes _ ih =>
    obtain ⟨rfl, rfl⟩ | ⟨rfl, rfl⟩ | ⟨rfl, rfl⟩ := closes_cases closes
    all_goals simp [await, closing?, isClosing, ih]

/-- The text closes the awaited brackets one after the other and is properly nested before, between
and behind them. -/
def Completes : (awaited text : List Char) → Prop
  | [], text => Balanced text
  | closing :: awaited, text =>
    ∃ inner rest, text = inner ++ closing :: rest ∧ Balanced inner ∧ Completes awaited rest

theorem Completes.prepend (completes : Completes awaited second) (balanced : Balanced first) :
    Completes awaited (first ++ second) := by
  cases awaited with
  | nil => exact balanced.append completes
  | cons closing awaited =>
    obtain ⟨inner, rest, rfl, nested, completes⟩ := completes
    exact ⟨first ++ inner, rest, by rw [List.append_assoc], balanced.append nested, completes⟩

theorem completes_of_foldlM (reads : text.foldlM await awaited = some []) :
    Completes awaited text := by
  induction text generalizing awaited with
  | nil =>
    obtain rfl : awaited = [] := Option.some.inj reads
    exact .empty
  | cons c rest ih =>
    obtain ⟨after, step, reads⟩ := Option.bind_eq_some_iff.mp reads
    have completes := ih reads
    obtain ⟨closing, opens, rfl⟩ | ⟨-, rfl⟩ | ⟨⟨notOpening, notClosing⟩, rfl⟩ := await_cases step
    · -- What follows closes this bracket first, and the awaited ones after it.
      obtain ⟨inner, behind, rfl, nested, completes⟩ := completes
      simpa using completes.prepend (.enclosed opens nested)
    · exact ⟨[], rest, rfl, .empty, completes⟩
    · exact completes.prepend (.plain notOpening notClosing)

/-- A text is properly nested exactly if it can be read on to its end with nothing awaited there. -/
theorem balanced_iff : Balanced text ↔ text.foldlM await [] = some [] :=
  ⟨fun balanced => balanced.foldlM_await [], completes_of_foldlM⟩

instance : DecidablePred Balanced := fun _ =>
  decidable_of_iff _ balanced_iff.symm

theorem balanced_flatten_replicate (balanced : Balanced text) (count : Nat) :
    Balanced (List.replicate count text).flatten := by
  induction count with
  | zero => exact .empty
  | succ count ih => exact balanced.append ih

end Code

open Code

namespace Segment

/-! ## Marks -/

/-- The characters of a mark. -/
def punctuation : Segment → List Char
  | .mark text => text.toList
  | _ => []

/-- The punctuation and keywords of segments that follow each other. -/
def marks (segments : List Segment) : List Char :=
  segments.flatMap punctuation

variable {segments : List Segment}

@[simp] theorem marks_nil : marks [] = [] := rfl

@[simp] theorem marks_mark (text : String) :
    marks (.mark text :: segments) = text.toList ++ marks segments := rfl

@[simp] theorem marks_word (text : String) : marks (.word text :: segments) = marks segments := rfl

@[simp] theorem marks_part (node : Node) : marks (.part node :: segments) = marks segments := rfl

@[simp] theorem marks_append (first second : List Segment) :
    marks (first ++ second) = marks first ++ marks second :=
  List.flatMap_append

theorem marks_separated (nodes : List Node) :
    marks (separated nodes) = (List.replicate (nodes.length - 1) [',', ' ']).flatten := by
  induction nodes using separated.induct with
  | case1 => rfl
  | case2 node => rfl
  | case3 node rest more ih =>
    cases rest with
    | nil => exact absurd rfl more
    | cons next rest =>
      rw [separated, marks_part, marks_mark, ih]
      · rfl
      · exact more

theorem marks_ended (nodes : List Node) :
    marks (ended nodes) = (List.replicate nodes.length [';']).flatten := by
  induction nodes with
  | nil => rfl
  | cons node rest ih =>
    have split : ended (node :: rest) = .part node :: .mark ";" :: ended rest := rfl
    rw [split, marks_part, marks_mark, ih]
    rfl

theorem marks_templatePieces (quasis expressions : List Node) :
    marks (templatePieces quasis expressions) =
      (List.replicate (min quasis.length expressions.length) ['$', '\x7b', '\x7d']).flatten := by
  induction quasis, expressions using templatePieces.induct with
  | case1 => simp [templatePieces]
  | case2 quasi quasis ih => simpa [templatePieces] using ih
  | case3 quasi quasis expression expressions ih =>
    simp [templatePieces, ih, Nat.succ_min_succ, List.replicate_succ]

@[simp] theorem marks_present (node : Option Node) : marks (present node) = [] := by
  cases node <;> rfl

/-- Reading the text of segments comes to reading their marks, if every mark is read as such and
what stands between the marks changes nothing. -/
theorem foldlM_rendered {σ τ : Type} {read : σ → Char → Option σ} {readMark : τ → Char → Option τ}
    {embed : τ → σ}
    (each : ∀ segment ∈ segments, ∀ state, segment.text.toList.foldlM read (embed state) =
      (segment.punctuation.foldlM readMark state).map embed) (state : τ) :
    (rendered segments).toList.foldlM read (embed state) =
      ((marks segments).foldlM readMark state).map embed := by
  induction segments generalizing state with
  | nil => rfl
  | cons segment rest ih =>
    rw [List.forall_mem_cons] at each
    rw [rendered_cons, String.toList_append, List.foldlM_append, each.1, marks, List.flatMap_cons,
      List.foldlM_append]
    cases segment.punctuation.foldlM readMark state with
    | none => rfl
    | some next => exact ih each.2 next

theorem balanced_separated (nodes : List Node) : Balanced (marks (separated nodes)) := by
  rw [marks_separated]
  exact balanced_flatten_replicate (by decide) _

theorem balanced_ended (nodes : List Node) : Balanced (marks (ended nodes)) := by
  rw [marks_ended]
  exact balanced_flatten_replicate (by decide) _

theorem balanced_templatePieces (quasis expressions : List Node) :
    Balanced (marks (templatePieces quasis expressions)) := by
  rw [marks_templatePieces]
  exact balanced_flatten_replicate (by decide) _

theorem balanced_inBraces (balanced : Balanced (marks segments)) :
    Balanced (marks (inBraces segments)) := by
  rw [balanced_iff, inBraces]
  split <;> simp [await, closing?, isClosing, balanced.foldlM_await]

theorem balanced_bracedPart (node : Node) : Balanced (marks (inBraces [.part node])) :=
  balanced_inBraces .empty

theorem balanced_bracedBody (node : Node) : Balanced (marks (inBraces (statementBody node))) := by
  refine balanced_inBraces ?_
  unfold statementBody
  split
  · exact .empty
  · exact .plain rfl rfl

theorem balanced_elseBranch (node : Option Node) : Balanced (marks (elseBranch node)) := by
  cases node with
  | none => exact .empty
  | some node =>
    rw [elseBranch, marks_mark]
    refine Balanced.append (by decide) ?_
    split
    · exact .empty
    · exact balanced_bracedBody node

end Segment

open Segment

/-- The punctuation of a form is properly nested, with any of its optional parts left out. -/
theorem Form.balanced_marks (form : Form Node) : Balanced (marks form.segments) := by
  have list := fun nodes => (balanced_separated nodes).foldlM_await
  have part := fun node => (balanced_bracedPart node).foldlM_await
  have body := fun node => (balanced_bracedBody node).foldlM_await
  have branch := fun node => (balanced_elseBranch node).foldlM_await
  have pieces := fun quasis expressions => (balanced_templatePieces quasis expressions).foldlM_await
  rw [balanced_iff]
  cases form with
  | blockStatement statements => exact (balanced_ended statements).foldlM_await []
  | objectExpression properties =>
    exact (balanced_inBraces (balanced_separated _)).foldlM_await []
  | variableDeclaration keyword declarations =>
    cases keyword <;> simp [segments, VarKind.keyword, await, closing?, isClosing, list]
  | arrowFunctionExpression params body isAsync =>
    rw [segments]
    split <;> simp [await, closing?, isClosing, list, part]
  | returnStatement argument => cases argument <;> rfl
  | variableDeclarator id init => cases init <;> rfl
  | callExpression callee arguments optional =>
    cases optional <;> simp [segments, await, closing?, isClosing, list]
  | memberExpression object name computed optional => cases computed <;> cases optional <;> rfl
  | property key value computed shorthand => cases shorthand <;> cases computed <;> rfl
  | unaryExpression operator argument leading | updateExpression operator argument leading =>
    cases leading <;> rfl
  | _ => simp [segments, await, closing?, isClosing, list, part, body, branch, pieces]

namespace Node

/-- A node is printed as properly nested text if all names, operators and raw texts printed with it
are. -/
theorem balanced_text (root : Node)
    (leaves : ∀ inner ∈ root.printed, ∀ word ∈ inner.words, Balanced word.toList) :
    Balanced root.text.toList := by
  induction root using parts_induction with
  | step node ih =>
    have each : ∀ segment ∈ node.segments, ∀ awaited,
        segment.text.toList.foldlM await (id awaited) =
          (segment.punctuation.foldlM await awaited).map id := by
      intro segment member awaited
      rw [Option.map_id]
      cases segment with
      | mark text => rfl
      | word text =>
        exact (leaves node node.mem_printed_self text (mem_words.mpr member)).foldlM_await awaited
      | part part =>
        have isPart := mem_parts.mpr member
        have below : Balanced part.text.toList := ih part isPart fun inner printed =>
          leaves inner (mem_printed_of_mem_parts isPart printed)
        exact below.foldlM_await awaited
    rw [text_eq_rendered, balanced_iff]
    refine (foldlM_rendered each []).trans ?_
    rw [segments, node.form.balanced_marks.foldlM_await]
    rfl

/-- A call with an object and a template for arguments; a method is left out of the object, and the
raw texts have brackets of their own. -/
theorem balanced_text_optionalCall :
    let name text : Node := ⟨default, .identifier text⟩
    let element raw : Node := ⟨default, .templateElement raw⟩
    let pattern : Node := ⟨default, .literal "/[a](b)/" .regExp⟩
    let entry : Node := ⟨default, .property (name "k") pattern true false⟩
    let method : Node := ⟨default, .other "method_definition" []⟩
    let object : Node := ⟨default, .objectExpression [entry, method]⟩
    let template : Node := ⟨default, .templateLiteral [element "\x7bx\x7d", element ""] [name "y"]⟩
    let root : Node := ⟨default, .callExpression (name "f") [object, template] true⟩
    (∀ inner ∈ root.printed, ∀ word ∈ inner.words, Balanced word.toList) ∧
      root.text = "f?.(\x7b [k]: /[a](b)/ \x7d, `\x7bx\x7d$\x7by\x7d`)" ∧
      Balanced root.text.toList := by
  intro name element pattern entry method object template root
  have called : root.parts = [name "f", object, template] := rfl
  have listed : object.parts = [entry] := rfl
  have entered : entry.parts = [name "k", pattern] := rfl
  have pieced : template.parts = [element "\x7bx\x7d", name "y", element ""] := rfl
  have nameless : ∀ text, (name text).parts = [] := fun _ => rfl
  have unpieced : ∀ raw, (element raw).parts = [] := fun _ => rfl
  have whole : pattern.parts = [] := rfl
  have isPrinted : root.printed = [root, name "f", object, entry, name "k", pattern, template,
      element "\x7bx\x7d", name "y", element ""] := by
    simp only [printed_eq, called, listed, entered, pieced, nameless, unpieced, whole,
      List.flatMap_cons, List.flatMap_nil, List.cons_append, List.nil_append]
  have leaves : ∀ inner ∈ root.printed, ∀ word ∈ inner.words, Balanced word.toList := by
    rw [isPrinted]
    decide
  exact ⟨leaves, by decide +kernel, balanced_text root leaves⟩

end Node

end ScriptLint
