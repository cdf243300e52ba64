import Mathlib.Data.List.Basic
import ScriptLint.Code.Beautify
import ScriptLint.Code.Reconstruct

/-!
# Segments of a reconstructed text

The text of a node, cut up: punctuation and keywords that its kind brings, words that the node
carries (names, operators, raw texts), and the texts of the sub-nodes that are printed. The segments
put together are the text, so what holds of marks, words and parts holds of texts by one induction
over the tree. Following the parts from a node gives every node that is printed with it.
-/

namespace ScriptLint

open Code

/-- A piece of the text of a node. -/
inductive Segment where
  /-- Punctuation and keywords. -/
  | mark (text : String)
  /-- A text that the node carries. -/
  | word (text : String)
  /-- The text of a sub-node. -/
  | part (node : Node)

namespace Segment

def text : Segment → String
  | .mark text | .word text => text
  | .part node => node.text

def word? : Segment → Option String
  | .word text => some text
  | _ => none

def part? : Segment → Option Node
  | .part node => some node
  | _ => none

theorem word?_eq_some_iff {segment : Segment} {text : String} :
    segment.word? = some text ↔ segment = .word text := by
  cases segment <;> simp [word?]

theorem part?_eq_some_iff {segment : Segment} {node : Node} :
    segment.part? = some node ↔ segment = .part node := by
  cases segment <;> simp [part?]

/-- The text of segments that follow each other. -/
def rendered (segments : List Segment) : String :=
  String.join (segments.map text)

@[simp] theorem rendered_nil : rendered [] = "" := rfl

@[simp] theorem rendered_cons (segment : Segment) (segments : List Segment) :
    rendered (segment :: segments) = segment.text ++ rendered segments := by
  simp [rendered]

@[simp] theorem rendered_append (first second : List Segment) :
    rendered (first ++ second) = rendered first ++ rendered second := by
  simp [rendered]

/-- The parts with a comma between each two. -/
def separated : List Node → List Segment
  | [] => []
  | [node] => [.part node]
  | node :: rest => .part node :: .mark ", " :: separated rest

/-- The parts with a semicolon after each. -/
def ended (nodes : List Node) : List Segment :=
  nodes.flatMap fun node => [.part node, .mark ";"]

/-- The segments in braces, with a space on each side unless they have no text. -/
def inBraces (segments : List Segment) : List Segment :=
  if rendered segments = "" then .mark "\x7b" :: segments ++ [.mark "\x7d"]
  else .mark "\x7b " :: segments ++ [.mark " \x7d"]

/-- The inside of a template. -/
def templatePieces : List Node → List Node → List Segment
  | [], _ => []
  | quasi :: quasis, [] => .part quasi :: templatePieces quasis []
  | quasi :: quasis, expression :: expressions =>
    .part quasi :: .mark "$\x7b" :: .part expression :: .mark "\x7d" ::
      templatePieces quasis expressions

/-- The inside of a statement body. -/
def statementBody (node : Node) : List Segment :=
  if node.kind = .blockStatement then [.part node] else [.part node, .mark ";"]

def present (node : Option Node) : List Segment :=
  node.toList.map .part

def elseBranch : Option Node → List Segment
  | none => []
  | some node =>
    .mark " else " ::
      if node.kind = .ifStatement then [.part node] else inBraces (statementBody node)

end Segment

theorem Node.texts_eq_map (nodes : List Node) : Node.texts nodes = nodes.map Node.text := by
  induction nodes with
  | nil => rfl
  | cons node rest ih => rw [texts, ih, List.map_cons]

namespace Segment

@[simp] theorem rendered_separated (nodes : List Node) :
    rendered (separated nodes) = commaJoined (Node.texts nodes) := by
  induction nodes using separated.induct with
  | case1 => rfl
  | case2 node => simp [separated, text, Node.texts, commaJoined]
  | case3 node rest more ih =>
    cases rest with
    | nil => exact absurd rfl more
    | cons next rest =>
      rw [separated, rendered_cons, rendered_cons, ih]
      · simp only [text, Node.texts, commaJoined, String.append_assoc]
      · exact more

@[simp] theorem rendered_ended (nodes : List Node) :
    rendered (ended nodes) = terminated (Node.texts nodes) := by
  induction nodes with
  | nil => rfl
  | cons node rest ih =>
    have split : ended (node :: rest) = .part node :: .mark ";" :: ended rest := rfl
    rw [split, rendered_cons, rendered_cons, ih]
    simp only [text, Node.texts, terminated, String.append_assoc]

@[simp] theorem rendered_inBraces (segments : List Segment) :
    rendered (inBraces segments) = braced (rendered segments) := by
  by_cases empty : rendered segments = ""
  · simp [inBraces, braced, text, empty]
  · simp [inBraces, braced, text, empty, String.append_assoc]

@[simp] theorem rendered_templatePieces (quasis expressions : List Node) :
    rendered (templatePieces quasis expressions) =
      templateInside (Node.texts quasis) (Node.texts expressions) := by
  induction quasis, expressions using templatePieces.induct with
  | case1 => rfl
  | case2 quasi quasis ih =>
    rw [templatePieces, rendered_cons, ih]
    rfl
  | case3 quasi quasis expression expressions ih =>
    rw [templatePieces, rendered_cons, rendered_cons, rendered_cons, rendered_cons, ih]
    simp only [text, Node.texts, templateInside, String.append_assoc]

@[simp] theorem rendered_statementBody (node : Node) :
    rendered (statementBody node) = bodyInside node.kind node.text := by
  unfold statementBody bodyInside
  split <;> simp [text]

@[simp] theorem rendered_present (node : Option Node) :
    rendered (present node) = Node.optionalText node := by
  cases node with
  | none => rfl
  | some node => simp [present, text, Node.optionalText]

@[simp] theorem rendered_elseBranch (node : Option Node) :
    rendered (elseBranch node) = Node.elseText node := by
  cases node with
  | none => rfl
  | some node =>
    simp only [elseBranch, Node.elseText, rendered_cons]
    split <;> simp [text, bodyBraced]

end Segment

open Segment

/-- The segments of the text of a form. -/
def Form.segments : Form Node → List Segment
  | .arrayExpression elements => .mark "[" :: separated elements ++ [.mark "]"]
  | .arrowFunctionExpression params body _ =>
    .mark "(" :: separated params ++ .mark ") => " ::
      (if body.kind = .blockStatement then inBraces [.part body] else [.part body])
  | .assignmentExpression operator left right
  | .binaryExpression operator left right
  | .logicalExpression operator left right =>
    [.part left, .mark " ", .word operator, .mark " ", .part right]
  | .blockStatement body => ended body
  | .callExpression callee arguments optional =>
    .part callee :: .mark (if optional then "?." else "") :: .mark "(" :: separated arguments ++
      [.mark ")"]
  | .newExpression callee arguments =>
    .mark "new " :: .part callee :: .mark "(" :: separated arguments ++ [.mark ")"]
  | .conditionalExpression test consequent alternate =>
    [.mark "(", .part test, .mark " ? ", .part consequent, .mark " : ", .part alternate, .mark ")"]
  | .expressionStatement expression => [.part expression]
  | .forInStatement left right body =>
    [.mark "for (", .part left, .mark " in ", .part right, .mark ") "] ++
      inBraces (statementBody body)
  | .forOfStatement left right body =>
    [.mark "for (", .part left, .mark " of ", .part right, .mark ") "] ++
      inBraces (statementBody body)
  | .forStatement init test update body =>
    .mark "for (" :: present init ++ .mark "; " :: present test ++ .mark "; " ::
      present update ++ .mark ") " :: inBraces (statementBody body)
  | .functionDeclaration id _ body _ _ =>
    .mark "function " :: present id ++ .mark " " :: inBraces [.part body]
  | .functionExpression _ params body _ _ =>
    .mark "function (" :: separated params ++ .mark ") " :: inBraces [.part body]
  | .identifier name => [.word name]
  | .ifStatement test consequent alternate =>
    [.mark "if (", .part test, .mark ") "] ++ inBraces (statementBody consequent) ++
      elseBranch alternate
  | .literal raw _ => [.word raw]
  | .memberExpression object name computed optional =>
    if computed then
      [.part object, .mark (if optional then "?." else ""), .mark "[", .part name, .mark "]"]
    else [.part object, .mark (if optional then "?." else "."), .part name]
  | .objectExpression properties =>
    inBraces (separated (properties.filter fun property => property.text ≠ ""))
  | .property key value computed shorthand =>
    if shorthand then [.part key]
    else if computed then [.mark "[", .part key, .mark "]: ", .part value]
    else [.part key, .mark ": ", .part value]
  | .returnStatement none => [.mark "return"]
  | .returnStatement (some argument) => [.mark "return ", .part argument]
  | .sequenceExpression expressions => separated expressions
  | .templateElement raw => [.word raw]
  | .templateLiteral quasis expressions =>
    .mark "\x60" :: templatePieces quasis expressions ++ [.mark "\x60"]
  | .thisExpression => [.mark "this"]
  | .unaryExpression operator argument leading
  | .updateExpression operator argument leading =>
    if leading then [.word operator, .mark " ", .part argument]
    else [.part argument, .mark " ", .word operator]
  | .variableDeclaration keyword declarations =>
    .mark keyword.keyword :: .mark " " :: separated declarations
  | .variableDeclarator id none => [.part id]
  | .variableDeclarator id (some init) => [.part id, .mark " = ", .part init]
  | .whileStatement test body =>
    [.mark "while (", .part test, .mark ") "] ++ inBraces (statementBody body)
  | .program _ _ | .switchStatement _ _ | .switchCase _ _ | .doWhileStatement _ _
  | .tryStatement _ _ _ | .catchClause _ _ | .other _ _ => []

/-- The segments of a form make up its text. -/
theorem Form.text_eq_rendered (form : Form Node) : form.text = rendered form.segments := by
  cases form with
  | arrowFunctionExpression params body isAsync =>
    simp only [Form.text, segments]
    split <;> simp [Segment.text, String.append_assoc]
  | memberExpression object name computed optional =>
    simp only [Form.text, memberText, segments]
    split <;> simp [Segment.text, String.append_assoc]
  | objectExpression properties =>
    simp only [Form.text, segments, rendered_inBraces, rendered_separated, Node.texts_eq_map,
      List.filter_map]
    rfl
  | property key value computed shorthand =>
    simp only [Form.text, segments]
    split
    · simp [Segment.text]
    · split <;> simp [Segment.text, String.append_assoc]
  | unaryExpression operator argument leading | updateExpression operator argument leading =>
    simp only [Form.text, operatorText, segments]
    split <;> simp [Segment.text, String.append_assoc]
  | returnStatement argument => cases argument <;> simp [Form.text, segments, Segment.text]
  | variableDeclarator id init =>
    cases init <;> simp [Form.text, segments, Segment.text, String.append_assoc]
  | _ => simp [Form.text, segments, Segment.text, bodyBraced, String.append_assoc]

namespace Segment

variable {fields nodes : List Node} {segments : List Segment}

/-- No quotes stand in the marks, and the parts are among the fields. -/
def Plain (fields : List Node) (segments : List Segment) : Prop :=
  ∀ segment ∈ segments,
    match segment with
    | .mark text => text.toList.all (!isQuote ·) = true
    | .word _ => True
    | .part node => node ∈ fields

@[simp] theorem plain_nil : Plain fields [] :=
  List.forall_mem_nil _

@[simp] theorem plain_mark (text : String) :
    Plain fields (.mark text :: segments) ↔
      text.toList.all (!isQuote ·) = true ∧ Plain fields segments :=
  List.forall_mem_cons

@[simp] theorem plain_word (text : String) :
    Plain fields (.word text :: segments) ↔ Plain fields segments :=
  List.forall_mem_cons.trans (and_iff_right trivial)

@[simp] theorem plain_part (node : Node) :
    Plain fields (.part node :: segments) ↔ node ∈ fields ∧ Plain fields segments :=
  List.forall_mem_cons

@[simp] theorem plain_append (first second : List Segment) :
    Plain fields (first ++ second) ↔ Plain fields first ∧ Plain fields second :=
  List.forall_mem_append

@[simp] theorem plain_separated :
    Plain fields (separated nodes) ↔ ∀ node ∈ nodes, node ∈ fields := by
  induction nodes using separated.induct with
  | case1 => simp [separated]
  | case2 node => simp [separated]
  | case3 node rest more ih =>
    rw [separated, plain_part, plain_mark, ih, List.forall_mem_cons]
    · simp +decide
    · exact more

@[simp] theorem plain_ended : Plain fields (ended nodes) ↔ ∀ node ∈ nodes, node ∈ fields := by
  induction nodes with
  | nil => simp [ended]
  | cons node rest ih =>
    have split : ended (node :: rest) = .part node :: .mark ";" :: ended rest := rfl
    rw [split, plain_part, plain_mark, ih, List.forall_mem_cons]
    simp +decide

@[simp] theorem plain_inBraces : Plain fields (inBraces segments) ↔ Plain fields segments := by
  unfold inBraces
  split <;> simp +decide

@[simp] theorem plain_statementBody {body : Node} :
    Plain fields (statementBody body) ↔ body ∈ fields := by
  unfold statementBody
  split <;> simp +decide

@[simp] theorem plain_present {node : Option Node} :
    Plain fields (present node) ↔ ∀ inner ∈ node, inner ∈ fields := by
  cases node <;> simp [present]

@[simp] theorem plain_elseBranch {node : Option Node} :
    Plain fields (elseBranch node) ↔ ∀ inner ∈ node, inner ∈ fields := by
  cases node with
  | none => simp [elseBranch]
  | some node =>
    simp only [elseBranch, plain_mark]
    split <;> simp +decide

end Segment

/-- Only templates bring quotes of their own. -/
theorem Form.plain_segments {form : Form Node} (noTemplate : form.kind ≠ .templateLiteral) :
    Plain form.fields form.segments := by
  cases form with
  | templateLiteral => exact absurd rfl noTemplate
  | returnStatement argument => cases argument <;> simp +decide [segments, fields]
  | variableDeclarator id init => cases init <;> simp +decide [segments, fields]
  | variableDeclaration keyword declarations => cases keyword <;> simp +decide [segments, fields]
  | arrowFunctionExpression params body isAsync =>
    simp only [segments, fields]
    split <;> simp +decide +contextual
  | callExpression callee arguments optional =>
    cases optional <;> simp +decide +contextual [segments, fields]
  | memberExpression object name computed optional =>
    cases computed <;> cases optional <;> simp +decide [segments, fields]
  | objectExpression properties => simp +contextual [segments, fields]
  | property key value computed shorthand =>
    cases shorthand <;> cases computed <;> simp +decide [segments, fields]
  | unaryExpression operator argument leading | updateExpression operator argument leading =>
    cases leading <;> simp +decide [segments, fields]
  | _ => simp +decide +contextual [segments, fields]

namespace Node

def segments (node : Node) : List Segment :=
  node.form.segments

theorem text_eq_rendered (node : Node) : node.text = rendered node.segments := by
  obtain ⟨span, form⟩ := node
  exact (Node.text.eq_1 span form).trans form.text_eq_rendered

/-- The texts that a node carries: its name, its operator or its raw text. -/
def words (node : Node) : List String :=
  node.segments.filterMap word?

/-- The sub-nodes whose texts are in the text of a node. -/
def parts (node : Node) : List Node :=
  node.segments.filterMap part?

theorem mem_parts {node part : Node} : part ∈ node.parts ↔ .part part ∈ node.segments := by
  simp [parts, part?_eq_some_iff]

theorem mem_words {node : Node} {text : String} :
    text ∈ node.words ↔ .word text ∈ node.segments := by
  simp [words, word?_eq_some_iff]

theorem mem_templatePieces {part : Node} {quasis expressions : List Node}
    (member : .part part ∈ templatePieces quasis expressions) : part ∈ quasis ++ expressions := by
  induction quasis, expressions using templatePieces.induct with
  | case1 => simp [templatePieces] at member
  | case2 quasi quasis ih =>
    simp only [templatePieces, List.mem_cons, Segment.part.injEq] at member
    rcases member with rfl | later
    · simp
    · have inRest := ih later
      simp_all
  | case3 quasi quasis expression expressions ih =>
    simp only [templatePieces, List.mem_cons, Segment.part.injEq, reduceCtorEq, false_or] at member
    rcases member with rfl | rfl | later
    · simp
    · simp
    · have inRest := ih later
      simp only [List.mem_append, List.mem_cons] at inRest ⊢
      tauto

theorem exists_of_kind_templateLiteral {node : Node} (isTemplate : node.kind = .templateLiteral) :
    ∃ quasis expressions, node.form = .templateLiteral quasis expressions := by
  obtain ⟨span, form⟩ := node
  cases form with
  | templateLiteral quasis expressions => exact ⟨quasis, expressions, rfl⟩
  | _ => cases isTemplate

theorem mem_fields_of_mem_parts {node part : Node} (member : part ∈ node.parts) :
    part ∈ node.fields := by
  have inSegments := mem_parts.mp member
  by_cases isTemplate : node.kind = .templateLiteral
  · obtain ⟨quasis, expressions, isForm⟩ := exists_of_kind_templateLiteral isTemplate
    rw [segments, isForm] at inSegments
    simp only [Form.segments, List.cons_append, List.mem_cons, List.mem_append,
      reduceCtorEq, List.not_mem_nil, or_false, false_or] at inSegments
    rw [fields, isForm]
    exact mem_templatePieces inSegments
  · exact Form.plain_segments isTemplate _ inSegments

/-- What holds of a node as soon as it holds of its parts holds of every node. -/
theorem parts_induction {motive : Node → Prop}
    (step : ∀ node, (∀ part ∈ node.parts, motive part) → motive node) (node : Node) :
    motive node :=
  step node fun part _ => parts_induction step part
termination_by sizeOf node
decreasing_by exact sizeOf_lt_of_mem_fields (mem_fields_of_mem_parts ‹_›)

/-- A node and the nodes printed with it, going on from those that `enters` tells. -/
def reached (enters : Node → Bool) (node : Node) : List Node :=
  node :: if enters node then node.parts.attach.flatMap fun part => part.1.reached enters else []
termination_by sizeOf node
decreasing_by exact sizeOf_lt_of_mem_fields (mem_fields_of_mem_parts part.2)

/-- A node and every node that is printed with it. -/
def printed : Node → List Node :=
  reached fun _ => true

/-- The nodes that are printed with a node outside templates, the templates themselves included. -/
def surface : Node → List Node :=
  reached fun node => node.kind ≠ .templateLiteral

theorem reached_eq (enters : Node → Bool) (node : Node) :
    node.reached enters =
      node :: if enters node then node.parts.flatMap (reached enters) else [] := by
  rw [reached]
  simp

theorem mem_reached_iff {enters : Node → Bool} {node inner : Node} :
    inner ∈ node.reached enters ↔
      inner = node ∨ enters node = true ∧ ∃ part ∈ node.parts, inner ∈ part.reached enters := by
  rw [reached_eq]
  split <;> simp_all

theorem printed_eq (node : Node) : node.printed = node :: node.parts.flatMap printed := by
  rw [printed, reached_eq, if_pos rfl]

theorem mem_printed_self (node : Node) : node ∈ node.printed :=
  mem_reached_iff.mpr (.inl rfl)

theorem mem_printed_of_mem_parts {node part inner : Node} (isPart : part ∈ node.parts)
    (member : inner ∈ part.printed) : inner ∈ node.printed :=
  mem_reached_iff.mpr (.inr ⟨rfl, part, isPart, member⟩)

/-- The text of a node has the texts of its parts in it. -/
theorem infix_of_mem_parts {node part : Node} (member : part ∈ node.parts) :
    part.text.toList <:+: node.text.toList := by
  obtain ⟨before, after, split⟩ := List.append_of_mem (mem_parts.mp member)
  rw [text_eq_rendered node, split]
  exact ⟨(rendered before).toList, (rendered after).toList, by simp [Segment.text]⟩

theorem infix_of_mem_printed {node inner : Node} (member : inner ∈ node.printed) :
    inner.text.toList <:+: node.text.toList := by
  induction node using parts_induction with
  | step node ih =>
    obtain rfl | ⟨-, part, isPart, below⟩ := mem_reached_iff.mp member
    · exact List.infix_rfl
    · exact (ih part isPart below).trans (infix_of_mem_parts isPart)

end Node

end ScriptLint
