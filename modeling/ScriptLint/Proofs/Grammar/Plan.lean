import Mathlib.Data.List.Forall2
import ScriptLint.Grammar.Lowering
import ScriptLint.Proofs.Grammar.Descents

/-!
# What a construct is made from

A builder decides two things: which form a construct has, and what stands in the places of the
form's sub-nodes. The plan of a construct is that form with the origin of each sub-node in its
place. Every origin is taken from the construct: its parts are below it, its name is its own, and
its text pieces are those of the template that it is.
-/

namespace ScriptLint

namespace Lowering

/-- Where a sub-node comes from. -/
inductive Origin where
  /-- A part that is lowered. -/
  | part (node : Cst)
  /-- The loop variable of a `for` head that declares it. -/
  | target (keyword : VarKind) (node : Cst)
  /-- The name of a shorthand property. -/
  | name (node : Cst)
  /-- A text piece of a template. -/
  | piece (range : Nat × Nat)
  deriving Repr

namespace Origin

/-- The sub-node that an origin gives, if the parts give these. -/
def node (source : Bytes) (lowered : Cst → Node) : Origin → Node
  | .part inner => lowered inner
  | .target keyword inner => declared keyword (lowered inner)
  | .name inner => { span := inner.span source, form := .identifier (inner.text source) }
  | .piece range => quasi source range

/-- The part that has to be lowered for an origin. -/
def part? : Origin → Option Cst
  | .part inner => some inner
  | .target _ inner => some inner
  | .name _ => none
  | .piece _ => none

/-- What has to be lowered for the origin has the property. -/
def All (holds : Cst → Prop) (origin : Origin) : Prop :=
  ∀ part ∈ origin.part?, holds part

section All

variable {holds : Cst → Prop} {inner : Cst}

@[simp]
theorem all_part : (part inner).All holds ↔ holds inner := by
  simp [All, part?]

@[simp]
theorem all_target {keyword : VarKind} : (target keyword inner).All holds ↔ holds inner := by
  simp [All, part?]

@[simp]
theorem all_name : (name inner).All holds := by
  simp [All, part?]

@[simp]
theorem all_piece {range : Nat × Nat} : (piece range).All holds := by
  simp [All, part?]

end All

end Origin

section Plans

variable (source : Bytes) (node : Cst)

/-- The parameters without their type annotations. -/
def paramParts : Option (List Cst) :=
  match node.field? .parameters with
  | none => some []
  | some list => list.operands.mapM fun param =>
    if param.kind == "required_parameter" || param.kind == "optional_parameter" then
      param.field? .pattern
    else some param

/-- What a clause of a `for` head contributes. -/
def clausePart (clause : Option Cst) : Option (Option Cst) :=
  match clause with
  | none => some none
  | some clause =>
    if !clause.label.named || clause.kind == "empty_statement" then some none
    else if clause.kind == "expression_statement" then some <$> clause.operands.head?
    else some (some clause)

/-- The keyword of a declaration, or its first child if no field has it. -/
def keywordText : String :=
  match node.field? .kind with
  | some keyword => keyword.text source
  | none => (node.children.head?.map (·.text source)).getD ""

def declarators : List Cst :=
  node.operands.filter (·.kind == "variable_declarator")

/-- Whether a `for` head goes through values, not through keys. -/
def overValues : Bool :=
  match node.field? .operator with
  | some operator => operator.text source == "of"
  | none => node.hasChild "of"

/-- The loop variable of a `for` head, with the keyword that declares it, if there is one. -/
def targetPart (target : Cst) : Option Origin :=
  match node.field? .kind with
  | some keyword => (Origin.target · target) <$> VarKind.ofKeyword? (keyword.text source)
  | none => some (.part target)

/-- The body of the clause that ends an exception handler. -/
def finalizerPart : Option (Option Cst) :=
  match node.field? .finalizer with
  | some clause => some <$> clause.field? .body
  | none => some none

/-- The parameters of an arrow function, which may be a single one without parentheses. -/
def arrowParts : Option (List Cst) :=
  match node.field? .parameter with
  | some single => some [single]
  | none => paramParts node

/-- The arguments of a call; those of a tagged template are the template itself. -/
def argumentParts (list : Cst) : List Cst :=
  if list.kind == "arguments" then list.operands else [list]

/-- The key of a pair, without the brackets of a computed one. -/
def keyPart (key : Cst) : Option Cst :=
  if key.kind == "computed_property_name" then key.operands.head? else some key

/-- The statements of a case are its named children without the value. -/
def caseStatements : List Cst :=
  (node.children.eraseP (·.label.field == some .value)).filter Cst.isOperand

def substitutions : List Cst :=
  node.operands.filter (·.kind == "template_substitution")

/-- The text pieces of a template, between its backticks and around its substitutions. -/
def pieceRanges : List (Nat × Nat) :=
  quasiRanges (node.startByte + 1) (max (node.endByte - 1) (node.startByte + 1))
    (substitutions node)

def programPlan : Form Origin :=
  .program (node.operands.map .part) (node.comments source)

/-- The form of a construct with the origins of its sub-nodes. A construct that lacks something has
no plan, and neither has one that only stands for another. -/
def plan? : Option (Form Origin) :=
  match Construct.ofKind node.kind with
  | .wrapper => none
  | .program => some (programPlan source node)
  | .expressionStatement => do
    return .expressionStatement (.part (← node.operands.head?))
  | .block => some (.blockStatement (node.operands.map .part))
  | .ifStatement => do
    return .ifStatement (.part (← node.field? .condition)) (.part (← node.field? .consequence))
      ((node.field? .alternative).map .part)
  | .switchStatement => do
    return .switchStatement (.part (← node.field? .value))
      ((← node.field? .body).operands.map .part)
  | .switchCase =>
    some (.switchCase ((node.field? .value).map .part) ((caseStatements node).map .part))
  | .declaration => do
    return .variableDeclaration (← VarKind.ofKeyword? (keywordText source node))
      ((declarators node).map .part)
  | .declarator => do
    return .variableDeclarator (.part (← node.field? .name)) ((node.field? .value).map .part)
  | .returnStatement => some (.returnStatement (node.operands.head?.map .part))
  | .forStatement => do
    let init ← clausePart (node.field? .initializer)
    let test ← clausePart (node.field? .condition)
    return .forStatement (init.map .part) (test.map .part) ((node.field? .increment).map .part)
      (.part (← node.field? .body))
  | .forEach => do
    let left ← targetPart source node (← node.field? .left)
    let right ← node.field? .right
    let body ← node.field? .body
    return if overValues source node then .forOfStatement left (.part right) (.part body)
      else .forInStatement left (.part right) (.part body)
  | .whileStatement => do
    return .whileStatement (.part (← node.field? .condition)) (.part (← node.field? .body))
  | .doStatement => do
    return .doWhileStatement (.part (← node.field? .body)) (.part (← node.field? .condition))
  | .tryStatement => do
    return .tryStatement (.part (← node.field? .body)) ((node.field? .handler).map .part)
      ((← finalizerPart node).map .part)
  | .catchClause => do
    return .catchClause ((node.field? .parameter).map .part) (.part (← node.field? .body))
  | .functionDeclaration generator => do
    return .functionDeclaration ((node.field? .name).map .part) ((← paramParts node).map .part)
      (.part (← node.field? .body)) (node.hasChild "async") generator
  | .functionExpression generator => do
    return .functionExpression ((node.field? .name).map .part) ((← paramParts node).map .part)
      (.part (← node.field? .body)) (node.hasChild "async") generator
  | .arrowFunction => do
    return .arrowFunctionExpression ((← arrowParts node).map .part) (.part (← node.field? .body))
      (node.hasChild "async")
  | .array => some (.arrayExpression (node.operands.map .part))
  | .object => some (.objectExpression (node.operands.map .part))
  | .pair => do
    let key ← node.field? .key
    return .property (.part (← keyPart key)) (.part (← node.field? .value))
      (key.kind == "computed_property_name") false
  | .shorthand => some (.property (.name node) (.name node) false true)
  | .call => do
    let list ← node.field? .arguments
    return .callExpression (.part (← node.field? .function)) ((argumentParts list).map .part)
      (node.hasChild "optional_chain")
  | .construction => do
    return .newExpression (.part (← node.field? .constructor))
      (((node.field? .arguments).elim [] Cst.operands).map .part)
  | .assignment => do
    let operator := ((node.field? .operator).map (·.text source)).getD "="
    return .assignmentExpression operator (.part (← node.field? .left))
      (.part (← node.field? .right))
  | .binary => do
    let operator := (← node.field? .operator).text source
    let left ← node.field? .left
    let right ← node.field? .right
    return if isLogical operator then .logicalExpression operator (.part left) (.part right)
      else .binaryExpression operator (.part left) (.part right)
  | .unary => do
    let operator := (← node.field? .operator).text source
    return .unaryExpression operator (.part (← node.field? .argument)) true
  | .update => do
    let operator ← node.field? .operator
    let argument ← node.field? .argument
    return .updateExpression (operator.text source) (.part argument)
      (operator.startByte < argument.startByte)
  | .member => do
    return .memberExpression (.part (← node.field? .object)) (.part (← node.field? .property)) false
      (node.hasChild "optional_chain")
  | .subscript => do
    return .memberExpression (.part (← node.field? .object)) (.part (← node.field? .index)) true
      (node.hasChild "optional_chain")
  | .ternary => do
    return .conditionalExpression (.part (← node.field? .condition))
      (.part (← node.field? .consequence)) (.part (← node.field? .alternative))
  | .sequence => some (.sequenceExpression (node.sequenceOperands.map .part))
  | .template => do
    let expressions ← (substitutions node).mapM (·.operands.head?)
    return .templateLiteral ((pieceRanges node).map .piece) (expressions.map .part)
  | .this => some .thisExpression
  | .identifier => some (.identifier (node.text source))
  | .literal category => some (.literal (node.text source) category)
  | .other => some (.other node.kind (node.operands.map .part))

end Plans

section Sources

open Cst (mem_nodes_of_child mem_nodes_of_field? mem_nodes_of_operand mem_nodes_of_sequenceOperand
  mem_nodes_trans)

variable {source : Bytes} {node : Cst}

/-- Picking from every item gives one result for each, in order. -/
theorem forall₂_of_mapM {α β : Type} {pick : α → Option β} {items : List α} {parts : List β}
    (picked : items.mapM pick = some parts) :
    List.Forall₂ (fun item part => pick item = some part) items parts := by
  induction items generalizing parts with
  | nil =>
    cases picked
    exact .nil
  | cons item rest ih =>
    simp only [List.mapM_cons, Option.bind_eq_bind, Option.bind_eq_some_iff, Option.pure_def,
      Option.some.injEq] at picked
    obtain ⟨first, isFirst, others, isRest, rfl⟩ := picked
    exact .cons isFirst (ih isRest)

theorem length_quasiRanges (cursor close : Nat) (substitutions : List Cst) :
    (quasiRanges cursor close substitutions).length = substitutions.length + 1 := by
  induction substitutions generalizing cursor with
  | nil => rfl
  | cons substitution rest ih => simp [quasiRanges, ih]

theorem mem_of_mapM {α β : Type} {pick : α → Option β} {items : List α} {parts : List β} {part : β}
    (picked : items.mapM pick = some parts) (member : part ∈ parts) :
    ∃ item ∈ items, pick item = some part := by
  have pairs := forall₂_of_mapM picked
  clear picked
  induction pairs with
  | nil => simp at member
  | @cons item first items _ isFirst _ ih =>
    obtain rfl | later := List.mem_cons.mp member
    · exact ⟨item, by simp, isFirst⟩
    · obtain ⟨other, isOther, found⟩ := ih later
      exact ⟨other, by simp [isOther], found⟩

theorem mem_nodes_of_paramParts {parts : List Cst} {part : Cst}
    (planned : paramParts node = some parts) (member : part ∈ parts) : part ∈ node.nodes := by
  unfold paramParts at planned
  split at planned
  · cases planned
    simp at member
  case h_2 list filled =>
    obtain ⟨param, isParam, picked⟩ := mem_of_mapM planned member
    have below := mem_nodes_trans (mem_nodes_of_field? filled) (mem_nodes_of_operand isParam)
    split at picked
    · exact mem_nodes_trans below (mem_nodes_of_field? picked)
    · cases picked
      exact below

theorem eq_of_targetPart {target : Cst} {origin : Origin}
    (planned : targetPart source node target = some origin) :
    origin = .part target ∨ ∃ keyword, origin = .target keyword target := by
  unfold targetPart at planned
  split at planned
  · obtain ⟨keyword, -, rfl⟩ := Option.map_eq_some_iff.mp planned
    exact .inr ⟨keyword, rfl⟩
  · cases planned
    exact .inl rfl

theorem mem_nodes_of_clausePart {part : Cst} {place : Field} {inner : Option Cst}
    (planned : clausePart (node.field? place) = some inner) (isPart : part ∈ inner) :
    part ∈ node.nodes := by
  unfold clausePart at planned
  split at planned
  · cases planned
    simp at isPart
  case h_2 clause filled =>
    have below : clause ∈ node.nodes := mem_nodes_of_field? filled
    split at planned
    · cases planned
      simp at isPart
    · split at planned
      · obtain ⟨first, isFirst, rfl⟩ := Option.map_eq_some_iff.mp planned
        cases isPart
        exact mem_nodes_trans below (mem_nodes_of_operand (List.mem_of_mem_head? isFirst))
      · cases planned
        cases isPart
        exact below

theorem mem_nodes_of_finalizerPart {part : Cst} {inner : Option Cst}
    (planned : finalizerPart node = some inner) (isPart : part ∈ inner) : part ∈ node.nodes := by
  unfold finalizerPart at planned
  split at planned
  case h_1 clause filled =>
    obtain ⟨body, isBody, rfl⟩ := Option.map_eq_some_iff.mp planned
    cases isPart
    exact mem_nodes_trans (mem_nodes_of_field? filled) (mem_nodes_of_field? isBody)
  case h_2 =>
    cases planned
    simp at isPart

theorem mem_nodes_of_arrowParts {parts : List Cst} {part : Cst}
    (planned : arrowParts node = some parts) (member : part ∈ parts) : part ∈ node.nodes := by
  unfold arrowParts at planned
  split at planned
  case h_1 single filled =>
    cases planned
    obtain rfl := List.mem_singleton.mp member
    exact mem_nodes_of_field? filled
  case h_2 => exact mem_nodes_of_paramParts planned member

theorem mem_nodes_of_caseStatement {part : Cst} (member : part ∈ caseStatements node) :
    part ∈ node.nodes :=
  mem_nodes_of_child (List.mem_of_mem_eraseP (List.mem_filter.mp member).1) part.mem_nodes_self

theorem kind_of_template (known : Construct.ofKind node.kind = .template) :
    node.kind = "template_string" := by
  unfold Construct.ofKind at known
  split at known <;> simp_all

/-- The origin is taken from the node: a part lies below it, a name is the node's own, and a text
piece is one of the template that the node is. -/
def Origin.From (node : Cst) : Origin → Prop
  | .part inner => inner ∈ node.nodes
  | .target _ inner => inner ∈ node.nodes
  | .name inner => inner = node
  | .piece range => Construct.ofKind node.kind = .template ∧ range ∈ pieceRanges node

@[simp]
theorem Origin.from_part {inner : Cst} : (Origin.part inner).From node ↔ inner ∈ node.nodes :=
  Iff.rfl

@[simp]
theorem Origin.from_name {inner : Cst} : (Origin.name inner).From node ↔ inner = node :=
  Iff.rfl

@[simp]
theorem Origin.from_piece {range : Nat × Nat} :
    (Origin.piece range).From node ↔
      Construct.ofKind node.kind = .template ∧ range ∈ pieceRanges node :=
  Iff.rfl

theorem Origin.From.all {origin : Origin} (taken : origin.From node) :
    origin.All (· ∈ node.nodes) := by
  cases origin <;> simp_all [Origin.From]

/-- What holds of every plan is shown one step after the other. -/
theorem forall_bind_eq_some_iff {α β : Type} {first : Option α} {next : α → Option β}
    {holds : β → Prop} :
    (∀ result, first.bind next = some result → holds result) ↔
      ∀ value, first = some value → ∀ result, next value = some result → holds result := by
  cases first <;> simp

/-- All that a plan asks for is taken from the construct itself. -/
theorem from_of_plan : ∀ plan, plan? source node = some plan →
    ∀ origin ∈ plan.fields, origin.From node := by
  have inside : ∀ {part : Cst}, part ∈ node.nodes → ∀ inner ∈ part.operands, inner ∈ node.nodes :=
    fun below inner member => mem_nodes_trans below (mem_nodes_of_operand member)
  cases known : Construct.ofKind node.kind <;>
    simp only [plan?, known, programPlan, Option.bind_eq_bind, forall_bind_eq_some_iff,
      Option.pure_def, Option.some.injEq, reduceCtorEq, forall_eq', false_imp_iff, implies_true]
  case forEach =>
    intro target hasTarget left isLeft right hasRight body hasBody
    have below : left.From node := by
      obtain rfl | ⟨keyword, rfl⟩ := eq_of_targetPart isLeft <;> exact mem_nodes_of_field? hasTarget
    split <;>
      simp [Form.fields, below, mem_nodes_of_field? hasRight, mem_nodes_of_field? hasBody]
  case template =>
    intro expressions picked
    simp only [Form.fields, List.forall_mem_append, List.forall_mem_map, Origin.from_piece,
      Origin.from_part]
    refine ⟨fun range member => ⟨known, member⟩, fun part member => ?_⟩
    obtain ⟨substitution, isSubstitution, first⟩ := mem_of_mapM picked member
    exact mem_nodes_trans (mem_nodes_of_operand (List.mem_filter.mp isSubstitution).1)
      (mem_nodes_of_operand (List.mem_of_mem_head? first))
  case binary =>
    intro operator hasOperator left hasLeft right hasRight
    split <;> simp [Form.fields, mem_nodes_of_field? hasLeft, mem_nodes_of_field? hasRight]
  case switchStatement =>
    intro value hasValue body hasBody
    simpa [Form.fields, mem_nodes_of_field? hasValue] using inside (mem_nodes_of_field? hasBody)
  case declaration =>
    intro keyword _
    simp only [Form.fields, List.forall_mem_map, Origin.from_part]
    exact fun part member => mem_nodes_of_operand (List.mem_filter.mp member).1
  case pair =>
    intro key hasKey part isPart value hasValue
    have below : part ∈ node.nodes := by
      unfold keyPart at isPart
      split at isPart
      · exact inside (mem_nodes_of_field? hasKey) part (List.mem_of_mem_head? isPart)
      · cases isPart
        exact mem_nodes_of_field? hasKey
    simp [Form.fields, below, mem_nodes_of_field? hasValue]
  case call =>
    intro list hasList callee hasCallee
    have below : ∀ part ∈ argumentParts list, part ∈ node.nodes := by
      unfold argumentParts
      split
      · exact inside (mem_nodes_of_field? hasList)
      · simpa using mem_nodes_of_field? hasList
    simpa [Form.fields, mem_nodes_of_field? hasCallee] using below
  case construction =>
    intro callee hasCallee
    cases hasList : node.field? .arguments with
    | none => simp [Form.fields, mem_nodes_of_field? hasCallee]
    | some list =>
      simpa [Form.fields, mem_nodes_of_field? hasCallee] using inside (mem_nodes_of_field? hasList)
  all_goals
    simp [Form.fields, or_imp, forall_and] <;>
      grind [mem_nodes_of_field?, mem_nodes_of_operand, mem_nodes_of_clausePart,
        mem_nodes_of_finalizerPart, mem_nodes_of_arrowParts, mem_nodes_of_paramParts,
        mem_nodes_of_caseStatement, mem_nodes_of_sequenceOperand, List.mem_of_mem_head?]

end Sources

end Lowering

end ScriptLint
