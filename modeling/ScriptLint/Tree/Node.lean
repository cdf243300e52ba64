import ScriptLint.Tree.Kind
import ScriptLint.Tree.Span

/-!
# Syntax trees

A node is a span and a form. The form is generic in what stands in the places of sub-nodes, so the
views of a node (all its fields, its children in source order) are stated once and for every use.
Three orders are kept apart: `Form.fields` lists every sub-node in declaration order,
`Node.children` lists those that are shown, in source order, and `Node.successors` lists those that
a structural walk enters, in the order it enters them.

Covers `NodeKind` and the node's `node_type`, `kind_name`, `is_function`, `identifier_name`,
`params` and `children`, and where `walk` and `visit_function_body` go on from a node and with which
parent.
-/

namespace ScriptLint

/-- A comment with its delimiters. -/
structure Comment where
  text : String
  block : Bool
  span : Span
  deriving DecidableEq, Repr

/-- What a node is, with `α` in the places of its sub-nodes. -/
inductive Form (α : Type) where
  | program (body : List α) (comments : List Comment)
  | expressionStatement (expression : α)
  | blockStatement (body : List α)
  | ifStatement (test consequent : α) (alternate : Option α)
  | switchStatement (discriminant : α) (cases : List α)
  /-- `test` is absent for the default clause. -/
  | switchCase (test : Option α) (consequent : List α)
  | variableDeclaration (keyword : VarKind) (declarations : List α)
  | variableDeclarator (id : α) (init : Option α)
  | returnStatement (argument : Option α)
  | forStatement (init test update : Option α) (body : α)
  | forInStatement (left right body : α)
  | forOfStatement (left right body : α)
  | whileStatement (test body : α)
  | doWhileStatement (body test : α)
  | tryStatement (block : α) (handler finalizer : Option α)
  | catchClause (param : Option α) (body : α)
  | functionDeclaration (id : Option α) (params : List α) (body : α) (isAsync generator : Bool)
  | functionExpression (id : Option α) (params : List α) (body : α) (isAsync generator : Bool)
  /-- `body` is a block or a bare expression. -/
  | arrowFunctionExpression (params : List α) (body : α) (isAsync : Bool)
  | arrayExpression (elements : List α)
  | objectExpression (properties : List α)
  | property (key value : α) (computed shorthand : Bool)
  | callExpression (callee : α) (arguments : List α) (optional : Bool)
  | newExpression (callee : α) (arguments : List α)
  | assignmentExpression (operator : String) (left right : α)
  | binaryExpression (operator : String) (left right : α)
  | logicalExpression (operator : String) (left right : α)
  /-- `leading` tells an operator written before its argument. -/
  | unaryExpression (operator : String) (argument : α) (leading : Bool)
  | updateExpression (operator : String) (argument : α) (leading : Bool)
  | memberExpression (object name : α) (computed optional : Bool)
  | conditionalExpression (test consequent alternate : α)
  | sequenceExpression (expressions : List α)
  /-- A parsed literal has one more quasi than expressions. -/
  | templateLiteral (quasis expressions : List α)
  | templateElement (raw : String)
  | thisExpression
  | identifier (name : String)
  /-- `raw` is the literal as written. -/
  | literal (raw : String) (category : LiteralKind)
  /-- `grammarKind` names the construct as the grammar does. -/
  | other (grammarKind : String) (parts : List α)
  deriving DecidableEq, Repr

namespace Form

variable {α β : Type}

def kind : Form α → Kind
  | .program .. => .program
  | .expressionStatement .. => .expressionStatement
  | .blockStatement .. => .blockStatement
  | .ifStatement .. => .ifStatement
  | .switchStatement .. => .switchStatement
  | .switchCase .. => .switchCase
  | .variableDeclaration .. => .variableDeclaration
  | .variableDeclarator .. => .variableDeclarator
  | .returnStatement .. => .returnStatement
  | .forStatement .. => .forStatement
  | .forInStatement .. => .forInStatement
  | .forOfStatement .. => .forOfStatement
  | .whileStatement .. => .whileStatement
  | .doWhileStatement .. => .doWhileStatement
  | .tryStatement .. => .tryStatement
  | .catchClause .. => .catchClause
  | .functionDeclaration .. => .functionDeclaration
  | .functionExpression .. => .functionExpression
  | .arrowFunctionExpression .. => .arrowFunctionExpression
  | .arrayExpression .. => .arrayExpression
  | .objectExpression .. => .objectExpression
  | .property .. => .property
  | .callExpression .. => .callExpression
  | .newExpression .. => .newExpression
  | .assignmentExpression .. => .assignmentExpression
  | .binaryExpression .. => .binaryExpression
  | .logicalExpression .. => .logicalExpression
  | .unaryExpression .. => .unaryExpression
  | .updateExpression .. => .updateExpression
  | .memberExpression .. => .memberExpression
  | .conditionalExpression .. => .conditionalExpression
  | .sequenceExpression .. => .sequenceExpression
  | .templateLiteral .. => .templateLiteral
  | .templateElement .. => .templateElement
  | .thisExpression .. => .thisExpression
  | .identifier .. => .identifier
  | .literal .. => .literal
  | .other .. => .other

/-- Every sub-node, in declaration order. -/
def fields : Form α → List α
  | .program body _ => body
  | .expressionStatement expression => [expression]
  | .blockStatement body => body
  | .ifStatement test consequent alternate => test :: consequent :: alternate.toList
  | .switchStatement discriminant cases => discriminant :: cases
  | .switchCase test consequent => test.toList ++ consequent
  | .variableDeclaration _ declarations => declarations
  | .variableDeclarator id init => id :: init.toList
  | .returnStatement argument => argument.toList
  | .forStatement init test update body => init.toList ++ test.toList ++ update.toList ++ [body]
  | .forInStatement left right body => [left, right, body]
  | .forOfStatement left right body => [left, right, body]
  | .whileStatement test body => [test, body]
  | .doWhileStatement body test => [body, test]
  | .tryStatement block handler finalizer => block :: (handler.toList ++ finalizer.toList)
  | .catchClause param body => param.toList ++ [body]
  | .functionDeclaration id params body _ _ => id.toList ++ params ++ [body]
  | .functionExpression id params body _ _ => id.toList ++ params ++ [body]
  | .arrowFunctionExpression params body _ => params ++ [body]
  | .arrayExpression elements => elements
  | .objectExpression properties => properties
  | .property key value _ _ => [key, value]
  | .callExpression callee arguments _ => callee :: arguments
  | .newExpression callee arguments => callee :: arguments
  | .assignmentExpression _ left right => [left, right]
  | .binaryExpression _ left right => [left, right]
  | .logicalExpression _ left right => [left, right]
  | .unaryExpression _ argument _ => [argument]
  | .updateExpression _ argument _ => [argument]
  | .memberExpression object name _ _ => [object, name]
  | .conditionalExpression test consequent alternate => [test, consequent, alternate]
  | .sequenceExpression expressions => expressions
  | .templateLiteral quasis expressions => quasis ++ expressions
  | .templateElement _ => []
  | .thisExpression => []
  | .identifier _ => []
  | .literal _ _ => []
  | .other _ parts => parts

/-- Alternates the two lists, starting with the first and ending where the first ends. -/
def interleave : List α → List α → List α
  | [], _ => []
  | quasi :: quasis, [] => quasi :: quasis
  | quasi :: quasis, expression :: expressions =>
    quasi :: expression :: interleave quasis expressions

/-- The shown sub-nodes in source order. A shorthand property shows its key only, and the pieces of
a template stand between each other as they were written. -/
def children : Form α → List α
  | .property key value _ shorthand => if shorthand then [key] else [key, value]
  | .templateLiteral quasis expressions => interleave quasis expressions
  | form => form.fields

theorem mem_of_mem_interleave {x : α} {quasis expressions : List α}
    (member : x ∈ interleave quasis expressions) : x ∈ quasis ++ expressions := by
  fun_induction interleave quasis expressions with
  | case1 => simp at member
  | case2 quasi quasis => simpa using member
  | case3 quasi quasis expression expressions ih =>
    simp only [List.mem_cons] at member
    rcases member with rfl | rfl | member
    · simp
    · simp
    · have := ih member
      simp only [List.mem_append, List.mem_cons] at this ⊢
      grind

theorem mem_fields_of_mem_children {x : α} {form : Form α} (member : x ∈ form.children) :
    x ∈ form.fields := by
  unfold children at member
  split at member
  · split at member <;> simp_all [fields]
  · exact mem_of_mem_interleave member
  · exact member

end Form

/-- A node of the tree: what it is and where it stands. -/
structure Node where
  span : Span
  form : Form Node
  deriving Repr

namespace Node

instance : Inhabited Node := ⟨⟨default, .thisExpression⟩⟩

def kind (node : Node) : Kind :=
  node.form.kind

/-- The name a node is reported under: its kind, or the grammar's own name for a construct outside
the vocabulary. -/
def kindName (node : Node) : String :=
  match node.form with
  | .other grammarKind _ => grammarKind
  | form => form.kind.name

def isFunction (node : Node) : Bool :=
  node.kind ∈ Kind.functions

def identifierName? (node : Node) : Option String :=
  match node.form with
  | .identifier name => some name
  | _ => none

/-- The parameters of a function. -/
def params? (node : Node) : Option (List Node) :=
  match node.form with
  | .functionDeclaration _ params _ _ _ => some params
  | .functionExpression _ params _ _ _ => some params
  | .arrowFunctionExpression params _ _ => some params
  | _ => none

/-- Every direct sub-node. -/
def fields (node : Node) : List Node :=
  node.form.fields

/-- The shown direct sub-nodes, in source order. -/
def children (node : Node) : List Node :=
  node.form.children

/-- Where a function's body is entered: at the statements of a block, or at a bare expression. -/
def bodySteps (body : Node) : List Node :=
  match body.form with
  | .blockStatement statements => statements
  | _ => [body]

/-- The nodes a structural walk goes on to. It leaves out function names and parameters, property
keys, member names and template text, enters the arguments of a call before the callee, and stops
at loops, exception handling and constructs outside the vocabulary. -/
def successors (node : Node) : List Node :=
  match node.form with
  | .functionDeclaration _ _ body _ _ => body.bodySteps
  | .functionExpression _ _ body _ _ => body.bodySteps
  | .arrowFunctionExpression _ body _ => body.bodySteps
  | .property _ value _ _ => [value]
  | .callExpression callee arguments _ => arguments ++ [callee]
  | .newExpression callee arguments => arguments ++ [callee]
  | .memberExpression object _ _ _ => [object]
  | .templateLiteral _ expressions => expressions
  | .forStatement .. | .forInStatement .. | .forOfStatement .. | .whileStatement ..
  | .doWhileStatement .. | .tryStatement .. | .catchClause .. | .other .. => []
  | form => form.fields

/-- The parent that a walk from this node hands to its successors. -/
def parentBelow (node : Node) (parent : Option Node) : Option Node :=
  if node.kind.passesParent then parent else some node

theorem sizeOf_lt_of_mem_fields {node field : Node} (member : field ∈ node.fields) :
    sizeOf field < sizeOf node := by
  obtain ⟨span, form⟩ := node
  have inList : ∀ {nodes : List Node}, field ∈ nodes → sizeOf field < sizeOf nodes :=
    List.sizeOf_lt_of_mem
  have inOption : ∀ {node : Option Node}, node = some field → sizeOf field < sizeOf node := by
    rintro _ rfl
    simp
  simp only [fields] at member
  cases form <;> simp [Form.fields] at member ⊢ <;>
    grind

theorem sizeOf_lt_of_mem_children {node child : Node} (member : child ∈ node.children) :
    sizeOf child < sizeOf node :=
  sizeOf_lt_of_mem_fields (Form.mem_fields_of_mem_children member)

end Node

end ScriptLint
