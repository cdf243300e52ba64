import ScriptLint.Grammar.Cursor

/-!
# Lowering

Turns a concrete tree into a syntax tree. A tree with an error or missing node is refused before
lowering starts. Lowering itself counts the levels it may still go down: each construct is built
with one level less for its parts, and a construct met with no level left is refused.

A builder asks for the parts of its construct in a fixed order, so the first part that cannot be
lowered decides which error is reported.

Covers `parse` behind the grammar, and the lowerer's `program`, `lower`, `lower_node` and `builder`
with its builders, one for each construct: those that differ in a field or a flag share one here.
The depth that is counted up there is the number of levels that are left here. The errors for a
grammar that does not load or gives no tree are left out, since every front end gives a tree.
-/

namespace ScriptLint

/-- A part that a construct must have: the child of a field, or any named child. -/
inductive Part where
  | field (place : Field)
  | child
  deriving DecidableEq, Repr

def Part.word : Part → String
  | .field place => place.word
  | .child => "child"

/-- The deepest nesting that lowering accepts. -/
def maxDepth : Nat := 256

/-- Why a source has no syntax tree. -/
inductive ParseError where
  | unexpected (line column : Nat) (near : String)
  | tooDeep (line : Nat)
  | malformed (kind : String) (missing : Part)
  deriving DecidableEq, Repr

def ParseError.message : ParseError → String
  | .unexpected line column near =>
    "syntax error at " ++ toString line ++ ":" ++ toString column ++ " near " ++ near
  | .tooDeep line =>
    "nesting deeper than " ++ toString maxDepth ++ " levels at line " ++ toString line
  | .malformed kind missing => "malformed " ++ kind ++ ": missing " ++ missing.word

/-- How a grammar kind is lowered. -/
inductive Construct where
  | program
  /-- Stands for its first named child. -/
  | wrapper
  | expressionStatement
  | block
  | ifStatement
  | switchStatement
  | switchCase
  | declaration
  | declarator
  | returnStatement
  | forStatement
  | forEach
  | whileStatement
  | doStatement
  | tryStatement
  | catchClause
  | functionDeclaration (generator : Bool)
  | functionExpression (generator : Bool)
  | arrowFunction
  | array
  | object
  | pair
  | shorthand
  | call
  | construction
  | assignment
  | binary
  | unary
  | update
  | member
  | subscript
  | ternary
  | sequence
  | template
  | this
  | identifier
  | literal (category : LiteralKind)
  | other
  deriving DecidableEq, Repr

/-- The construct behind a grammar kind; kinds outside the vocabulary are kept as `other`. -/
def Construct.ofKind (kind : String) : Construct :=
  match kind with
  | "program" => .program
  | "parenthesized_expression" | "else_clause" => .wrapper
  | "expression_statement" => .expressionStatement
  | "statement_block" => .block
  | "if_statement" => .ifStatement
  | "switch_statement" => .switchStatement
  | "switch_case" | "switch_default" => .switchCase
  | "variable_declaration" | "lexical_declaration" => .declaration
  | "variable_declarator" => .declarator
  | "return_statement" => .returnStatement
  | "for_statement" => .forStatement
  | "for_in_statement" => .forEach
  | "while_statement" => .whileStatement
  | "do_statement" => .doStatement
  | "try_statement" => .tryStatement
  | "catch_clause" => .catchClause
  | "function_declaration" => .functionDeclaration false
  | "generator_function_declaration" => .functionDeclaration true
  | "function_expression" | "function" => .functionExpression false
  | "generator_function" => .functionExpression true
  | "arrow_function" => .arrowFunction
  | "array" => .array
  | "object" => .object
  | "pair" => .pair
  | "shorthand_property_identifier" => .shorthand
  | "call_expression" => .call
  | "new_expression" => .construction
  | "assignment_expression" | "augmented_assignment_expression" => .assignment
  | "binary_expression" => .binary
  | "unary_expression" => .unary
  | "update_expression" => .update
  | "member_expression" => .member
  | "subscript_expression" => .subscript
  | "ternary_expression" => .ternary
  | "sequence_expression" => .sequence
  | "template_string" => .template
  | "this" => .this
  | "identifier" | "property_identifier" | "private_property_identifier"
  | "shorthand_property_identifier_pattern" | "statement_identifier" | "undefined" => .identifier
  | "number" => .literal .number
  | "string" => .literal .string
  | "regex" => .literal .regExp
  | "null" => .literal .null
  | "true" | "false" => .literal .boolean
  | _ => .other

namespace Cst

/-- The child that fills a field the construct must have. -/
def require (node : Cst) (field : Field) : Except ParseError Cst :=
  match node.field? field with
  | some child => .ok child
  | none => .error (.malformed node.kind (.field field))

/-- The first named child, which the construct must have. -/
def firstOperand (node : Cst) : Except ParseError Cst :=
  match node.operands with
  | child :: _ => .ok child
  | [] => .error (.malformed node.kind .child)

end Cst

namespace Lowering

/-- The bytes that a template's text pieces cover: from `cursor` to the first substitution, between
each two, and from the last one to `close`. -/
def quasiRanges (cursor close : Nat) : List Cst → List (Nat × Nat)
  | [] => [(cursor, max close cursor)]
  | substitution :: rest =>
    (cursor, substitution.startByte) :: quasiRanges substitution.endByte close rest

def quasi (source : Bytes) (range : Nat × Nat) : Node :=
  { span := Span.ofBytes source range.1 range.2
    form := .templateElement (source.textBetween range.1 range.2) }

/-- The loop variable of a `for` head that declares it, as a declaration without an initial
value. -/
def declared (keyword : VarKind) (target : Node) : Node :=
  { span := target.span
    form := .variableDeclaration keyword
      [{ span := target.span, form := .variableDeclarator target none }] }

def isLogical (operator : String) : Bool :=
  operator == "&&" || operator == "||" || operator == "??"

section Builders

variable (source : Bytes) (lower : Cst → Except ParseError Node) (node : Cst)

def lowerField (field : Field) : Except ParseError Node := do
  lower (← node.require field)

def lowerOptional (child : Option Cst) : Except ParseError (Option Node) :=
  match child with
  | some child => some <$> lower child
  | none => .ok none

/-- The keyword of a declaration must be one of the three that declare variables. -/
def varKind (keyword : String) : Except ParseError VarKind :=
  match VarKind.ofKeyword? keyword with
  | some kind => .ok kind
  | none => .error (.malformed node.kind (.field .kind))

/-- Parameters without their type annotations. -/
def params : Except ParseError (List Node) :=
  match node.field? .parameters with
  | none => .ok []
  | some list => list.operands.mapM fun param =>
    if param.kind == "required_parameter" || param.kind == "optional_parameter" then
      lowerField lower param .pattern
    else lower param

/-- A clause of a `for` head. An empty statement is absent, and an expression statement contributes
its expression. -/
def forClause (clause : Option Cst) : Except ParseError (Option Node) :=
  match clause with
  | none => .ok none
  | some clause =>
    if !clause.label.named || clause.kind == "empty_statement" then .ok none
    else if clause.kind == "expression_statement" then do
      return some (← lower (← clause.firstOperand))
    else some <$> lower clause

def program : Except ParseError Node := do
  let body ← node.operands.mapM lower
  return { span := node.span source, form := .program body (node.comments source) }

def expressionStatement : Except ParseError (Form Node) := do
  return .expressionStatement (← lower (← node.firstOperand))

def block : Except ParseError (Form Node) := do
  return .blockStatement (← node.operands.mapM lower)

def ifStatement : Except ParseError (Form Node) := do
  let test ← lowerField lower node .condition
  let consequent ← lowerField lower node .consequence
  let alternate ← lowerOptional lower (node.field? .alternative)
  return .ifStatement test consequent alternate

def switchStatement : Except ParseError (Form Node) := do
  let discriminant ← lowerField lower node .value
  let cases ← (← node.require .body).operands.mapM lower
  return .switchStatement discriminant cases

def switchCase : Except ParseError (Form Node) := do
  let test ← lowerOptional lower (node.field? .value)
  let statements := (node.children.eraseP (·.label.field == some .value)).filter Cst.isOperand
  return .switchCase test (← statements.mapM lower)

def declaration : Except ParseError (Form Node) := do
  let keyword := match node.field? .kind with
    | some keyword => keyword.text source
    | none => (node.children.head?.map (·.text source)).getD ""
  let keyword ← varKind node keyword
  let declarators := node.operands.filter (·.kind == "variable_declarator")
  return .variableDeclaration keyword (← declarators.mapM lower)

def declarator : Except ParseError (Form Node) := do
  let id ← lowerField lower node .name
  return .variableDeclarator id (← lowerOptional lower (node.field? .value))

def returnStatement : Except ParseError (Form Node) := do
  return .returnStatement (← lowerOptional lower node.operands.head?)

def forStatement : Except ParseError (Form Node) := do
  let init ← forClause lower (node.field? .initializer)
  let test ← forClause lower (node.field? .condition)
  let update ← lowerOptional lower (node.field? .increment)
  let body ← lowerField lower node .body
  return .forStatement init test update body

def forEach : Except ParseError (Form Node) := do
  let target ← lowerField lower node .left
  let left ← match node.field? .kind with
    | some keyword => (declared · target) <$> varKind node (keyword.text source)
    | none => .ok target
  let right ← lowerField lower node .right
  let body ← lowerField lower node .body
  let overValues := match node.field? .operator with
    | some operator => operator.text source == "of"
    | none => node.hasChild "of"
  return if overValues then .forOfStatement left right body else .forInStatement left right body

def whileStatement : Except ParseError (Form Node) := do
  let test ← lowerField lower node .condition
  return .whileStatement test (← lowerField lower node .body)

def doStatement : Except ParseError (Form Node) := do
  let body ← lowerField lower node .body
  return .doWhileStatement body (← lowerField lower node .condition)

def tryStatement : Except ParseError (Form Node) := do
  let block ← lowerField lower node .body
  let handler ← lowerOptional lower (node.field? .handler)
  let finalizer ← match node.field? .finalizer with
    | some clause => some <$> lowerField lower clause .body
    | none => .ok none
  return .tryStatement block handler finalizer

def catchClause : Except ParseError (Form Node) := do
  let param ← lowerOptional lower (node.field? .parameter)
  return .catchClause param (← lowerField lower node .body)

def functionDeclaration (generator : Bool) : Except ParseError (Form Node) := do
  let id ← lowerOptional lower (node.field? .name)
  let params ← params lower node
  let body ← lowerField lower node .body
  return .functionDeclaration id params body (node.hasChild "async") generator

def functionExpression (generator : Bool) : Except ParseError (Form Node) := do
  let id ← lowerOptional lower (node.field? .name)
  let params ← params lower node
  let body ← lowerField lower node .body
  return .functionExpression id params body (node.hasChild "async") generator

def arrowFunction : Except ParseError (Form Node) := do
  let params ← match node.field? .parameter with
    | some single => ([·]) <$> lower single
    | none => params lower node
  let body ← lowerField lower node .body
  return .arrowFunctionExpression params body (node.hasChild "async")

def array : Except ParseError (Form Node) := do
  return .arrayExpression (← node.operands.mapM lower)

def object : Except ParseError (Form Node) := do
  return .objectExpression (← node.operands.mapM lower)

def pair : Except ParseError (Form Node) := do
  let key ← node.require .key
  let computed := key.kind == "computed_property_name"
  let key ← if computed then do lower (← key.firstOperand) else lower key
  return .property key (← lowerField lower node .value) computed false

def shorthand : Except ParseError (Form Node) :=
  let name : Node := { span := node.span source, form := .identifier (node.text source) }
  .ok (.property name name false true)

/-- A call. What stands for the arguments of a tagged template is the template itself. -/
def call : Except ParseError (Form Node) := do
  let list ← node.require .arguments
  let callee ← lowerField lower node .function
  let arguments ← if list.kind == "arguments" then list.operands.mapM lower
    else ([·]) <$> lower list
  return .callExpression callee arguments (node.hasChild "optional_chain")

def construction : Except ParseError (Form Node) := do
  let callee ← lowerField lower node .constructor
  let arguments ← match node.field? .arguments with
    | some list => list.operands.mapM lower
    | none => .ok []
  return .newExpression callee arguments

def assignment : Except ParseError (Form Node) := do
  let operator := ((node.field? .operator).map (·.text source)).getD "="
  let left ← lowerField lower node .left
  return .assignmentExpression operator left (← lowerField lower node .right)

def binary : Except ParseError (Form Node) := do
  let operator := (← node.require .operator).text source
  let left ← lowerField lower node .left
  let right ← lowerField lower node .right
  return if isLogical operator then .logicalExpression operator left right
    else .binaryExpression operator left right

def unary : Except ParseError (Form Node) := do
  let operator := (← node.require .operator).text source
  return .unaryExpression operator (← lowerField lower node .argument) true

def update : Except ParseError (Form Node) := do
  let operator ← node.require .operator
  let argument ← node.require .argument
  let leading : Bool := operator.startByte < argument.startByte
  return .updateExpression (operator.text source) (← lower argument) leading

def member (place : Field) (computed : Bool) : Except ParseError (Form Node) := do
  let object ← lowerField lower node .object
  let name ← lowerField lower node place
  return .memberExpression object name computed (node.hasChild "optional_chain")

def ternary : Except ParseError (Form Node) := do
  let test ← lowerField lower node .condition
  let consequent ← lowerField lower node .consequence
  let alternate ← lowerField lower node .alternative
  return .conditionalExpression test consequent alternate

def sequence : Except ParseError (Form Node) := do
  return .sequenceExpression (← node.sequenceOperands.mapM lower)

/-- A template's text pieces lie between its backticks and around its substitutions. -/
def template : Except ParseError (Form Node) := do
  let opened := node.startByte + 1
  let close := max (node.endByte - 1) opened
  let substitutions := node.operands.filter (·.kind == "template_substitution")
  let expressions ← substitutions.mapM fun substitution => do
    lower (← substitution.firstOperand)
  return .templateLiteral ((quasiRanges opened close substitutions).map (quasi source)) expressions

def other : Except ParseError (Form Node) := do
  return .other node.kind (← node.operands.mapM lower)

/-- One level of lowering: the parts of the construct are lowered by `lower`. -/
def build : Except ParseError Node :=
  let located (form : Except ParseError (Form Node)) : Except ParseError Node :=
    Node.mk (node.span source) <$> form
  match Construct.ofKind node.kind with
  | .program => program source lower node
  | .wrapper => do lower (← node.firstOperand)
  | .expressionStatement => located (expressionStatement lower node)
  | .block => located (block lower node)
  | .ifStatement => located (ifStatement lower node)
  | .switchStatement => located (switchStatement lower node)
  | .switchCase => located (switchCase lower node)
  | .declaration => located (declaration source lower node)
  | .declarator => located (declarator lower node)
  | .returnStatement => located (returnStatement lower node)
  | .forStatement => located (forStatement lower node)
  | .forEach => located (forEach source lower node)
  | .whileStatement => located (whileStatement lower node)
  | .doStatement => located (doStatement lower node)
  | .tryStatement => located (tryStatement lower node)
  | .catchClause => located (catchClause lower node)
  | .functionDeclaration generator => located (functionDeclaration lower node generator)
  | .functionExpression generator => located (functionExpression lower node generator)
  | .arrowFunction => located (arrowFunction lower node)
  | .array => located (array lower node)
  | .object => located (object lower node)
  | .pair => located (pair lower node)
  | .shorthand => located (shorthand source node)
  | .call => located (call lower node)
  | .construction => located (construction lower node)
  | .assignment => located (assignment source lower node)
  | .binary => located (binary source lower node)
  | .unary => located (unary source lower node)
  | .update => located (update source lower node)
  | .member => located (member lower node .property false)
  | .subscript => located (member lower node .index true)
  | .ternary => located (ternary lower node)
  | .sequence => located (sequence lower node)
  | .template => located (template source lower node)
  | .this => located (.ok .thisExpression)
  | .identifier => located (.ok (.identifier (node.text source)))
  | .literal category => located (.ok (.literal (node.text source) category))
  | .other => located (other lower node)

end Builders

/-- Lowers a node with at most `levels` levels of constructs, itself included. -/
def lower (source : Bytes) : (levels : Nat) → Cst → Except ParseError Node
  | 0, node => .error (.tooDeep (node.start source).line)
  | levels + 1, node => build source (lower source levels) node

end Lowering

/-- The error that reports an error or missing node. -/
def Cst.faultError (source : Bytes) (fault : Cst) : ParseError :=
  let start := fault.start source
  .unexpected start.line start.column
    (if fault.label.isMissing then "missing " ++ fault.kind else fault.kind)

/-- The syntax tree of a concrete tree. -/
def Cst.parse (source : Bytes) (root : Cst) : Except ParseError Node :=
  match root.firstFault? with
  | some fault => .error (fault.faultError source)
  | none => Lowering.program source (Lowering.lower source maxDepth) root

end ScriptLint
