/-!
# Node kinds

The closed vocabulary of tree nodes, in the order that sorted listings use, with the keyword of
a variable declaration and the category of a literal.

Covers `NodeType` with `as_str`, `FUNCTIONS` and `LOOPS`, `VarKind` with `as_str` and `parse`, and
`LiteralKind`.
-/

namespace ScriptLint

/-- The tag of a node. `other` stands for every grammar construct outside the vocabulary. -/
inductive Kind where
  | program
  | expressionStatement
  | blockStatement
  | ifStatement
  | switchStatement
  | switchCase
  | variableDeclaration
  | variableDeclarator
  | returnStatement
  | forStatement
  | forInStatement
  | forOfStatement
  | whileStatement
  | doWhileStatement
  | tryStatement
  | catchClause
  | functionDeclaration
  | functionExpression
  | arrowFunctionExpression
  | arrayExpression
  | objectExpression
  | property
  | callExpression
  | newExpression
  | assignmentExpression
  | binaryExpression
  | logicalExpression
  | unaryExpression
  | updateExpression
  | memberExpression
  | conditionalExpression
  | sequenceExpression
  | templateLiteral
  | templateElement
  | thisExpression
  | identifier
  | literal
  | other
  deriving DecidableEq, Repr

namespace Kind

/-- Every kind once, in declaration order. -/
def all : List Kind :=
  [.program, .expressionStatement, .blockStatement, .ifStatement, .switchStatement,
   .switchCase, .variableDeclaration, .variableDeclarator, .returnStatement, .forStatement,
   .forInStatement, .forOfStatement, .whileStatement, .doWhileStatement, .tryStatement,
   .catchClause, .functionDeclaration, .functionExpression, .arrowFunctionExpression,
   .arrayExpression, .objectExpression, .property, .callExpression, .newExpression,
   .assignmentExpression, .binaryExpression, .logicalExpression, .unaryExpression,
   .updateExpression, .memberExpression, .conditionalExpression, .sequenceExpression,
   .templateLiteral, .templateElement, .thisExpression, .identifier, .literal, .other]

/-- The name a kind is listed and reported under. -/
def name : Kind → String
  | .program => "Program"
  | .expressionStatement => "ExpressionStatement"
  | .blockStatement => "BlockStatement"
  | .ifStatement => "IfStatement"
  | .switchStatement => "SwitchStatement"
  | .switchCase => "SwitchCase"
  | .variableDeclaration => "VariableDeclaration"
  | .variableDeclarator => "VariableDeclarator"
  | .returnStatement => "ReturnStatement"
  | .forStatement => "ForStatement"
  | .forInStatement => "ForInStatement"
  | .forOfStatement => "ForOfStatement"
  | .whileStatement => "WhileStatement"
  | .doWhileStatement => "DoWhileStatement"
  | .tryStatement => "TryStatement"
  | .catchClause => "CatchClause"
  | .functionDeclaration => "FunctionDeclaration"
  | .functionExpression => "FunctionExpression"
  | .arrowFunctionExpression => "ArrowFunctionExpression"
  | .arrayExpression => "ArrayExpression"
  | .objectExpression => "ObjectExpression"
  | .property => "Property"
  | .callExpression => "CallExpression"
  | .newExpression => "NewExpression"
  | .assignmentExpression => "AssignmentExpression"
  | .binaryExpression => "BinaryExpression"
  | .logicalExpression => "LogicalExpression"
  | .unaryExpression => "UnaryExpression"
  | .updateExpression => "UpdateExpression"
  | .memberExpression => "MemberExpression"
  | .conditionalExpression => "ConditionalExpression"
  | .sequenceExpression => "SequenceExpression"
  | .templateLiteral => "TemplateLiteral"
  | .templateElement => "TemplateElement"
  | .thisExpression => "ThisExpression"
  | .identifier => "Identifier"
  | .literal => "Literal"
  | .other => "Other"

/-- The kind listed under a name. -/
def ofName? (text : String) : Option Kind :=
  all.find? (·.name == text)

/-- The three kinds of function. -/
def functions : List Kind :=
  [.functionDeclaration, .functionExpression, .arrowFunctionExpression]

/-- The five loop statements. -/
def loops : List Kind :=
  [.forStatement, .forInStatement, .forOfStatement, .whileStatement, .doWhileStatement]

/-- Kinds that hand the parent they were given down to their successors instead of themselves, so
that a rule sees the nearest function or conditional and not the nearest block. -/
def passesParent : Kind → Bool
  | .expressionStatement | .blockStatement | .variableDeclarator
  | .objectExpression | .property | .memberExpression => true
  | _ => false

theorem mem_all (kind : Kind) : kind ∈ all := by
  cases kind <;> decide

theorem nodup_all : all.Nodup := by
  decide

end Kind

/-- The keyword of a variable declaration. -/
inductive VarKind where
  | var
  | letVar
  | const
  deriving DecidableEq, Repr

namespace VarKind

def keyword : VarKind → String
  | .var => "var"
  | .letVar => "let"
  | .const => "const"

def ofKeyword? (text : String) : Option VarKind :=
  if text = "var" then some .var
  else if text = "let" then some .letVar
  else if text = "const" then some .const
  else none

theorem ofKeyword?_keyword (kind : VarKind) : ofKeyword? kind.keyword = some kind := by
  cases kind <;> rfl

end VarKind

/-- The lexical category of a literal. -/
inductive LiteralKind where
  | number
  | string
  | boolean
  | null
  | regExp
  deriving DecidableEq, Repr

namespace LiteralKind

def all : List LiteralKind :=
  [.number, .string, .boolean, .null, .regExp]

def name : LiteralKind → String
  | .number => "Number"
  | .string => "String"
  | .boolean => "Boolean"
  | .null => "Null"
  | .regExp => "RegExp"

def ofName? (text : String) : Option LiteralKind :=
  all.find? (·.name = text)

end LiteralKind

end ScriptLint
