import ScriptLint.Tree.Node

/-!
# Places and attributes

The sub-nodes of a form under the names of the places they stand in, and what else the form says.
-/

namespace ScriptLint

/-- A place that holds sub-nodes. -/
inductive Place (α : Type) where
  | one (value : α)
  | optional (value : Option α)
  | many (values : List α)
  deriving DecidableEq, Repr

/-- A part of a form that is no sub-node. -/
inductive Attribute where
  | text (content : String)
  | flag (value : Bool)
  | comments (comments : List Comment)
  deriving DecidableEq, Repr

namespace Form

variable {α : Type}

/-- The named places of a form, in declaration order. -/
def places : Form α → List (String × Place α)
  | .program body _ | .blockStatement body => [("body", .many body)]
  | .expressionStatement expression => [("expression", .one expression)]
  | .ifStatement test consequent alternate =>
    [("test", .one test), ("consequent", .one consequent), ("alternate", .optional alternate)]
  | .switchStatement discriminant cases =>
    [("discriminant", .one discriminant), ("cases", .many cases)]
  | .switchCase test consequent => [("test", .optional test), ("consequent", .many consequent)]
  | .variableDeclaration _ declarations => [("declarations", .many declarations)]
  | .variableDeclarator id init => [("id", .one id), ("init", .optional init)]
  | .returnStatement argument => [("argument", .optional argument)]
  | .forStatement init test update body =>
    [("init", .optional init), ("test", .optional test), ("update", .optional update),
     ("body", .one body)]
  | .forInStatement left right body | .forOfStatement left right body =>
    [("left", .one left), ("right", .one right), ("body", .one body)]
  | .whileStatement test body => [("test", .one test), ("body", .one body)]
  | .doWhileStatement body test => [("body", .one body), ("test", .one test)]
  | .tryStatement block handler finalizer =>
    [("block", .one block), ("handler", .optional handler), ("finalizer", .optional finalizer)]
  | .catchClause param body => [("param", .optional param), ("body", .one body)]
  | .functionDeclaration id params body _ _ | .functionExpression id params body _ _ =>
    [("id", .optional id), ("params", .many params), ("body", .one body)]
  | .arrowFunctionExpression params body _ => [("params", .many params), ("body", .one body)]
  | .arrayExpression elements => [("elements", .many elements)]
  | .objectExpression properties => [("properties", .many properties)]
  | .property key value _ _ => [("key", .one key), ("value", .one value)]
  | .callExpression callee arguments _ | .newExpression callee arguments =>
    [("callee", .one callee), ("arguments", .many arguments)]
  | .assignmentExpression _ left right | .binaryExpression _ left right
  | .logicalExpression _ left right => [("left", .one left), ("right", .one right)]
  | .unaryExpression _ argument _ | .updateExpression _ argument _ =>
    [("argument", .one argument)]
  | .memberExpression object name _ _ => [("object", .one object), ("property", .one name)]
  | .conditionalExpression test consequent alternate =>
    [("test", .one test), ("consequent", .one consequent), ("alternate", .one alternate)]
  | .sequenceExpression expressions => [("expressions", .many expressions)]
  | .templateLiteral quasis expressions =>
    [("quasis", .many quasis), ("expressions", .many expressions)]
  | .other _ parts => [("children", .many parts)]
  | .templateElement _ | .thisExpression | .identifier _ | .literal _ _ => []

/-- The named attributes of a form. -/
def attributes : Form α → List (String × Attribute)
  | .program _ comments => [("comments", .comments comments)]
  | .variableDeclaration keyword _ => [("kind", .text keyword.keyword)]
  | .functionDeclaration _ _ _ isAsync generator | .functionExpression _ _ _ isAsync generator =>
    [("is_async", .flag isAsync), ("generator", .flag generator)]
  | .arrowFunctionExpression _ _ isAsync => [("is_async", .flag isAsync)]
  | .property _ _ computed shorthand =>
    [("computed", .flag computed), ("shorthand", .flag shorthand)]
  | .callExpression _ _ optional => [("optional", .flag optional)]
  | .assignmentExpression operator _ _ | .binaryExpression operator _ _
  | .logicalExpression operator _ _ => [("operator", .text operator)]
  | .unaryExpression operator _ leading | .updateExpression operator _ leading =>
    [("operator", .text operator), ("prefix", .flag leading)]
  | .memberExpression _ _ computed optional =>
    [("computed", .flag computed), ("optional", .flag optional)]
  | .templateElement raw => [("raw", .text raw)]
  | .identifier name => [("name", .text name)]
  | .literal raw category => [("raw", .text raw), ("kind", .text category.name)]
  | .other grammarKind _ => [("kind", .text grammarKind)]
  | _ => []

end Form

end ScriptLint
