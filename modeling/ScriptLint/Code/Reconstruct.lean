import ScriptLint.Tree.Node

/-!
# Source reconstruction

Turns a node back into source-like text on one line. The text depends on the node alone. Programs,
switches, `do` loops, exception handling and constructs outside the vocabulary have no text.

Covers `reconstruct`, `node_text` and its parts `opt_text`, `join`, `statements`, `body_text`,
`braced` and `for_each`. A finding is reconstructed as its node.
-/

namespace ScriptLint

namespace Code

/-- The texts with a comma and a space between each two. -/
def commaJoined : List String → String
  | [] => ""
  | [text] => text
  | text :: rest => text ++ ", " ++ commaJoined rest

/-- The texts with a semicolon after each. -/
def terminated : List String → String
  | [] => ""
  | text :: rest => text ++ ";" ++ terminated rest

/-- The text in braces, with a space on each side unless there is nothing in between. -/
def braced (inner : String) : String :=
  if inner = "" then "\x7b\x7d" else "\x7b " ++ inner ++ " \x7d"

/-- The inside of a template: each quasi followed by the expression that stands after it. -/
def templateInside : List String → List String → String
  | [], _ => ""
  | quasi :: quasis, [] => quasi ++ templateInside quasis []
  | quasi :: quasis, expression :: expressions =>
    quasi ++ "$\x7b" ++ expression ++ "\x7d" ++ templateInside quasis expressions

/-- The inside of a statement body, given its text: a block's text ends each of its statements
already, and a single statement is ended here. -/
def bodyInside (kind : Kind) (text : String) : String :=
  if kind = .blockStatement then text else text ++ ";"

/-- A statement body in braces. -/
def bodyBraced (kind : Kind) (text : String) : String :=
  braced (bodyInside kind text)

/-- An operator on the side of its argument that it was written on. -/
def operatorText (operator argument : String) (leading : Bool) : String :=
  if leading then operator ++ " " ++ argument else argument ++ " " ++ operator

def memberText (object name : String) (computed optional : Bool) : String :=
  if computed then object ++ (if optional then "?." else "") ++ "[" ++ name ++ "]"
  else object ++ (if optional then "?." else ".") ++ name

end Code

open Code

mutual

/-- The source-like text of a node. -/
def Node.text : Node → String
  | ⟨_, form⟩ => form.text

def Form.text : Form Node → String
  | .arrayExpression elements => "[" ++ commaJoined (Node.texts elements) ++ "]"
  | .arrowFunctionExpression params body _ =>
    "(" ++ commaJoined (Node.texts params) ++ ") => " ++
      (if body.kind = .blockStatement then braced body.text else body.text)
  | .assignmentExpression operator left right
  | .binaryExpression operator left right
  | .logicalExpression operator left right => left.text ++ " " ++ operator ++ " " ++ right.text
  | .blockStatement body => terminated (Node.texts body)
  | .callExpression callee arguments optional =>
    callee.text ++ (if optional then "?." else "") ++
      "(" ++ commaJoined (Node.texts arguments) ++ ")"
  | .newExpression callee arguments =>
    "new " ++ callee.text ++ "(" ++ commaJoined (Node.texts arguments) ++ ")"
  | .conditionalExpression test consequent alternate =>
    "(" ++ test.text ++ " ? " ++ consequent.text ++ " : " ++ alternate.text ++ ")"
  | .expressionStatement expression => expression.text
  | .forInStatement left right body =>
    "for (" ++ left.text ++ " in " ++ right.text ++ ") " ++ bodyBraced body.kind body.text
  | .forOfStatement left right body =>
    "for (" ++ left.text ++ " of " ++ right.text ++ ") " ++ bodyBraced body.kind body.text
  | .forStatement init test update body =>
    "for (" ++ Node.optionalText init ++ "; " ++ Node.optionalText test ++ "; " ++
      Node.optionalText update ++ ") " ++ bodyBraced body.kind body.text
  | .functionDeclaration id _ body _ _ =>
    "function " ++ Node.optionalText id ++ " " ++ braced body.text
  | .functionExpression _ params body _ _ =>
    "function (" ++ commaJoined (Node.texts params) ++ ") " ++ braced body.text
  | .identifier name => name
  | .ifStatement test consequent alternate =>
    "if (" ++ test.text ++ ") " ++ bodyBraced consequent.kind consequent.text ++
      Node.elseText alternate
  | .literal raw _ => raw
  | .memberExpression object name computed optional =>
    memberText object.text name.text computed optional
  | .objectExpression properties =>
    -- Spreads and methods have no text of their own and are left out.
    braced (commaJoined ((Node.texts properties).filter (· ≠ "")))
  | .property key value computed shorthand =>
    if shorthand then key.text
    else if computed then "[" ++ key.text ++ "]: " ++ value.text
    else key.text ++ ": " ++ value.text
  | .returnStatement none => "return"
  | .returnStatement (some argument) => "return " ++ argument.text
  | .sequenceExpression expressions => commaJoined (Node.texts expressions)
  | .templateElement raw => raw
  | .templateLiteral quasis expressions =>
    "\x60" ++ templateInside (Node.texts quasis) (Node.texts expressions) ++ "\x60"
  | .thisExpression => "this"
  | .unaryExpression operator argument leading
  | .updateExpression operator argument leading => operatorText operator argument.text leading
  | .variableDeclaration keyword declarations =>
    keyword.keyword ++ " " ++ commaJoined (Node.texts declarations)
  | .variableDeclarator id none => id.text
  | .variableDeclarator id (some init) => id.text ++ " = " ++ init.text
  | .whileStatement test body => "while (" ++ test.text ++ ") " ++ bodyBraced body.kind body.text
  | .program _ _ | .switchStatement _ _ | .switchCase _ _ | .doWhileStatement _ _
  | .tryStatement _ _ _ | .catchClause _ _ | .other _ _ => ""

def Node.texts : List Node → List String
  | [] => []
  | node :: rest => node.text :: Node.texts rest

/-- The text of a node that may be absent. -/
def Node.optionalText : Option Node → String
  | none => ""
  | some node => node.text

/-- The `else` branch of a conditional statement; a chained conditional is not put in braces. -/
def Node.elseText : Option Node → String
  | none => ""
  | some node =>
    " else " ++
      (if node.kind = .ifStatement then node.text else bodyBraced node.kind node.text)

end

end ScriptLint
