import ScriptLint.Tree.Kind

/-!
# Handlers by kind

A table gives at most one handler to each kind of node. A handler that is registered replaces the
one before it, and one that is chained runs in front. What a handler is, is left open: all that the
operations need of handlers is that two of them can be put one after the other.

Covers the registry's `empty`, `register`, `with` (here `insert`), `chain`, `merged`, `remove`,
`get` (here `handler?`), `contains`, `kinds`, `len` (here `size`) and debug text, `STRUCTURAL` and
`STUBS`. The log line of a registration is left out, and so is the sharing of handlers between
copies, which no operation can tell.
-/

namespace ScriptLint

/-- Handlers that can be put one after the other. -/
class Sequential (H : Type) where
  andThen : H → H → H

/-- The handler of each kind. -/
structure HandlerTable (H : Type) where
  handler? : Kind → Option H

namespace Registry

/-- Kinds that are walked by default. -/
def structural : List Kind :=
  [.program, .expressionStatement, .blockStatement, .ifStatement, .switchStatement, .switchCase,
   .variableDeclaration, .variableDeclarator, .returnStatement, .functionDeclaration,
   .functionExpression, .arrowFunctionExpression, .arrayExpression, .objectExpression, .property,
   .callExpression, .newExpression, .assignmentExpression, .binaryExpression, .logicalExpression,
   .unaryExpression, .updateExpression, .memberExpression, .conditionalExpression,
   .sequenceExpression, .templateLiteral]

/-- Kinds that have a handler by default but are not entered. -/
def stubs : List Kind :=
  [.forStatement, .forInStatement, .forOfStatement, .whileStatement, .doWhileStatement,
   .tryStatement]

end Registry

namespace HandlerTable

variable {H : Type}

/-- No handler at all. -/
def empty : HandlerTable H where
  handler? _ := none

/-- The table with the handler of one kind replaced. -/
def insert (table : HandlerTable H) (kind : Kind) (handler : H) : HandlerTable H where
  handler? asked := if asked = kind then some handler else table.handler? asked

/-- Registers pairs in order, so the last one for a kind stays. -/
def register (table : HandlerTable H) (handlers : List (Kind × H)) : HandlerTable H :=
  handlers.foldl (fun table pair => table.insert pair.1 pair.2) table

/-- Puts a handler in front of the one that the kind has. -/
def chain [Sequential H] (table : HandlerTable H) (kind : Kind) (handler : H) : HandlerTable H :=
  table.insert kind <|
    match table.handler? kind with
    | some previous => Sequential.andThen handler previous
    | none => handler

/-- The table with another one laid over it. -/
def merged (table layer : HandlerTable H) : HandlerTable H where
  handler? kind := (layer.handler? kind).or (table.handler? kind)

def remove (table : HandlerTable H) (kind : Kind) : HandlerTable H where
  handler? asked := if asked = kind then none else table.handler? asked

def contains (table : HandlerTable H) (kind : Kind) : Bool :=
  (table.handler? kind).isSome

/-- The kinds that have a handler, in the order of `Kind.all`. -/
def kinds (table : HandlerTable H) : List Kind :=
  Kind.all.filter table.contains

def size (table : HandlerTable H) : Nat :=
  table.kinds.length

/-- The listing of a table's kinds. -/
def describe (table : HandlerTable H) : String :=
  "Registry \x7b kinds: [" ++ ", ".intercalate (table.kinds.map Kind.name) ++ "] \x7d"

/-- One handler for the kinds that are walked by default, and another for those that have one but
are not entered. -/
def builtin (walk noop : H) : HandlerTable H :=
  (empty.register (Registry.structural.map (·, walk))).register (Registry.stubs.map (·, noop))

end HandlerTable

end ScriptLint
