import ScriptLint.Engine.Registry

/-!
# Stock rules

Each rule puts its handler in front of what the registry holds for the kinds it looks at, so its
detection runs first and the structural default, or another rule, runs after it.

Covers `catalog`, `registry`, `scan_body` (here `ownBody`), `count_returns`, `keyword` and each
rule's `name`, `tag`, `description` and `install`. The log line of an installation is left out.
-/

namespace ScriptLint

namespace Node

/-- Whether a node starts a body of its own: a function, or a class method, which stands outside
the vocabulary. -/
def startsBody (node : Node) : Bool :=
  node.isFunction || node.kindName == "method_definition"

/-- Everything shown below a node that belongs to the node's own body, in document order. -/
def ownBody (node : Node) : List Node :=
  node.children.attach.flatMap fun child =>
    if child.1.startsBody then [] else child.1 :: child.1.ownBody
termination_by sizeOf node
decreasing_by exact sizeOf_lt_of_mem_children child.2

/-- How many nodes of a kind belong to the node's own body. -/
def countOwn (node : Node) (kind : Kind) : Nat :=
  node.ownBody.countP (·.kind = kind)

/-- The return statements of a function itself, without those of functions inside it. -/
def countReturns (node : Node) : Nat :=
  node.countOwn .returnStatement

/-- The body of a loop. -/
def loopBody? (node : Node) : Option Node :=
  match node.form with
  | .forStatement _ _ _ body | .forInStatement _ _ body | .forOfStatement _ _ body
  | .whileStatement _ body | .doWhileStatement body _ => some body
  | _ => none

theorem sizeOf_lt_of_loopBody? {node body : Node} (isBody : node.loopBody? = some body) :
    sizeOf body < sizeOf node := by
  refine sizeOf_lt_of_mem_fields ?_
  unfold loopBody? at isBody
  split at isBody <;> simp_all [fields, Form.fields]

/-- How a loop is called in a description. -/
def loopWord (node : Node) : String :=
  match node.kind with
  | .forStatement => "for"
  | .forInStatement => "for...in"
  | .forOfStatement => "for...of"
  | .whileStatement => "while"
  | .doWhileStatement => "do...while"
  | _ => "unknown"

end Node

/-- A stock rule with its limit, if it has one. -/
inductive Rule where
  | tooManyReturns (max : Nat)
  | tooManyParams (max : Nat)
  | nestedConditional
  | imperativeLoop
  deriving DecidableEq, Repr

namespace Rule

def defaultMaxReturns : Nat := 1

def defaultMaxParams : Nat := 3

/-- The stock rules with their default limits. -/
def catalog : List Rule :=
  [.tooManyReturns defaultMaxReturns, .tooManyParams defaultMaxParams, .nestedConditional,
   .imperativeLoop]

/-- The key of a rule in a configuration. -/
def name : Rule → String
  | .tooManyReturns _ => "too_many_returns"
  | .tooManyParams _ => "too_many_params"
  | .nestedConditional => "nested_conditional"
  | .imperativeLoop => "imperative_loop"

/-- The tag of a rule's findings. -/
def tag : Rule → String
  | .tooManyReturns _ => "TooManyReturns"
  | .tooManyParams _ => "TooManyParams"
  | .nestedConditional => "NestedConditional"
  | .imperativeLoop => "ImperativeLoop"

def description : Rule → String
  | .tooManyReturns max => "function with more than " ++ toString max ++ " return statement(s)"
  | .tooManyParams max => "function with more than " ++ toString max ++ " parameters"
  | .nestedConditional => "conditional expression containing another conditional"
  | .imperativeLoop => "loop statement where an array method may fit"

/-- The kinds of node that a rule looks at. -/
def kinds : Rule → List Kind
  | .tooManyReturns _ | .tooManyParams _ => Kind.functions
  | .nestedConditional => [.conditionalExpression]
  | .imperativeLoop => Kind.loops

/-- What a rule has to say about a node of one of its kinds. -/
def verdict? (rule : Rule) (node : Node) : Option String :=
  match rule with
  | .tooManyReturns max =>
    let count := node.countReturns
    if count > max then
      some (toString count ++ " return statements, at most " ++ toString max ++ " allowed")
    else none
  | .tooManyParams max =>
    let count := (node.params?.getD []).length
    if count > max then
      some (toString count ++ " parameters, at most " ++ toString max ++ " allowed")
    else none
  | .nestedConditional =>
    let count := node.countOwn .conditionalExpression
    if count > 0 then some (toString count ++ " nested conditional(s)") else none
  | .imperativeLoop => some (node.loopWord ++ " loop")

/-- The finding of a rule at a node, if there is one. -/
def finding? (rule : Rule) (node : Node) : Option Finding :=
  (rule.verdict? node).map (Finding.tagged node rule.tag).withDescription

/-- Goes into the body of a loop, which the structural defaults never enter. -/
def enterLoop : Handler := fun node _ =>
  match isBody : node.loopBody? with
  | some body => [.visit body (some node) (Node.sizeOf_lt_of_loopBody? isBody)]
  | none => []

/-- Reports the rule's finding. The loop rule then goes on into the loop. -/
def handler (rule : Rule) : Handler := fun node parent =>
  ((rule.finding? node).toList.map .report) ++
    (match rule with
    | .imperativeLoop => enterLoop node parent
    | _ => [])

/-- Puts the rule's handler in front of the handlers of its kinds. -/
def install (rule : Rule) (registry : Registry) : Registry :=
  rule.kinds.foldl (fun registry kind => registry.chain kind rule.handler) registry

/-- The structural defaults with rules installed one after the other. -/
def registry (rules : List Rule) : Registry :=
  rules.foldl (fun registry rule => rule.install registry) Registry.builtin

end Rule

end ScriptLint
