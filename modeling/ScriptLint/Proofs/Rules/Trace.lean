import Mathlib.Data.List.Flatten
import ScriptLint.Proofs.Engine.Dispatch
import ScriptLint.Proofs.Rules.OwnBody
import ScriptLint.Rules.Settings

/-!
# The meaning of an analysis

Handlers, chaining and dispatch come down to one list: the nodes of the tree in the order in which
a depth-first trace meets them. An analysis reports what each of these nodes calls for, and nothing
else. The trace is told kind by kind, without the engine; whether it goes into loops is the only
thing about the rules that it depends on.
-/

namespace ScriptLint

namespace Node

/-- Where a trace goes on from a node, kind by kind. -/
def traceSteps (intoLoops : Bool) (node : Node) : List Node :=
  match node.form with
  | .program body _ => body
  | .expressionStatement expression => [expression]
  | .blockStatement body => body
  | .ifStatement test consequent alternate => [test, consequent] ++ alternate.toList
  | .switchStatement discriminant cases => [discriminant] ++ cases
  | .switchCase test consequent => test.toList ++ consequent
  | .variableDeclaration _ declarations => declarations
  | .variableDeclarator id init => [id] ++ init.toList
  | .returnStatement argument => argument.toList
  | .arrayExpression elements => elements
  | .objectExpression properties => properties
  | .assignmentExpression _ left right => [left, right]
  | .binaryExpression _ left right => [left, right]
  | .logicalExpression _ left right => [left, right]
  | .unaryExpression _ argument _ => [argument]
  | .updateExpression _ argument _ => [argument]
  | .conditionalExpression test consequent alternate => [test, consequent, alternate]
  | .sequenceExpression expressions => expressions
  | .templateLiteral _ expressions => expressions
  | .property _ value _ _ => [value]
  | .memberExpression object _ _ _ => [object]
  | .callExpression callee arguments _ => arguments ++ [callee]
  | .newExpression callee arguments => arguments ++ [callee]
  | .functionDeclaration _ _ body _ _ | .functionExpression _ _ body _ _
  | .arrowFunctionExpression _ body _ =>
    match body.form with
    | .blockStatement statements => statements
    | _ => [body]
  | .forStatement _ _ _ body | .forInStatement _ _ body | .forOfStatement _ _ body
  | .whileStatement _ body | .doWhileStatement body _ => if intoLoops then [body] else []
  | _ => []

/-- Off the loops a trace takes the steps of the walk. -/
theorem traceSteps_eq (intoLoops : Bool) (node : Node) :
    node.traceSteps intoLoops =
      if node.kind ∈ Kind.loops then if intoLoops then node.loopBody?.toList else []
      else node.successors := by
  obtain ⟨span, form⟩ := node
  cases form <;> rfl

/-- Nothing below a node is walked unless its kind is walked by default. -/
theorem successors_eq_nil {node : Node} (unwalked : node.kind ∉ Registry.structural) :
    node.successors = [] := by
  obtain ⟨span, form⟩ := node
  cases form <;> simp_all [kind, Form.kind, Registry.structural, successors, Form.fields]

theorem sizeOf_lt_of_mem_traceSteps {intoLoops : Bool} {node next : Node}
    (member : next ∈ node.traceSteps intoLoops) : sizeOf next < sizeOf node := by
  rw [traceSteps_eq] at member
  split at member
  · split at member
    · exact sizeOf_lt_of_loopBody? (Option.mem_toList.mp member)
    · simp at member
  · exact sizeOf_lt_of_mem_successors member

/-- The nodes of a tree in the order in which a depth-first trace meets them. -/
def trace (intoLoops : Bool) (node : Node) : List Node :=
  node :: (node.traceSteps intoLoops).attach.flatMap fun next => next.1.trace intoLoops
termination_by sizeOf node
decreasing_by exact sizeOf_lt_of_mem_traceSteps next.2

theorem trace_eq (intoLoops : Bool) (node : Node) :
    node.trace intoLoops =
      node :: (node.traceSteps intoLoops).flatMap fun next => next.trace intoLoops := by
  rw [trace]
  simp

/-- Induction with a hypothesis for every node that a trace goes on to. -/
@[elab_as_elim]
theorem traceInduction (intoLoops : Bool) {motive : Node → Prop}
    (step : ∀ node, (∀ next ∈ node.traceSteps intoLoops, motive next) → motive node)
    (node : Node) : motive node :=
  step node fun next _ => traceInduction intoLoops step next
termination_by sizeOf node
decreasing_by exact sizeOf_lt_of_mem_traceSteps (by assumption)

end Node

namespace Rule

/-- What a rule reports at a node, if it looks at nodes of that kind. -/
def findingsAt (rule : Rule) (node : Node) : List Finding :=
  if node.kind ∈ rule.kinds then (rule.finding? node).toList else []

theorem tag_ne_empty (rule : Rule) : rule.tag ≠ "" := by
  cases rule <;> simp [tag]

theorem nodup_kinds (rule : Rule) : rule.kinds.Nodup := by
  cases rule <;> simp [kinds, Kind.functions, Kind.loops]

theorem perform_enterLoop (registry : Registry) (node : Node) (parent : Option Node) :
    registry.perform (enterLoop node parent) =
      node.loopBody?.toList.flatMap fun body => registry.visit body (some node) := by
  unfold enterLoop
  split <;> simp_all [Registry.perform]

/-- A registry of rules does at a node what the rules say, the newest first, and then what the
defaults do. -/
theorem actions_registry (rules : List Rule) (node : Node) (parent : Option Node) :
    (registry rules).actions node parent =
      (rules.reverse.flatMap fun rule =>
        if node.kind ∈ rule.kinds then rule.handler node parent else []) ++
      Registry.builtin.actions node parent := by
  suffices installed : ∀ base : Registry,
      (rules.foldl (fun registry rule => rule.install registry) base).actions node parent =
        (rules.reverse.flatMap fun rule =>
          if node.kind ∈ rule.kinds then rule.handler node parent else []) ++
        base.actions node parent from installed Registry.builtin
  induction rules with
  | nil => intro base; rfl
  | cons rule rules ih =>
    intro base
    rw [List.foldl_cons, ih, install, Registry.actions_foldl_chain _ _ _ rule.nodup_kinds]
    simp [List.append_assoc]

/-- What carrying out a rule's handler reports: the rule's own finding, and for the loop rule
whatever the loop's body gives. -/
theorem perform_handler (registry : Registry) (rule : Rule) (node : Node) (parent : Option Node) :
    registry.perform (rule.handler node parent) =
      (rule.finding? node).toList ++
        if rule = .imperativeLoop then
          node.loopBody?.toList.flatMap fun body => registry.visit body (some node)
        else [] := by
  cases rule <;>
    simp [handler, Registry.perform_append, Registry.perform_report, perform_enterLoop]

theorem mem_kinds_of_loop {kind : Kind} (loop : kind ∈ Kind.loops) (rule : Rule) :
    kind ∈ rule.kinds ↔ rule = .imperativeLoop := by
  have apart : ∀ kind ∈ Kind.loops, kind ∉ Kind.functions ∧ kind ≠ .conditionalExpression := by
    decide
  have := apart kind loop
  cases rule <;> simp_all [kinds]

theorem ne_imperativeLoop_of_mem_kinds {kind : Kind} (noLoop : kind ∉ Kind.loops) {rule : Rule}
    (looksAt : kind ∈ rule.kinds) : rule ≠ .imperativeLoop := by
  rintro rfl
  exact noLoop looksAt

/-- A step that only the loop rule takes is taken once when the rule is installed once. -/
theorem flatMap_imperativeLoop {α : Type} {rules : List Rule}
    (once : rules.count .imperativeLoop ≤ 1) (items : Rule → List α) :
    (rules.flatMap fun rule => if rule = .imperativeLoop then items rule else []) =
      if .imperativeLoop ∈ rules then items .imperativeLoop else [] := by
  induction rules with
  | nil => rfl
  | cons rule rules ih =>
    by_cases loop : rule = .imperativeLoop
    · subst loop
      have absent : .imperativeLoop ∉ rules := by
        rw [List.count_cons_self] at once
        exact List.count_eq_zero.mp (by omega)
      simp [ih (by simp [List.count_eq_zero.mpr absent]), absent]
    · have rest : rules.count .imperativeLoop ≤ 1 := by
        rwa [List.count_cons_of_ne loop] at once
      simp [loop, ih rest, Ne.symm loop]

theorem parentBelow_of_loop {node : Node} (loop : node.kind ∈ Kind.loops)
    (parent : Option Node) : node.parentBelow parent = some node := by
  have keeps : ∀ kind ∈ Kind.loops, kind.passesParent = false := by decide
  simp [Node.parentBelow, keeps _ loop]

/-- One visit reports what the rules find at the node, the newest rule first, and goes on along
the trace. -/
theorem visit_registry {rules : List Rule} (once : rules.count .imperativeLoop ≤ 1)
    (node : Node) (parent : Option Node) :
    (registry rules).visit node parent =
      (rules.reverse.flatMap fun rule => rule.findingsAt node) ++
        (node.traceSteps (.imperativeLoop ∈ rules)).flatMap fun next =>
          (registry rules).visit next (node.parentBelow parent) := by
  have performed : ∀ rule : Rule, (registry rules).perform
      (if node.kind ∈ rule.kinds then rule.handler node parent else []) =
        if node.kind ∈ rule.kinds then (registry rules).perform (rule.handler node parent)
        else [] := by
    intro rule
    split <;> rfl
  rw [Registry.visit_eq_perform, actions_registry, Registry.perform_append,
    Registry.perform_flatMap, Registry.actions_builtin, Node.traceSteps_eq]
  simp only [performed, perform_handler, findingsAt]
  by_cases loop : node.kind ∈ Kind.loops
  · -- Only the loop rule looks at loops, and the defaults stop there.
    have apart : ∀ kind ∈ Kind.loops, kind ∉ Registry.structural := by decide
    have onceReversed : rules.reverse.count .imperativeLoop ≤ 1 := by rwa [List.count_reverse]
    simp only [mem_kinds_of_loop loop, flatMap_imperativeLoop onceReversed, apart _ loop, loop,
      parentBelow_of_loop loop, if_true, if_false, Registry.perform_nil, List.append_nil]
    by_cases installed : .imperativeLoop ∈ rules <;> simp [installed]
  · -- No other rule goes anywhere, so all that is left is the walk.
    have reported : ∀ rule : Rule,
        (if node.kind ∈ rule.kinds then (rule.finding? node).toList ++
          (if rule = .imperativeLoop then node.loopBody?.toList.flatMap fun body =>
            (registry rules).visit body (some node) else []) else []) =
        if node.kind ∈ rule.kinds then (rule.finding? node).toList else [] := by
      intro rule
      split
      · next looksAt => simp [ne_imperativeLoop_of_mem_kinds loop looksAt]
      · rfl
    simp only [reported, loop, if_false]
    by_cases walked : node.kind ∈ Registry.structural
    · simp [walked, Registry.perform_walk]
    · simp [walked, Registry.perform_nil, Node.successors_eq_nil walked]

/-- The exact result of running rules that hold the loop rule at most once: the findings of each
node on the trace, those of newer rules before those of older ones. -/
theorem visit_registry_eq_trace {rules : List Rule} (once : rules.count .imperativeLoop ≤ 1)
    (node : Node) (parent : Option Node) :
    (registry rules).visit node parent =
      (node.trace (.imperativeLoop ∈ rules)).flatMap fun reached =>
        rules.reverse.flatMap fun rule => rule.findingsAt reached := by
  induction node using Node.traceInduction (decide (.imperativeLoop ∈ rules))
    generalizing parent with
  | step node ih =>
    rw [visit_registry once, Node.trace_eq, List.flatMap_cons, List.flatMap_assoc]
    congr 1
    exact List.flatMap_congr fun next member => ih next member _

end Rule

namespace RuleSettings

/-- The result at a function with too many parameters. -/
def paramsResult (settings : RuleSettings) (function : Node) (params : List Node) :
    List Finding :=
  let count := params.length
  let limit := settings.tooManyParams.max.getD 3
  if settings.tooManyParams.enabled ∧ limit < count then
    [{ node := function
       tag := "TooManyParams"
       description := toString count ++ " parameters, at most " ++ toString limit ++ " allowed" }]
  else []

/-- The result at a function that returns in too many places of its own body. -/
def returnsResult (settings : RuleSettings) (function : Node) : List Finding :=
  let count := function.countWithin .returnStatement
  let limit := settings.tooManyReturns.max.getD 1
  if settings.tooManyReturns.enabled ∧ limit < count then
    [{ node := function
       tag := "TooManyReturns"
       description :=
         toString count ++ " return statements, at most " ++ toString limit ++ " allowed" }]
  else []

/-- The result at a conditional with other conditionals in it. -/
def nestingResult (settings : RuleSettings) (conditional : Node) : List Finding :=
  let count := conditional.countWithin .conditionalExpression
  if settings.nestedConditional.enabled ∧ 0 < count then
    [{ node := conditional
       tag := "NestedConditional"
       description := toString count ++ " nested conditional(s)" }]
  else []

/-- The result at a loop. -/
def loopResult (settings : RuleSettings) (loop : Node) (word : String) : List Finding :=
  if settings.imperativeLoop.enabled then
    [{ node := loop, tag := "ImperativeLoop", description := word ++ " loop" }]
  else []

/-- What an analysis reports at one node: parameters before returns at a function, and nothing at
a kind that no rule is about. -/
def resultsAt (settings : RuleSettings) (node : Node) : List Finding :=
  match node.form with
  | .functionDeclaration _ params _ _ _ | .functionExpression _ params _ _ _
  | .arrowFunctionExpression params _ _ =>
    settings.paramsResult node params ++ settings.returnsResult node
  | .conditionalExpression _ _ _ => settings.nestingResult node
  | .forStatement _ _ _ _ => settings.loopResult node "for"
  | .forInStatement _ _ _ => settings.loopResult node "for...in"
  | .forOfStatement _ _ _ => settings.loopResult node "for...of"
  | .whileStatement _ _ => settings.loopResult node "while"
  | .doWhileStatement _ _ => settings.loopResult node "do...while"
  | _ => []

theorem count_imperativeLoop_rules (settings : RuleSettings) :
    settings.rules.count .imperativeLoop ≤ 1 := by
  unfold rules
  split_ifs <;> simp

theorem imperativeLoop_mem_rules (settings : RuleSettings) :
    .imperativeLoop ∈ settings.rules ↔ settings.imperativeLoop.enabled = true := by
  unfold rules
  split_ifs <;> simp_all

/-- Reading the enabled rules backwards, one after the other. -/
theorem flatMap_reverse_rules {α : Type} (settings : RuleSettings) (items : Rule → List α) :
    settings.rules.reverse.flatMap items =
      (if settings.imperativeLoop.enabled then items .imperativeLoop else []) ++
      ((if settings.nestedConditional.enabled then items .nestedConditional else []) ++
      ((if settings.tooManyParams.enabled then
        items (.tooManyParams (settings.tooManyParams.max.getD Rule.defaultMaxParams)) else []) ++
      (if settings.tooManyReturns.enabled then
        items (.tooManyReturns (settings.tooManyReturns.max.getD Rule.defaultMaxReturns))
        else []))) := by
  unfold rules
  split_ifs <;> simp

/-- A rule that is on and finds its condition met gives the one finding it has to say. -/
theorem toList_finding?_of_verdict {rule : Rule} {node : Node} {text : String} {met : Prop}
    [Decidable met] (verdict : rule.verdict? node = if met then some text else none)
    (enabled : Bool) :
    (if enabled then (rule.finding? node).toList else []) =
      if enabled ∧ met then [{ node, tag := rule.tag, description := text }] else [] := by
  have tagged := rule.tag_ne_empty
  by_cases holds : met
  · cases enabled <;>
      simp [Rule.finding?, verdict, holds, Finding.tagged, tagged, Finding.withDescription]
  · simp [Rule.finding?, verdict, holds]

theorem finding?_tooManyParams (settings : RuleSettings) (node : Node) :
    (if settings.tooManyParams.enabled then
      (Rule.finding? (.tooManyParams (settings.tooManyParams.max.getD Rule.defaultMaxParams))
        node).toList else []) = settings.paramsResult node (node.params?.getD []) :=
  toList_finding?_of_verdict rfl _

theorem finding?_tooManyReturns (settings : RuleSettings) (node : Node) :
    (if settings.tooManyReturns.enabled then
      (Rule.finding? (.tooManyReturns (settings.tooManyReturns.max.getD Rule.defaultMaxReturns))
        node).toList else []) = settings.returnsResult node := by
  have counted : node.countReturns = node.countWithin .returnStatement :=
    node.countOwn_eq_countWithin (by decide) (by decide)
  rw [returnsResult, ← counted]
  exact toList_finding?_of_verdict rfl _

theorem finding?_nestedConditional (settings : RuleSettings) (node : Node) :
    (if settings.nestedConditional.enabled then
      (Rule.finding? .nestedConditional node).toList else []) = settings.nestingResult node := by
  have counted : node.countOwn .conditionalExpression = node.countWithin .conditionalExpression :=
    node.countOwn_eq_countWithin (by decide) (by decide)
  rw [nestingResult, ← counted]
  exact toList_finding?_of_verdict rfl _

theorem finding?_imperativeLoop (settings : RuleSettings) (node : Node) :
    (if settings.imperativeLoop.enabled then
      (Rule.finding? .imperativeLoop node).toList else []) =
        settings.loopResult node node.loopWord := by
  have always : Rule.verdict? .imperativeLoop node =
      if True then some (node.loopWord ++ " loop") else none := rfl
  rw [toList_finding?_of_verdict always, loopResult]
  simp [Rule.tag]

/-- The enabled rules together report the results of a node. -/
theorem flatMap_findingsAt (settings : RuleSettings) (node : Node) :
    (settings.rules.reverse.flatMap fun rule => rule.findingsAt node) =
      settings.resultsAt node := by
  rw [flatMap_reverse_rules, resultsAt]
  obtain ⟨span, form⟩ := node
  cases form <;>
    simp [Rule.findingsAt, Rule.kinds, Kind.functions, Kind.loops, Node.kind, Form.kind,
      Node.loopWord, Node.params?, finding?_tooManyParams, finding?_tooManyReturns,
      finding?_nestedConditional, finding?_imperativeLoop]

/-- The meaning of an analysis: its findings, one after the other, are the results of the nodes
that a depth-first trace of the tree meets, and the trace goes into loops exactly when the loop
rule is on. -/
theorem analyze_eq_flatMap_trace (settings : RuleSettings) (root : Node) :
    settings.analyze root =
      (root.trace settings.imperativeLoop.enabled).flatMap settings.resultsAt := by
  have intoLoops : decide (.imperativeLoop ∈ settings.rules) = settings.imperativeLoop.enabled := by
    simp [imperativeLoop_mem_rules]
  rw [analyze, Registry.run, Rule.visit_registry_eq_trace settings.count_imperativeLoop_rules,
    intoLoops]
  exact List.flatMap_congr fun node _ => settings.flatMap_findingsAt node

end RuleSettings

end ScriptLint
