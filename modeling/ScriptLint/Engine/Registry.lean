import ScriptLint.Engine.Handler

/-!
# Registries and traversal

A registry is a table of handlers. Visiting a node carries out what the handler of its kind says; a
kind without a handler is skipped together with everything below it.

Covers the engine's `run`, `visit` and `descend` and the registry's `builtin`. An engine is nothing
but its registry, and the sink that handlers write to is the list of what they report. The trace
line of a node that is skipped is left out.
-/

namespace ScriptLint

abbrev Registry := HandlerTable Handler

namespace Registry

/-- No handler at all. -/
abbrev empty : Registry := HandlerTable.empty

/-- The structural defaults, which go through a tree and report nothing. -/
def builtin : Registry :=
  HandlerTable.builtin Handler.walk Handler.noop

/-- The findings of visiting a node that was reached from `parent`. -/
def visit (registry : Registry) (node : Node) (parent : Option Node) : List Finding :=
  match registry.handler? node.kind with
  | none => []
  | some handler => (handler node parent).flatMap fun
    | .report finding => [finding]
    | .visit target parent _ => registry.visit target parent
termination_by sizeOf node

/-- Carries out the actions of a handler in order. -/
def perform (registry : Registry) {node : Node} (actions : List (Action node)) : List Finding :=
  actions.flatMap fun
    | .report finding => [finding]
    | .visit target parent _ => registry.visit target parent

theorem visit_eq (registry : Registry) (node : Node) (parent : Option Node) :
    registry.visit node parent =
      match registry.handler? node.kind with
      | none => []
      | some handler => registry.perform (handler node parent) := by
  rw [visit]
  rfl

/-- The findings of walking on from a node, whatever handler its kind has. -/
def descend (registry : Registry) (node : Node) (parent : Option Node) : List Finding :=
  registry.perform (Handler.walk node parent)

/-- The findings of a whole tree. -/
def run (registry : Registry) (root : Node) : List Finding :=
  registry.visit root none

end Registry

end ScriptLint
