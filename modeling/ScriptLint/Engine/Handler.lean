import ScriptLint.Engine.Table
import ScriptLint.Finding

/-!
# Handlers

A handler says what happens at a node: which findings are reported and which nodes are visited
next, in order. Every node it sends the engine to is smaller than its own, which is what makes a
traversal end.

Covers `walk` and `noop`. Such a handler is narrower than a `HandlerFn`: it is given a node and its
parent, but neither the engine that calls it nor what was found before, it can only add findings,
and it cannot go back up. The structural defaults and the stock rules are all of this kind. What
holds of any handlers is said of `HandlerTable`.
-/

namespace ScriptLint

theorem Node.sizeOf_le_of_mem_bodySteps {body step : Node} (member : step ∈ body.bodySteps) :
    sizeOf step ≤ sizeOf body := by
  unfold Node.bodySteps at member
  split at member
  · next statements isBlock =>
    refine Nat.le_of_lt (sizeOf_lt_of_mem_fields ?_)
    simpa [Node.fields, isBlock, Form.fields] using member
  · simp_all

theorem Node.sizeOf_lt_of_mem_successors {node next : Node} (member : next ∈ node.successors) :
    sizeOf next < sizeOf node := by
  have field : ∀ {other : Node}, other ∈ node.form.fields → sizeOf other < sizeOf node :=
    fun inFields => sizeOf_lt_of_mem_fields inFields
  unfold Node.successors at member
  split at member
  case h_1 isForm | h_2 isForm | h_3 isForm =>
    exact Nat.lt_of_le_of_lt (sizeOf_le_of_mem_bodySteps member)
      (field (by simp [isForm, Form.fields]))
  case h_4 isForm | h_5 isForm | h_6 isForm | h_7 isForm | h_8 isForm =>
    refine field ?_
    simp only [isForm, Form.fields, List.mem_append, List.mem_cons] at member ⊢
    grind
  case h_17 => exact field member
  all_goals simp at member

/-- One thing a handler does at a node. -/
inductive Action (node : Node) where
  | report (finding : Finding)
  | visit (target : Node) (parent : Option Node) (smaller : sizeOf target < sizeOf node)

/-- What to do at a node that was reached from `parent`. It hangs on these two alone, and not on the
findings so far or on the registry that calls it. -/
abbrev Handler := (node : Node) → (parent : Option Node) → List (Action node)

namespace Handler

/-- Does nothing, which leaves everything below the node unvisited. -/
def noop : Handler := fun _ _ => []

/-- Goes on to the node's successors and reports nothing. -/
def walk : Handler := fun node parent =>
  node.successors.attach.map fun next =>
    .visit next.1 (node.parentBelow parent) (Node.sizeOf_lt_of_mem_successors next.2)

/-- The walk of a node as if it had no parent. -/
def walkOrphan : Handler := fun node _ => walk node none

/-- Goes on to all shown children, each with the node itself as its parent. -/
def visitChildren : Handler := fun node _ =>
  node.children.attach.map fun child =>
    .visit child.1 (some node) (Node.sizeOf_lt_of_mem_children child.2)

/-- Reports one finding. -/
def reporting (finding : Node → Option Node → Finding) : Handler := fun node parent =>
  [.report (finding node parent)]

/-- The actions of one handler, then those of another. -/
def andThen (first second : Handler) : Handler := fun node parent =>
  first node parent ++ second node parent

instance : Sequential Handler := ⟨andThen⟩

theorem andThen_apply (first second : Handler) (node : Node) (parent : Option Node) :
    (Sequential.andThen first second : Handler) node parent =
      first node parent ++ second node parent := rfl

end Handler

end ScriptLint
