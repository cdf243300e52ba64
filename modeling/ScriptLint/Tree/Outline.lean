import ScriptLint.Tree.Node

/-!
# Going through a tree

Listing a tree with the depth of each node, following a path of child indices, and the induction
principle that gives a hypothesis for every direct sub-node.
-/

namespace ScriptLint.Node

/-- A node, then everything shown below it, each with its depth. -/
def outline (depth : Nat) (node : Node) : List (Nat × Node) :=
  (depth, node) :: node.children.attach.flatMap fun child => child.1.outline (depth + 1)
termination_by sizeOf node
decreasing_by exact sizeOf_lt_of_mem_children child.2

/-- A node, then everything shown below it. -/
def preorder (node : Node) : List Node :=
  node :: node.children.attach.flatMap fun child => child.1.preorder
termination_by sizeOf node
decreasing_by exact sizeOf_lt_of_mem_children child.2

/-- The node reached by taking the child with each index in turn. -/
def at? (node : Node) : List Nat → Option Node
  | [] => some node
  | index :: path => node.children[index]?.bind (·.at? path)

/-- Induction with a hypothesis for every direct sub-node. -/
@[elab_as_elim]
theorem fieldInduction {motive : Node → Prop}
    (step : ∀ node, (∀ field ∈ node.fields, motive field) → motive node) (node : Node) :
    motive node :=
  step node fun field _ => fieldInduction step field
termination_by sizeOf node
decreasing_by exact sizeOf_lt_of_mem_fields (by assumption)

end ScriptLint.Node
