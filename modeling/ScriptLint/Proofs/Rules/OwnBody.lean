import Mathlib.Data.List.Basic
import ScriptLint.Rules.Rule
import ScriptLint.Tree.Outline

/-!
# The nodes of a body

`Node.ownBody` leaves a branch as soon as it meets a function or a method. Here the same nodes are
told by their way down from the root of the body: a node belongs to the body exactly when neither
it nor anything passed on the way to it starts a body of its own. The counts that the rules compare
with their limits follow.
-/

namespace ScriptLint.Node

/-- Everything shown below a node, in document order, each with the nodes passed on the way down
to it. -/
def descents (node : Node) : List (List Node × Node) :=
  node.children.attach.flatMap fun child =>
    ([], child.1) :: child.1.descents.map fun descent => (child.1 :: descent.1, descent.2)
termination_by sizeOf node
decreasing_by exact sizeOf_lt_of_mem_children child.2

/-- How many nodes of a kind stand below a node with no function or method on the way to them. -/
def countWithin (node : Node) (kind : Kind) : Nat :=
  node.descents.countP fun descent =>
    decide (descent.2.kind = kind) && descent.1.all fun passed => !passed.startsBody

theorem descents_eq (node : Node) :
    node.descents = node.children.flatMap fun child =>
      ([], child) :: child.descents.map fun descent => (child :: descent.1, descent.2) := by
  rw [descents]
  simp

theorem ownBody_eq (node : Node) :
    node.ownBody = node.children.flatMap fun child =>
      if child.startsBody then [] else child :: child.ownBody := by
  rw [ownBody]
  simp

/-- Induction with a hypothesis for every shown child. -/
@[elab_as_elim]
theorem childInduction {motive : Node → Prop}
    (step : ∀ node, (∀ child ∈ node.children, motive child) → motive node) (node : Node) :
    motive node := by
  induction node using fieldInduction with
  | step node ih =>
    exact step node fun child member => ih child (Form.mem_fields_of_mem_children member)

/-- A node belongs to a body exactly when the whole way down to it stays in the body. -/
theorem ownBody_eq_descents (node : Node) :
    node.ownBody = (node.descents.filter fun descent =>
      (descent.1 ++ [descent.2]).all fun passed => !passed.startsBody).map Prod.snd := by
  induction node using childInduction with
  | step node ih =>
    rw [ownBody_eq, descents_eq, List.filter_flatMap, List.map_flatMap]
    refine List.flatMap_congr fun child member => ?_
    by_cases starts : child.startsBody
    · simp [starts, List.filter_map]
    · simp only [starts, ih child member]
      simp [starts, List.filter_map, Function.comp_def]

theorem startsBody_eq_false {node : Node} (plain : node.kind ∉ Kind.functions)
    (known : node.kind ≠ .other) : node.startsBody = false := by
  have named : node.kindName = node.kind.name := by
    unfold kindName
    split
    · next isOther => simp [kind, isOther, Form.kind] at known
    · rfl
  have unlike : ∀ kind ∈ Kind.all, kind.name ≠ "method_definition" := by decide
  simp [startsBody, isFunction, plain, named, unlike _ (Kind.mem_all _)]

/-- The nodes counted in a body are those with no function or method on the way to them. -/
theorem countOwn_eq_countWithin (node : Node) {kind : Kind} (plain : kind ∉ Kind.functions)
    (known : kind ≠ .other) : node.countOwn kind = node.countWithin kind := by
  rw [countOwn, ownBody_eq_descents, List.countP_map, List.countP_filter, countWithin]
  refine List.countP_congr fun descent _ => ?_
  by_cases same : descent.2.kind = kind
  · have inside : descent.2.startsBody = false :=
      startsBody_eq_false (same ▸ plain) (same ▸ known)
    simp [same, inside]
  · simp [same]

end ScriptLint.Node
