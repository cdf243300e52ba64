import ScriptLint.Tree.Equality

/-!
# All nodes of a tree

A node together with everything below it, over all fields. This is the listing that statements about
"every node of a tree" go through: unlike the outline it also has what is not shown, such as the
value of a shorthand property. Replacing the sub-nodes of a form keeps its kind and replaces what it
shows.
-/

namespace ScriptLint

namespace Form

variable {α β : Type}

theorem kind_map (form : Form α) (f : α → β) : (form.map f).kind = form.kind := by
  cases form <;> rfl

theorem interleave_map (f : α → β) (quasis expressions : List α) :
    interleave (quasis.map f) (expressions.map f) = (interleave quasis expressions).map f := by
  fun_induction interleave quasis expressions with
  | case1 => rfl
  | case2 => rfl
  | case3 quasi quasis expression expressions ih => simp [interleave, ih]

theorem children_map (form : Form α) (f : α → β) : (form.map f).children = form.children.map f := by
  cases form with
  | property key value computed shorthand => cases shorthand <;> rfl
  | templateLiteral quasis expressions => exact interleave_map f quasis expressions
  | _ => simp [map, children, fields, Option.toList_map]

end Form

namespace Node

/-- A node, then everything below it through any of its fields. -/
def nodes (node : Node) : List Node :=
  node :: node.fields.attach.flatMap fun field => field.1.nodes
termination_by sizeOf node
decreasing_by exact sizeOf_lt_of_mem_fields field.2

theorem nodes_eq (node : Node) : node.nodes = node :: node.fields.flatMap nodes := by
  rw [nodes]
  simp

theorem mem_nodes_self (node : Node) : node ∈ node.nodes := by
  rw [nodes_eq]
  exact List.mem_cons_self

/-- What holds of a node and of everything below its fields holds of all its nodes. -/
theorem forall_mem_nodes_iff {node : Node} {holds : Node → Prop} :
    (∀ inner ∈ node.nodes, holds inner) ↔
      holds node ∧ ∀ field ∈ node.fields, ∀ inner ∈ field.nodes, holds inner := by
  rw [nodes_eq]
  simp only [List.forall_mem_cons, List.mem_flatMap]
  constructor
  · rintro ⟨self, below⟩
    exact ⟨self, fun field member inner inside => below inner ⟨field, member, inside⟩⟩
  · rintro ⟨self, below⟩
    refine ⟨self, ?_⟩
    rintro inner ⟨field, member, inside⟩
    exact below field member inner inside

end Node

end ScriptLint
