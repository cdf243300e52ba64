import ScriptLint.Grammar.Cst

/-!
# Going down a concrete tree

Every node below another with the way down to it, the recursions over a concrete tree told child by
child, and the induction that goes with them.
-/

namespace ScriptLint.Cst

mutual

/-- Everything below a node, in document order, each with the nodes passed on the way down to
it. -/
def descents : Cst → List (List Cst × Cst)
  | ⟨_, children⟩ => descentsAmong children

def descentsAmong : List Cst → List (List Cst × Cst)
  | [] => []
  | node :: rest =>
    ([], node) :: (node.descents.map fun descent => (node :: descent.1, descent.2)) ++
      descentsAmong rest

end

/-- A node and everything below it. -/
def nodes (node : Cst) : List Cst :=
  node :: node.descents.map Prod.snd

theorem descentsAmong_eq (children : List Cst) :
    descentsAmong children = children.flatMap fun child =>
      ([], child) :: child.descents.map fun descent => (child :: descent.1, descent.2) := by
  induction children with
  | nil => rfl
  | cons child rest ih => rw [descentsAmong, ih, List.flatMap_cons]

theorem descents_eq (node : Cst) :
    node.descents = node.children.flatMap fun child =>
      ([], child) :: child.descents.map fun descent => (child :: descent.1, descent.2) := by
  obtain ⟨label, children⟩ := node
  rw [descents, descentsAmong_eq]

theorem sizeOf_child_lt {node child : Cst} (isChild : child ∈ node.children) :
    sizeOf child < sizeOf node := by
  obtain ⟨label, children⟩ := node
  have smaller : sizeOf child < sizeOf children := List.sizeOf_lt_of_mem isChild
  simp only [mk.sizeOf_spec]
  omega

/-- Induction with a hypothesis for every child. -/
@[elab_as_elim]
theorem childInduction {motive : Cst → Prop}
    (step : ∀ node, (∀ child ∈ node.children, motive child) → motive node) (node : Cst) :
    motive node :=
  step node fun child _ => childInduction step child
termination_by sizeOf node
decreasing_by exact sizeOf_child_lt (by assumption)

theorem mem_nodes_self (node : Cst) : node ∈ node.nodes := by
  simp [nodes]

theorem mem_nodes_of_child {node child inner : Cst} (isChild : child ∈ node.children)
    (member : inner ∈ child.nodes) : inner ∈ node.nodes := by
  rw [nodes, descents_eq, List.map_flatMap]
  refine List.mem_cons_of_mem _ (List.mem_flatMap.mpr ⟨child, isChild, ?_⟩)
  simpa [nodes] using member

theorem nodes_eq (node : Cst) : node.nodes = node :: node.children.flatMap nodes := by
  rw [nodes, descents_eq, List.map_flatMap]
  congr 2
  funext child
  simp [nodes]

theorem forall_mem_nodes_iff {node : Cst} {holds : Cst → Prop} :
    (∀ inner ∈ node.nodes, holds inner) ↔
      holds node ∧ ∀ child ∈ node.children, ∀ inner ∈ child.nodes, holds inner := by
  rw [nodes_eq, List.forall_mem_cons, List.forall_mem_flatMap]

theorem mem_nodes_trans {node middle inner : Cst} (below : middle ∈ node.nodes)
    (member : inner ∈ middle.nodes) : inner ∈ node.nodes := by
  induction node using childInduction with
  | step node ih =>
    rw [nodes_eq, List.mem_cons, List.mem_flatMap] at below
    obtain rfl | ⟨child, isChild, below⟩ := below
    · exact member
    · exact mem_nodes_of_child isChild (ih child isChild below)

theorem mem_children_of_field? {node child : Cst} {field : Field}
    (filled : node.field? field = some child) : child ∈ node.children :=
  List.mem_of_find?_eq_some filled

theorem mem_children_of_operand {node child : Cst} (member : child ∈ node.operands) :
    child ∈ node.children :=
  (List.mem_filter.mp member).1

theorem mem_nodes_of_field? {node child : Cst} {field : Field}
    (filled : node.field? field = some child) : child ∈ node.nodes :=
  mem_nodes_of_child (mem_children_of_field? filled) child.mem_nodes_self

theorem mem_nodes_of_operand {node child : Cst} (member : child ∈ node.operands) :
    child ∈ node.nodes :=
  mem_nodes_of_child (mem_children_of_operand member) child.mem_nodes_self

theorem comments_eq (source : Bytes) (node : Cst) :
    node.comments source = node.children.flatMap fun child =>
      if child.isComment then
        [{ text := child.text source
           block := ['/', '*'].isPrefixOf (child.text source).toList
           span := child.span source }]
      else child.comments source := by
  obtain ⟨label, children⟩ := node
  rw [comments]
  dsimp only
  induction children with
  | nil => rfl
  | cons child rest ih => rw [commentsAmong, ih, List.flatMap_cons]

theorem sequenceOperands_eq (node : Cst) :
    node.sequenceOperands = node.operands.flatMap fun child =>
      if child.kind == "sequence_expression" then child.sequenceOperands else [child] := by
  obtain ⟨label, children⟩ := node
  rw [sequenceOperands, operands]
  dsimp only
  induction children with
  | nil => rfl
  | cons child rest ih =>
    rw [sequenceOperandsAmong, ih]
    by_cases operand : child.isOperand <;> simp [operand]

theorem mem_nodes_of_sequenceOperand {node inner : Cst}
    (member : inner ∈ node.sequenceOperands) : inner ∈ node.nodes := by
  induction node using childInduction with
  | step node ih =>
    rw [sequenceOperands_eq, List.mem_flatMap] at member
    obtain ⟨child, isOperand, member⟩ := member
    have isChild := mem_children_of_operand isOperand
    split at member
    · exact mem_nodes_of_child isChild (ih child isChild member)
    · obtain rfl := List.mem_singleton.mp member
      exact mem_nodes_of_child isChild inner.mem_nodes_self

end ScriptLint.Cst
