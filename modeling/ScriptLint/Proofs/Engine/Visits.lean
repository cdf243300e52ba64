import Mathlib.Data.List.Infix
import Mathlib.Data.List.Nodup
import Mathlib.Data.List.Perm.Subperm
import ScriptLint.Proofs.Engine.Paths
import ScriptLint.Proofs.Tree.Nodes

/-!
# Every reachable node is visited once

A registry that reports each node of some kinds and then walks on reports exactly the nodes that a
chain of structural edges through these kinds leads to. In a tree whose nodes all stand at different
places none of them is reported twice, and the order is depth first: a node comes before everything
below it, and what is below one successor stands together, ahead of what is below the next.
-/

namespace ScriptLint

namespace Node

theorem mem_fields_of_functionBody? {node body : Node} (isBody : node.functionBody? = some body) :
    body ∈ node.fields := by
  obtain ⟨span, form⟩ := node
  cases form <;> simp_all [functionBody?, fields, Form.fields]

theorem fields_of_blockBody? {node : Node} {statements : List Node}
    (isBlock : node.blockBody? = some statements) : node.fields = statements := by
  obtain ⟨span, form⟩ := node
  cases form <;> simp_all [blockBody?, fields, Form.fields]

/-- Entering a body at its statements leaves out at most the block around them. -/
theorem bodySteps_flatMap_nodes_sublist (body : Node) :
    (body.bodySteps.flatMap nodes).Sublist body.nodes := by
  rw [bodySteps_eq]
  cases isBlock : body.blockBody? with
  | none => simp
  | some statements =>
    rw [nodes_eq body, fields_of_blockBody? isBlock]
    exact List.sublist_cons_self _ _

/-- Properties, members and templates are entered at some of their fields, and the other selective
kinds that are no functions not at all. -/
theorem successors_sublist_fields {node : Node} (selective : node.kind ∈ Kind.selective)
    (noFunction : node.functionBody? = none) : node.successors.Sublist node.fields := by
  obtain ⟨span, form⟩ := node
  cases form
  case property key value computed shorthand => exact List.sublist_cons_self key [value]
  case memberExpression object name computed optional =>
    exact List.sublist_append_left [object] [name]
  case templateLiteral quasis expressions => exact List.sublist_append_right quasis expressions
  all_goals
    first
    | exact List.nil_sublist _
    | simp [kind, Form.kind, Kind.selective, Kind.functions, Kind.loops, functionBody?]
        at selective noFunction

/-- All that stands below the successors of a node stands below its fields, and as often. -/
theorem successors_flatMap_nodes_subperm (node : Node) :
    (node.successors.flatMap nodes).Subperm (node.fields.flatMap nodes) := by
  by_cases selective : node.kind ∈ Kind.selective
  · cases isBody : node.functionBody? with
    | some body =>
      rw [successors_of_functionBody? isBody]
      have inBody := bodySteps_flatMap_nodes_sublist body
      have bodyInFields : body.nodes.Sublist (node.fields.flatMap nodes) :=
        (List.infix_of_mem_flatten
          (List.mem_map_of_mem (mem_fields_of_functionBody? isBody))).sublist
      exact (inBody.trans bodyInFields).subperm
    | none => exact ((successors_sublist_fields selective isBody).flatMap nodes).subperm
  · exact ((successors_perm_fields selective).flatMap_right nodes).subperm

private theorem flatMap_subperm {α β : Type} {items : List α} {f g : α → List β}
    (each : ∀ item ∈ items, (f item).Subperm (g item)) :
    (items.flatMap f).Subperm (items.flatMap g) := by
  induction items with
  | nil => exact List.Subperm.refl _
  | cons item rest ih =>
    rw [List.flatMap_cons, List.flatMap_cons]
    exact (each item List.mem_cons_self).append
      (ih fun other member => each other (List.mem_cons_of_mem _ member))

/-- No node is visited more often than it stands in the tree. -/
theorem visits_subperm_nodes (kinds : Finset Kind) (node : Node) :
    ((node.visits kinds).map Prod.snd).Subperm node.nodes := by
  induction node using successorInduction with
  | step node ih =>
    rw [visits_eq, nodes_eq]
    split
    · rw [List.map_cons, List.map_flatMap, List.subperm_cons]
      have below : ∀ next ∈ node.successors,
          (((next.visits kinds).map fun visit => (node :: visit.1, visit.2)).map
            Prod.snd).Subperm next.nodes := by
        intro next member
        rw [List.map_map]
        exact ih next member
      exact (flatMap_subperm below).trans (successors_flatMap_nodes_subperm node)
    · exact List.nil_subperm

theorem nodup_visits {kinds : Finset Kind} {root : Node} (distinct : (root.nodes.map span).Nodup) :
    ((root.visits kinds).map Prod.snd).Nodup := by
  obtain ⟨ordered, perm, sublist⟩ := root.visits_subperm_nodes kinds
  have nodup : ordered.Nodup := List.Nodup.of_map span (distinct.sublist (sublist.map span))
  exact perm.nodup_iff.mp nodup

end Node

namespace Registry

/-- What it means for a run to report every node that can be reached through the kinds once, and
depth first. -/
structure ReportsOnce (registry : Registry) (kinds : Finset Kind) (root : Node) : Prop where
  plain : ∀ finding ∈ registry.run root, finding = .ofNode finding.node
  once : ((registry.run root).map Finding.node).Nodup
  reached : ∀ node, .ofNode node ∈ registry.run root ↔ ∃ before, Node.Chain kinds root before node
  /-- A node comes before every other node that a chain leads to from it. -/
  ahead : ∀ {node below : Node} {before : List Node}, .ofNode node ∈ registry.run root →
    Node.Chain kinds node before below → before ≠ [] →
      [Finding.ofNode node, Finding.ofNode below].Sublist (registry.run root)
  /-- A node is followed by the findings of its successors' trees, one tree after the other. -/
  together : ∀ node, .ofNode node ∈ registry.run root →
    (Finding.ofNode node :: node.successors.flatMap registry.run).IsInfix (registry.run root)

section Census

variable {registry : Registry} {kinds : Finset Kind}
  (holds : registry.Holds kinds (.recording fun node _ => .ofNode node))

include holds

theorem visit_census (node : Node) (parent : Option Node) :
    registry.visit node parent = (node.visits kinds).map fun visit => .ofNode visit.2 :=
  visit_eq_map_visits holds node parent

theorem run_census (node : Node) :
    registry.run node =
      if node.kind ∈ kinds then .ofNode node :: node.successors.flatMap registry.run else [] := by
  have sameBelow : ∀ next : Node,
      registry.visit next (node.parentBelow none) = registry.run next := by
    intro next
    rw [run, visit_census holds, visit_census holds]
  rw [run, visit_recording holds]
  simp only [sameBelow]

theorem ofNode_mem_run_census_iff {root node : Node} :
    .ofNode node ∈ registry.run root ↔ ∃ before, Node.Chain kinds root before node := by
  rw [run, visit_census holds, List.mem_map]
  constructor
  · rintro ⟨⟨before, last⟩, visited, same⟩
    obtain rfl : last = node := congrArg Finding.node same
    exact ⟨before, Node.mem_visits_iff.mp visited⟩
  · rintro ⟨before, chain⟩
    exact ⟨(before, node), Node.mem_visits_iff.mpr chain, rfl⟩

/-- The findings of a tree that a chain leads to stand together among those of the whole. -/
theorem run_census_infix {root node : Node} {before : List Node}
    (chain : Node.Chain kinds root before node) :
    (registry.run node).IsInfix (registry.run root) := by
  induction chain with
  | stay _ => exact List.infix_refl _
  | @step start next _ _ allowed edge _ ih =>
    have inTrees : (registry.run next).IsInfix (start.successors.flatMap registry.run) :=
      List.infix_of_mem_flatten (List.mem_map_of_mem (Node.edge_iff_mem_successors.mp edge))
    rw [run_census holds start, if_pos allowed]
    exact ih.trans (inTrees.trans (List.suffix_cons _ _).isInfix)

theorem cons_successors_infix {root node : Node} (reported : .ofNode node ∈ registry.run root) :
    (Finding.ofNode node :: node.successors.flatMap registry.run).IsInfix (registry.run root) := by
  obtain ⟨before, chain⟩ := (ofNode_mem_run_census_iff holds).mp reported
  have whole := run_census_infix holds chain
  rwa [run_census holds node, if_pos chain.allowed_last] at whole

theorem ahead_of_chain {root node below : Node} {before : List Node}
    (reported : .ofNode node ∈ registry.run root) (chain : Node.Chain kinds node before below)
    (further : before ≠ []) :
    [Finding.ofNode node, Finding.ofNode below].Sublist (registry.run root) := by
  have infixed := cons_successors_infix holds reported
  cases chain with
  | stay _ => exact absurd rfl further
  | @step _ next _ rest _ edge chain =>
    have inTree : .ofNode below ∈ registry.run next :=
      (ofNode_mem_run_census_iff holds).mpr ⟨rest, chain⟩
    have inTrees : .ofNode below ∈ node.successors.flatMap registry.run :=
      List.mem_flatMap.mpr ⟨next, Node.edge_iff_mem_successors.mp edge, inTree⟩
    exact ((List.singleton_sublist.mpr inTrees).cons_cons _).trans infixed.sublist

/-- In a tree whose nodes all stand at different places, a registry that reports the nodes of some
kinds and walks on reports each node that it can reach through these kinds once and depth first. -/
theorem run_reportsOnce {root : Node} (distinct : (root.nodes.map Node.span).Nodup) :
    registry.ReportsOnce kinds root where
  plain finding member := by
    rw [run, visit_census holds] at member
    obtain ⟨visit, -, rfl⟩ := List.mem_map.mp member
    rfl
  once := by
    rw [run, visit_census holds, List.map_map]
    exact Node.nodup_visits distinct
  reached _ := ofNode_mem_run_census_iff holds
  ahead := ahead_of_chain holds
  together _ := cons_successors_infix holds

end Census

/-- The tree of `f(x => { g.h; });` with a line break after it. -/
def callback : Node :=
  ⟨⟨0, 18, 1, 1, 2, 1⟩, .program
    [⟨⟨0, 17, 1, 1, 1, 18⟩, .expressionStatement
      ⟨⟨0, 16, 1, 1, 1, 17⟩, .callExpression ⟨⟨0, 1, 1, 1, 1, 2⟩, .identifier "f"⟩
        [⟨⟨2, 15, 1, 3, 1, 16⟩, .arrowFunctionExpression [⟨⟨2, 3, 1, 3, 1, 4⟩, .identifier "x"⟩]
          ⟨⟨7, 15, 1, 8, 1, 16⟩, .blockStatement
            [⟨⟨9, 13, 1, 10, 1, 14⟩, .expressionStatement
              ⟨⟨9, 12, 1, 10, 1, 13⟩, .memberExpression ⟨⟨9, 10, 1, 10, 1, 11⟩, .identifier "g"⟩
                ⟨⟨11, 12, 1, 12, 1, 13⟩, .identifier "h"⟩ false false⟩⟩]⟩ false⟩] false⟩⟩] []⟩

/-- Kinds that lead into the callback, but not to the member that is named there. -/
def callbackKinds : List Kind :=
  [.program, .expressionStatement, .callExpression, .arrowFunctionExpression, .identifier]

theorem run_reportsOnce_callback :
    (callback.nodes.map Node.span).Nodup ∧
      ∃ registry : Registry,
        registry.Holds callbackKinds.toFinset (.recording fun node _ => .ofNode node) ∧
        registry.ReportsOnce callbackKinds.toFinset callback ∧
        (registry.run callback).map Finding.tag =
          ["Program", "ExpressionStatement", "CallExpression", "ArrowFunctionExpression",
           "ExpressionStatement", "Identifier"] := by
  have distinct : (callback.nodes.map Node.span).Nodup := by
    simp [callback, Node.nodes_eq, Node.fields, Form.fields]
  obtain ⟨registry, holds⟩ : ∃ registry : Registry,
      registry.Holds callbackKinds.toFinset (.recording fun node _ => .ofNode node) :=
    ⟨_, holds_register callbackKinds _⟩
  refine ⟨distinct, registry, holds, run_reportsOnce holds distinct, ?_⟩
  simp [run_census holds, callback, callbackKinds, Node.kind, Form.kind, Node.successors,
    Node.bodySteps, Form.fields, Finding.ofNode, Node.kindName, Kind.name]

end Registry

end ScriptLint
