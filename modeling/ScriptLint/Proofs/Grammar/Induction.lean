import ScriptLint.Proofs.Grammar.Building
import ScriptLint.Proofs.Tree.Nodes

/-!
# Induction over what lowering accepts

A property of what lowering makes of the nodes of a tree follows from two steps, one for wrappers
and one for plans, so a proof about all of lowering says nothing of levels or of the builders' order
of work.
-/

namespace ScriptLint.Lowering

open Cst (mem_nodes_of_operand mem_nodes_trans)

theorem nodes_declared (keyword : VarKind) (target : Node) :
    (declared keyword target).nodes = declared keyword target ::
      ⟨target.span, .variableDeclarator target none⟩ :: target.nodes := by
  rw [Node.nodes_eq]
  simp [declared, Node.fields, Form.fields, Node.nodes_eq ⟨_, .variableDeclarator _ _⟩]

/-- What a parse accepts is a program of its lowered named children, whatever the root's kind is. -/
theorem parse_cases {source : Bytes} {root : Cst} {tree : Node}
    (parsed : root.parse source = .ok tree) :
    (∀ part ∈ root.operands, Accepts (lower source maxDepth) part) ∧
      tree = ⟨root.span source,
        (programPlan source root).map (Origin.node source (outcome (lower source maxDepth)))⟩ := by
  rw [Cst.parse] at parsed
  cases faults : root.firstFault? with
  | some fault => simp [faults] at parsed
  | none =>
    simp only [faults, program, bind_eq_ok_iff, mapM_eq_ok_iff, pure_eq_ok_iff] at parsed
    obtain ⟨_, ⟨accepted, rfl⟩, rfl⟩ := parsed
    exact ⟨accepted, by simp [programPlan, Form.map]⟩

section Induction

variable {source : Bytes} {root : Cst} {motive : Cst → Node → Prop}
  (wrapper : ∀ node inner tree, node ∈ root.nodes → Construct.ofKind node.kind = .wrapper →
    node.operands.head? = some inner → motive inner tree → motive node tree)
  (planned : ∀ node plan lowered, node ∈ root.nodes → plan? source node = some plan →
    (∀ origin ∈ plan.fields, origin.All fun part => motive part (lowered part)) →
      motive node ⟨node.span source, plan.map (Origin.node source lowered)⟩)

include wrapper planned

/-- What lowering makes of a node below `root` has a property if wrappers hand it on and every plan
keeps it: a plan's own node has the property as soon as its lowered parts do. -/
theorem lower_induction : ∀ levels node tree, node ∈ root.nodes →
    lower source levels node = .ok tree → motive node tree := by
  intro levels
  induction levels with
  | zero =>
    intro node tree _ lowered
    cases lowered
  | succ levels ih =>
    intro node tree member lowered
    rw [lower] at lowered
    obtain ⟨known, inner, first, lowered⟩ | ⟨spanned, plan, isPlan, accepted, formed⟩ :=
      build_cases lowered
    · have below : inner ∈ root.nodes :=
        mem_nodes_trans member (mem_nodes_of_operand (List.mem_of_mem_head? first))
      exact wrapper node inner tree member known first (ih inner tree below lowered)
    · obtain ⟨span, form⟩ := tree
      obtain rfl : span = node.span source := spanned
      obtain rfl : form = plan.map (Origin.node source (outcome (lower source levels))) := formed
      refine planned node plan _ member isPlan fun origin isOrigin part isPart => ?_
      have below := (from_of_plan plan isPlan origin isOrigin).all part isPart
      exact ih part _ (mem_nodes_trans member below) (accepted origin isOrigin part isPart)

/-- The same for a whole parse. -/
theorem parse_induction {tree : Node} (parsed : root.parse source = .ok tree) :
    ∃ lowered, (∀ part ∈ root.operands, motive part (lowered part)) ∧
      tree = ⟨root.span source, (programPlan source root).map (Origin.node source lowered)⟩ := by
  obtain ⟨accepted, rfl⟩ := parse_cases parsed
  refine ⟨outcome (lower source maxDepth), fun part member => ?_, rfl⟩
  exact lower_induction wrapper planned _ part _ (mem_nodes_of_operand member)
    (accepted part member)

end Induction

end ScriptLint.Lowering
