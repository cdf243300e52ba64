import ScriptLint.Proofs.Grammar.Order
import ScriptLint.Proofs.Tree.Positions

/-!
# Lowered trees nest

If a concrete tree has its ranges nested and its places in order, so has the tree it is lowered to:
every node lies inside its parent, the shown sub-nodes stand one after the other, and each span
locates its own two offsets.
-/

namespace ScriptLint

namespace Node

def range (node : Node) : Nat × Nat :=
  (node.span.startByte, node.span.endByte)

/-- The node holds all its sub-nodes, shows them one after the other, and its span is the one of its
offsets, from an earlier position to a later one. -/
structure Nested (source : Bytes) (node : Node) : Prop where
  inside : ∀ field ∈ node.fields,
    node.span.startByte ≤ field.span.startByte ∧ field.span.endByte ≤ node.span.endByte
  ordered : node.children.Pairwise fun child next => child.span.endByte ≤ next.span.startByte
  located : node.span = Span.ofBytes source node.span.startByte node.span.endByte
  forward : node.span.startByte ≤ node.span.endByte
  downward : node.span.startLine < node.span.endLine ∨
    node.span.startLine = node.span.endLine ∧ node.span.startCol ≤ node.span.endCol

/-- A node at known offsets is nested as soon as its sub-nodes are in order inside it. -/
theorem nested_of_inOrder {source : Bytes} {start stop : Nat} {form : Form Node}
    (shown : ∀ field ∈ form.fields, field ∈ form.children)
    (ordered : InOrder start stop (form.children.map range)) :
    Nested source ⟨.ofBytes source start stop, form⟩ where
  inside field member := by
    have within := ordered.of_mem (List.mem_map_of_mem (shown field member))
    exact ⟨within.1, within.2.2⟩
  ordered := List.pairwise_map.mp ordered.pairwise
  located := rfl
  forward := ordered.le
  downward := Span.ofBytes_forward source ordered.le

/-- A node that only holds another one at the same place is nested like it. -/
theorem Nested.enclose {source : Bytes} {inner : Node} (nested : inner.Nested source)
    (form : Form Node) (single : form.fields = [inner]) (shown : form.children = [inner]) :
    Nested source ⟨inner.span, form⟩ :=
  { nested with
    inside := by simp [fields, single]
    ordered := by simp [children, shown] }

end Node

theorem Form.mem_interleave {α : Type} {x : α} {quasis expressions : List α}
    (longer : quasis.length = expressions.length + 1) (member : x ∈ quasis ++ expressions) :
    x ∈ interleave quasis expressions := by
  fun_induction interleave quasis expressions with
  | case1 => simp at longer
  | case2 quasi quasis => simpa using member
  | case3 quasi quasis expression expressions ih =>
    have below := ih (by simpa using longer)
    simp only [List.mem_append, List.mem_cons] at below member ⊢
    grind

namespace Lowering

variable {source : Bytes} {node : Cst} {plan : Form Origin} {lowered : Cst → Node}

/-- A plan shows all its origins. -/
theorem mem_children_of_plan : ∀ plan, plan? source node = some plan →
    ∀ origin ∈ plan.fields, origin ∈ plan.children := by
  cases known : Construct.ofKind node.kind <;>
    simp only [plan?, known, programPlan, Option.bind_eq_bind, forall_bind_eq_some_iff,
      Option.pure_def, Option.some.injEq, reduceCtorEq, forall_eq', false_imp_iff, implies_true]
  case forEach =>
    intro target _ left _ right _ body _
    split <;> exact fun _ => id
  case binary =>
    intro operator _ left _ right _
    split <;> exact fun _ => id
  case shorthand => simp [Form.fields, Form.children]
  case template =>
    intro expressions picked origin
    refine Form.mem_interleave ?_
    simp [pieceRanges, length_quasiRanges, (forall₂_of_mapM picked).length_eq]
  -- The other forms show all their fields.
  all_goals
    intros
    rename_i member
    exact member

/-- What lowering makes of a node lies inside it and is nested throughout. -/
structure Fits (source : Bytes) (cst : Cst) (tree : Node) : Prop where
  within : InOrder cst.startByte cst.endByte [tree.range]
  nested : ∀ inner ∈ tree.nodes, inner.Nested source

/-- What is made of an origin lies inside its bytes. -/
theorem within_of_origin {origin : Origin} (forward : origin.range.1 ≤ origin.range.2)
    (fits : origin.All fun part => Fits source part (lowered part)) :
    InOrder origin.range.1 origin.range.2 [(origin.node source lowered).range] := by
  cases origin with
  | part part => exact (Origin.all_part.mp fits).within
  | target keyword part => exact (Origin.all_target.mp fits).within
  | name inner => exact ⟨Nat.le_refl _, forward, Nat.le_refl _⟩
  | piece range => exact ⟨Nat.le_refl _, forward, Nat.le_refl _⟩

/-- What is made of an origin is nested, the nodes that stand for no part of their own included. -/
theorem nested_of_origin {origin : Origin} (forward : origin.range.1 ≤ origin.range.2)
    (fits : origin.All fun part => Fits source part (lowered part)) :
    ∀ inner ∈ (origin.node source lowered).nodes, inner.Nested source := by
  cases origin with
  | part part => exact (Origin.all_part.mp fits).nested
  | target keyword part =>
    have below := Origin.all_target.mp fits
    have own := (below.nested (lowered part) (lowered part).mem_nodes_self).enclose
      (.variableDeclarator (lowered part) none) rfl rfl
    simp only [Origin.node, nodes_declared, List.forall_mem_cons]
    exact ⟨own.enclose (.variableDeclaration keyword _) rfl rfl, own, below.nested⟩
  | name inner =>
    rw [Node.forall_mem_nodes_iff]
    exact ⟨Node.nested_of_inOrder (by simp [Form.fields]) forward,
      by simp [Origin.node, Node.fields, Form.fields]⟩
  | piece range =>
    rw [Node.forall_mem_nodes_iff]
    exact ⟨Node.nested_of_inOrder (by simp [Form.fields]) forward,
      by simp [Origin.node, quasi, Node.fields, Form.fields]⟩

/-- A form whose origins are in order inside the node fits it. -/
theorem fits_of_inOrder (shown : ∀ origin ∈ plan.fields, origin ∈ plan.children)
    (ordered : InOrder node.startByte node.endByte (plan.children.map Origin.range))
    (fits : ∀ origin ∈ plan.fields, origin.All fun part => Fits source part (lowered part)) :
    Fits source node ⟨node.span source, plan.map (Origin.node source lowered)⟩ := by
  have forward : ∀ origin ∈ plan.fields, origin.range.1 ≤ origin.range.2 := fun origin member =>
    (ordered.of_mem (List.mem_map_of_mem (shown origin member))).2.1
  refine ⟨⟨Nat.le_refl _, ordered.le, Nat.le_refl _⟩, ?_⟩
  rw [Node.forall_mem_nodes_iff]
  constructor
  · refine Node.nested_of_inOrder ?_ ?_
    · simp only [Form.fields_map, Form.children_map]
      intro field member
      obtain ⟨origin, isOrigin, rfl⟩ := List.mem_map.mp member
      exact List.mem_map_of_mem (shown origin isOrigin)
    · rw [Form.children_map, List.map_map]
      refine ordered.narrow (List.forall₂_same.mpr fun origin member along => ?_)
      exact within_of_origin along (fits origin (Form.mem_fields_of_mem_children member))
  · simp only [Node.fields, Form.fields_map, List.forall_mem_map]
    exact fun origin member => nested_of_origin (forward origin member) (fits origin member)

end Lowering

/-- Every node of a parsed tree is nested, if the concrete tree is laid out in order. -/
theorem Cst.parse_nested {source : Bytes} {root : Cst} {tree : Node}
    (placed : ∀ node ∈ root.nodes, node.Placed source)
    (arranged : ∀ node ∈ root.nodes, node.Arranged)
    (parsed : root.parse source = .ok tree) :
    ∀ node ∈ tree.nodes, node.Nested source := by
  have laid : root.Laid source := ⟨placed, arranged⟩
  have wrapper : ∀ (node inner : Cst) (tree : Node), node ∈ root.nodes →
      Construct.ofKind node.kind = .wrapper → node.operands.head? = some inner →
      Lowering.Fits source inner tree → Lowering.Fits source node tree := by
    intro node inner tree member _ first fits
    have isChild := mem_children_of_operand (List.mem_of_mem_head? first)
    exact ⟨((laid.of_mem member).inOrder_child isChild).within fits.within, fits.nested⟩
  obtain ⟨lowered, fits, rfl⟩ := Lowering.parse_induction wrapper
    (fun node plan lowered member planned => Lowering.fits_of_inOrder
      (Lowering.mem_children_of_plan plan planned)
      (Lowering.inOrder_of_plan (laid.of_mem member) plan planned)) parsed
  have ordered : InOrder root.startByte root.endByte
      ((Lowering.programPlan source root).children.map Lowering.Origin.range) := by
    simpa [Lowering.programPlan, Form.children, Form.fields] using laid.inOrder_operands
  have shown : ∀ origin ∈ (Lowering.programPlan source root).fields,
      origin ∈ (Lowering.programPlan source root).children := fun _ member => member
  refine (Lowering.fits_of_inOrder shown ordered ?_).nested
  simpa [Lowering.programPlan, Form.fields] using fits

/-- A case on four lines with a wrapped value, a template around a wrapped name and a shorthand
property. -/
def Cst.laidCaseText : String :=
  "switch (x) \x7b\ncase 1:\n  f(`a$\x7b(b)\x7dc`, \x7bd\x7d)\n\x7d"

def Cst.laidCase : Cst :=
  ⟨{ kind := "program", startByte := 0, endByte := 43 },
    [⟨{ kind := "switch_statement", startByte := 0, endByte := 43 },
      [⟨{ kind := "switch", named := false, startByte := 0, endByte := 6 }, []⟩,
       ⟨{ kind := "parenthesized_expression", field := some .value, startByte := 7, endByte := 10 },
        [⟨{ kind := "identifier", startByte := 8, endByte := 9 }, []⟩]⟩,
       ⟨{ kind := "switch_body", field := some .body, startByte := 11, endByte := 43 },
        [⟨{ kind := "switch_case", startByte := 13, endByte := 41 },
          [⟨{ kind := "case", named := false, startByte := 13, endByte := 17 }, []⟩,
           ⟨{ kind := "number", field := some .value, startByte := 18, endByte := 19 }, []⟩,
           ⟨{ kind := "expression_statement", startByte := 23, endByte := 41 },
            [⟨{ kind := "call_expression", startByte := 23, endByte := 41 },
              [⟨{ kind := "identifier", field := some .function, startByte := 23, endByte := 24 },
                []⟩,
               ⟨{ kind := "arguments", field := some .arguments, startByte := 24, endByte := 41 },
                [⟨{ kind := "template_string", startByte := 25, endByte := 35 },
                  [⟨{ kind := "template_substitution", startByte := 27, endByte := 33 },
                    [⟨{ kind := "parenthesized_expression", startByte := 29, endByte := 32 },
                      [⟨{ kind := "identifier", startByte := 30, endByte := 31 }, []⟩]⟩]⟩]⟩,
                 ⟨{ kind := "object", startByte := 37, endByte := 40 },
                  [⟨{ kind := "shorthand_property_identifier", startByte := 38, endByte := 39 },
                    []⟩]⟩]⟩]⟩]⟩]⟩]⟩]⟩]⟩

theorem Cst.parse_nested_laidCase :
    (∀ node ∈ laidCase.nodes, node.Placed (.ofText laidCaseText)) ∧
      (∀ node ∈ laidCase.nodes, node.Arranged) ∧
      ∃ tree, laidCase.parse (.ofText laidCaseText) = .ok tree ∧
        ∀ node ∈ tree.nodes, node.Nested (.ofText laidCaseText) := by
  have placed : ∀ node ∈ laidCase.nodes, node.Placed (.ofText laidCaseText) := by
    decide +kernel
  have arranged : ∀ node ∈ laidCase.nodes, node.Arranged := by
    decide +kernel
  have accepted : (laidCase.parse (.ofText laidCaseText)).toOption.isSome = true := by
    decide +kernel
  cases parsed : laidCase.parse (.ofText laidCaseText) with
  | error failure => simp [parsed, Except.toOption] at accepted
  | ok tree => exact ⟨placed, arranged, tree, rfl, parse_nested placed arranged parsed⟩

end ScriptLint
