import Mathlib.Tactic.MkIffOfInductiveProp
import ScriptLint.Proofs.Grammar.Induction
import ScriptLint.Proofs.Text.Boundaries
import ScriptLint.Proofs.Tree.Nodes

/-!
# Lowered trees are well formed

A tree that lowering accepts keeps the promises of its forms: a template has one more text piece
than substitutions, a declaration declares, a shorthand property is one name, operators are sorted
into logical and binary ones, and every text is the text of its span. Nothing is asked of the
concrete tree but that its ranges cut no character apart and that templates have their backticks.
-/

namespace ScriptLint

namespace Node

/-- What a node promises beyond the types of its fields. -/
def Proper (source : Bytes) (node : Node) : Prop :=
  match node.form with
  | .templateLiteral quasis expressions => quasis.length = expressions.length + 1
  | .variableDeclaration _ declarations =>
    ∀ declaration ∈ declarations, declaration.kind = .variableDeclarator
  | .property key value computed true =>
    computed = false ∧ key = value ∧ key.kind = .identifier ∧ key.span = node.span
  | .logicalExpression operator _ _ => operator ∈ ["&&", "||", "??"]
  | .binaryExpression operator _ _ => operator ∉ ["&&", "||", "??"]
  | .unaryExpression _ _ leading => leading = true
  | .identifier text | .literal text _ | .templateElement text =>
    Bytes.ofText text = source.slice node.span.startByte node.span.endByte
  | _ => True

/-- The quasis of a template are text pieces, and no other field of any node is one. -/
def PiecesPlaced (node : Node) : Prop :=
  match node.form with
  | .templateLiteral quasis expressions =>
    (∀ quasi ∈ quasis, quasi.kind = .templateElement) ∧
      ∀ expression ∈ expressions, expression.kind ≠ .templateElement
  | form => ∀ field ∈ form.fields, field.kind ≠ .templateElement

structure WellFormed (source : Bytes) (node : Node) : Prop where
  proper : node.Proper source
  pieces : node.PiecesPlaced

theorem piecesPlaced_of_fields {node : Node} (other : node.kind ≠ .templateLiteral)
    (whole : ∀ field ∈ node.fields, field.kind ≠ .templateElement) : node.PiecesPlaced := by
  unfold PiecesPlaced
  split
  case h_1 known => simp [Node.kind, known, Form.kind] at other
  case h_2 => exact whole

end Node

/-- The byte that opens and closes a template. -/
def backtick : UInt8 := 96

namespace Cst

/-- The ends of the node's range cut no character apart, and a template stands in backticks. -/
@[mk_iff]
structure Legible (text : String) (node : Cst) : Prop where
  starts : Bytes.Boundary text node.startByte
  ends : Bytes.Boundary text node.endByte
  template : node.kind = "template_string" →
    (Bytes.ofText text)[node.startByte]? = some backtick ∧
      (Bytes.ofText text)[node.endByte - 1]? = some backtick

instance (text : String) (node : Cst) : Decidable (node.Legible text) :=
  decidable_of_iff _ (legible_iff text node).symm

theorem Legible.text_eq {text : String} {node : Cst} (legible : node.Legible text) :
    Bytes.ofText (node.text (Bytes.ofText text)) =
      (Bytes.ofText text).slice node.startByte node.endByte :=
  Bytes.ofText_textBetween legible.starts legible.ends

end Cst

namespace Lowering

open Bytes (Boundary)

variable {text : String} {source : Bytes} {node : Cst} {plan : Form Origin} {lowered : Cst → Node}

theorem isLogical_iff {operator : String} :
    isLogical operator = true ↔ operator ∈ ["&&", "||", "??"] := by
  simp [isLogical, or_assoc]

/-- Text pieces start and end at boundaries, if the template's text and the substitutions do. -/
theorem boundary_of_quasiRanges {cursor close : Nat} {substitutions : List Cst}
    (starts : Boundary text cursor) (ends : Boundary text close)
    (legible : ∀ substitution ∈ substitutions, substitution.Legible text) :
    ∀ range ∈ quasiRanges cursor close substitutions,
      Boundary text range.1 ∧ Boundary text range.2 := by
  induction substitutions generalizing cursor with
  | nil =>
    simp only [quasiRanges, List.mem_singleton, forall_eq]
    exact ⟨starts, by rcases Nat.le_total close cursor with le | le <;> simpa [le]⟩
  | cons substitution rest ih =>
    simp only [List.forall_mem_cons] at legible
    simp only [quasiRanges, List.forall_mem_cons]
    exact ⟨⟨starts, legible.1.starts⟩, ih legible.1.ends legible.2⟩

theorem boundary_of_pieceRanges (known : Construct.ofKind node.kind = .template)
    (legible : ∀ inner ∈ node.nodes, inner.Legible text) :
    ∀ range ∈ pieceRanges node, Boundary text range.1 ∧ Boundary text range.2 := by
  have own := legible node node.mem_nodes_self
  obtain ⟨opened, closed⟩ := own.template (kind_of_template known)
  have starts : Boundary text (node.startByte + 1) := own.starts.succ opened (by decide)
  have ends : Boundary text (node.endByte - 1) := Bytes.boundary_of_ascii closed (by decide)
  refine boundary_of_quasiRanges starts ?_ fun substitution member =>
    legible substitution (Cst.mem_nodes_of_operand (List.mem_filter.mp member).1)
  rcases Nat.le_total (node.endByte - 1) (node.startByte + 1) with le | le <;> simpa [le]

/-- Templates come from templates only, text pieces are planned for nothing, and declarators are
planned as such. -/
theorem kind_of_plan : ∀ plan, plan? source node = some plan →
    (plan.kind = .templateLiteral → Construct.ofKind node.kind = .template) ∧
      plan.kind ≠ .templateElement ∧
      (Construct.ofKind node.kind = .declarator → plan.kind = .variableDeclarator) := by
  cases known : Construct.ofKind node.kind <;>
    simp only [plan?, known, programPlan, Option.bind_eq_bind, forall_bind_eq_some_iff,
      Option.pure_def, Option.some.injEq, reduceCtorEq, forall_eq', false_imp_iff, implies_true]
  case forEach =>
    intros
    split <;> simp [Form.kind]
  case binary =>
    intros
    split <;> simp [Form.kind]
  all_goals simp [Form.kind]

/-- The own form of a planned node is proper, if its lowered declarators are. -/
theorem proper_of_plan (legible : ∀ inner ∈ node.nodes, inner.Legible text) : ∀ plan,
    plan? (Bytes.ofText text) node = some plan →
    (∀ part, .part part ∈ plan.fields → part.kind = "variable_declarator" →
      (lowered part).kind = .variableDeclarator) →
    Node.Proper (Bytes.ofText text)
      ⟨node.span (Bytes.ofText text), plan.map (Origin.node (Bytes.ofText text) lowered)⟩ := by
  have written := (legible node node.mem_nodes_self).text_eq
  cases known : Construct.ofKind node.kind <;>
    simp only [plan?, known, programPlan, Option.bind_eq_bind, forall_bind_eq_some_iff,
      Option.pure_def, Option.some.injEq, reduceCtorEq, forall_eq', false_imp_iff, implies_true]
  case forEach =>
    intro inner _ left isLeft right _ body _ _
    split <;> trivial
  case binary =>
    intro operator _ left _ right _ _
    split <;> rename_i logical <;> simpa [Node.Proper, Form.map, isLogical_iff] using logical
  case declaration =>
    intro keyword _ declares
    simp only [Node.Proper, Form.map, List.forall_mem_map]
    intro part member
    exact declares part (List.mem_map_of_mem member) (by simpa using (List.mem_filter.mp member).2)
  case template =>
    intro expressions picked _
    have same : (substitutions node).length = expressions.length :=
      (forall₂_of_mapM picked).length_eq
    simp [Node.Proper, Form.map, pieceRanges, length_quasiRanges, same]
  case identifier => exact fun _ => written
  case literal => exact fun _ => written
  case shorthand => simp [Node.Proper, Form.map, Origin.node, Node.kind, Form.kind]
  case unary => simp [Node.Proper, Form.map]
  -- The other forms promise nothing.
  all_goals
    intros
    trivial

/-- What lowering makes of a node: no text piece, a declarator of a declarator, and well-formed
nodes throughout. -/
structure Sound (source : Bytes) (cst : Cst) (tree : Node) : Prop where
  whole : tree.kind ≠ .templateElement
  declarator : cst.kind = "variable_declarator" → tree.kind = .variableDeclarator
  wellFormed : ∀ inner ∈ tree.nodes, inner.WellFormed source

/-- Every origin but a text piece gives a node that is none. -/
theorem whole_of_origin {origin : Origin}
    (sound : origin.All fun part => Sound source part (lowered part))
    (whole : ∀ range, origin ≠ .piece range) :
    (origin.node source lowered).kind ≠ .templateElement := by
  cases origin with
  | part inner => exact (Origin.all_part.mp sound).whole
  | target keyword inner => simp [Origin.node, declared, Node.kind, Form.kind]
  | name inner => simp [Origin.node, Node.kind, Form.kind]
  | piece range => exact absurd rfl (whole range)

/-- A planned node has text pieces in the places for them. -/
theorem piecesPlaced_of_plan (planned : plan? source node = some plan)
    (sound : ∀ origin ∈ plan.fields, origin.All fun part => Sound source part (lowered part)) :
    Node.PiecesPlaced ⟨node.span source, plan.map (Origin.node source lowered)⟩ := by
  by_cases known : Construct.ofKind node.kind = .template
  · simp only [plan?, known, Option.bind_eq_bind, Option.bind_eq_some_iff, Option.pure_def,
      Option.some.injEq] at planned
    obtain ⟨expressions, -, rfl⟩ := planned
    simp only [Form.fields, List.forall_mem_append, List.forall_mem_map, Origin.all_part] at sound
    simp only [Node.PiecesPlaced, Form.map, List.forall_mem_map]
    exact ⟨fun _ _ => rfl, fun part member => (sound.2 part member).whole⟩
  · refine Node.piecesPlaced_of_fields ?_ ?_
    · rw [Node.kind, Form.kind_map]
      exact fun template => known ((kind_of_plan plan planned).1 template)
    · simp only [Node.fields, Form.fields_map, List.forall_mem_map]
      intro origin member
      refine whole_of_origin (sound origin member) ?_
      rintro range rfl
      exact known (from_of_plan plan planned _ member).1

/-- Whatever is made of an origin is well formed, the nodes that stand for no part of their own
included. -/
theorem wellFormed_of_origin (legible : ∀ inner ∈ node.nodes, inner.Legible text) {origin : Origin}
    (taken : origin.From node)
    (sound : origin.All fun part => Sound (Bytes.ofText text) part (lowered part)) :
    ∀ inner ∈ (origin.node (Bytes.ofText text) lowered).nodes,
      inner.WellFormed (Bytes.ofText text) := by
  cases origin with
  | part part => exact (Origin.all_part.mp sound).wellFormed
  | target keyword part =>
    have below := Origin.all_target.mp sound
    simp only [Origin.node, nodes_declared, List.forall_mem_cons]
    refine ⟨⟨?_, ?_⟩, ⟨trivial, ?_⟩, below.wellFormed⟩
    · simp [declared, Node.Proper, Node.kind, Form.kind]
    · simp [declared, Node.PiecesPlaced, Form.fields, Node.kind, Form.kind]
    · simpa [Node.PiecesPlaced, Form.fields] using below.whole
  | name inner =>
    obtain rfl := taken
    rw [Node.forall_mem_nodes_iff]
    refine ⟨⟨(legible inner inner.mem_nodes_self).text_eq, ?_⟩, ?_⟩ <;>
      simp [Node.PiecesPlaced, Origin.node, Node.fields, Form.fields]
  | piece range =>
    obtain ⟨known, member⟩ := taken
    obtain ⟨starts, ends⟩ := boundary_of_pieceRanges known legible range member
    rw [Node.forall_mem_nodes_iff]
    refine ⟨⟨Bytes.ofText_textBetween starts ends, ?_⟩, ?_⟩ <;>
      simp [Node.PiecesPlaced, Origin.node, quasi, Node.fields, Form.fields]

theorem sound_of_plan (legible : ∀ inner ∈ node.nodes, inner.Legible text)
    (planned : plan? (Bytes.ofText text) node = some plan)
    (sound : ∀ origin ∈ plan.fields,
      origin.All fun part => Sound (Bytes.ofText text) part (lowered part)) :
    Sound (Bytes.ofText text) node
      ⟨node.span (Bytes.ofText text), plan.map (Origin.node (Bytes.ofText text) lowered)⟩ := by
  obtain ⟨-, whole, declarator⟩ := kind_of_plan plan planned
  refine ⟨?_, ?_, ?_⟩
  · rwa [Node.kind, Form.kind_map]
  · intro kind
    rw [Node.kind, Form.kind_map]
    exact declarator (by rw [kind]; rfl)
  · rw [Node.forall_mem_nodes_iff]
    refine ⟨⟨proper_of_plan legible plan planned ?_, piecesPlaced_of_plan planned sound⟩, ?_⟩
    · exact fun part member => (Origin.all_part.mp (sound _ member)).declarator
    · simp only [Node.fields, Form.fields_map, List.forall_mem_map]
      exact fun origin member =>
        wellFormed_of_origin legible (from_of_plan plan planned origin member) (sound origin member)

end Lowering

/-- Every tree that a parse gives is well formed in all its nodes, and the root is no text piece. -/
theorem Cst.parse_wellFormed {text : String} {root : Cst} {tree : Node}
    (legible : ∀ node ∈ root.nodes, node.Legible text)
    (parsed : root.parse (Bytes.ofText text) = .ok tree) :
    tree.kind ≠ .templateElement ∧
      ∀ node ∈ tree.nodes, node.WellFormed (Bytes.ofText text) := by
  have wrapper : ∀ (node inner : Cst) (tree : Node), node ∈ root.nodes →
      Construct.ofKind node.kind = .wrapper → node.operands.head? = some inner →
      Lowering.Sound (Bytes.ofText text) inner tree →
      Lowering.Sound (Bytes.ofText text) node tree := by
    intro node inner tree _ known _ sound
    refine ⟨sound.whole, fun kind => ?_, sound.wellFormed⟩
    rw [kind] at known
    cases known
  obtain ⟨lowered, sound, rfl⟩ := Lowering.parse_induction wrapper
    (fun node plan lowered member planned => Lowering.sound_of_plan
      (fun inner below => legible inner (mem_nodes_trans member below)) planned) parsed
  refine ⟨by simp [Lowering.programPlan, Node.kind, Form.map, Form.kind], ?_⟩
  rw [Node.forall_mem_nodes_iff]
  simp only [Lowering.programPlan, Node.fields, Form.map, Form.fields, List.map_map,
    Lowering.Origin.node_comp_part, List.forall_mem_map]
  refine ⟨⟨trivial, ?_⟩, fun part member => (sound part member).wellFormed⟩
  simpa [Node.PiecesPlaced, Form.fields] using fun part member => (sound part member).whole

/-- A loop with a declared variable, a shorthand property and a template whose text has a character
of two bytes. -/
def Cst.legibleLoopText : String :=
  "for (let k of o) f({k}, !a && `é${k}!`)"

def Cst.legibleLoop : Cst :=
  ⟨{ kind := "program", startByte := 0, endByte := 40 },
    [⟨{ kind := "for_in_statement", startByte := 0, endByte := 40 },
      [⟨{ kind := "let", named := false, field := some .kind, startByte := 5, endByte := 8 }, []⟩,
       ⟨{ kind := "identifier", field := some .left, startByte := 9, endByte := 10 }, []⟩,
       ⟨{ kind := "of", named := false, field := some .operator, startByte := 11, endByte := 13 },
        []⟩,
       ⟨{ kind := "identifier", field := some .right, startByte := 14, endByte := 15 }, []⟩,
       ⟨{ kind := "expression_statement", field := some .body, startByte := 17, endByte := 40 },
        [⟨{ kind := "call_expression", startByte := 17, endByte := 40 },
          [⟨{ kind := "identifier", field := some .function, startByte := 17, endByte := 18 }, []⟩,
           ⟨{ kind := "arguments", field := some .arguments, startByte := 18, endByte := 40 },
            [⟨{ kind := "object", startByte := 19, endByte := 22 },
              [⟨{ kind := "shorthand_property_identifier", startByte := 20, endByte := 21 }, []⟩]⟩,
             ⟨{ kind := "binary_expression", startByte := 24, endByte := 39 },
              [⟨{ kind := "unary_expression", field := some .left, startByte := 24,
                  endByte := 26 },
                [⟨{ kind := "!", named := false, field := some .operator, startByte := 24,
                    endByte := 25 }, []⟩,
                 ⟨{ kind := "identifier", field := some .argument, startByte := 25,
                    endByte := 26 }, []⟩]⟩,
               ⟨{ kind := "&&", named := false, field := some .operator, startByte := 27,
                  endByte := 29 }, []⟩,
               ⟨{ kind := "template_string", field := some .right, startByte := 30,
                  endByte := 39 },
                [⟨{ kind := "template_substitution", startByte := 33, endByte := 37 },
                  [⟨{ kind := "identifier", startByte := 35, endByte := 36 }, []⟩]⟩]⟩]⟩]⟩]⟩]⟩]⟩]⟩

theorem Cst.parse_wellFormed_legibleLoop :
    (∀ node ∈ legibleLoop.nodes, node.Legible legibleLoopText) ∧
      ∃ tree, legibleLoop.parse (.ofText legibleLoopText) = .ok tree ∧
        tree.kind ≠ .templateElement ∧
        ∀ node ∈ tree.nodes, node.WellFormed (.ofText legibleLoopText) := by
  have legible : ∀ node ∈ legibleLoop.nodes, node.Legible legibleLoopText := by
    decide +kernel
  have accepted : (legibleLoop.parse (.ofText legibleLoopText)).toOption.isSome = true := by
    decide +kernel
  cases parsed : legibleLoop.parse (.ofText legibleLoopText) with
  | error failure => simp [parsed, Except.toOption] at accepted
  | ok tree => exact ⟨legible, tree, rfl, parse_wellFormed legible parsed⟩

end ScriptLint
