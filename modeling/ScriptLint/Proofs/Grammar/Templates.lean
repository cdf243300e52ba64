import ScriptLint.Proofs.Code.Segments
import ScriptLint.Proofs.Grammar.Nesting
import ScriptLint.Proofs.Grammar.WellFormed

/-!
# Templates are cut up without loss

The text pieces of a template and its substitutions tile the space between its backticks, so their
texts put together are the text that stands there. Writing a lowered template puts the pieces and
the expressions together in the same order, so it gives the text of the template as soon as every
substitution is its written expression in braces.
-/

namespace ScriptLint

open Bytes (Boundary)

variable {text : String}

/-- The texts of ranges that tile a space are the text of that space. -/
theorem Tiles.join_texts {start stop : Nat} {ranges : List (Nat × Nat)}
    (tiles : Tiles start stop ranges) (starts : Boundary text start) (stops : Boundary text stop)
    (ends : ∀ range ∈ ranges, Boundary text range.2) :
    String.join (ranges.map fun range => (Bytes.ofText text).textBetween range.1 range.2) =
      (Bytes.ofText text).textBetween start stop := by
  induction ranges generalizing start with
  | nil =>
    obtain rfl : start = stop := tiles
    exact (Bytes.textBetween_self _ start).symm
  | cons range rest ih =>
    obtain ⟨rfl, forward, later⟩ := tiles
    rw [List.forall_mem_cons] at ends
    rw [List.map_cons, String.join_cons, ih later ends.1 ends.2]
    exact Bytes.textBetween_append starts ends.1 stops forward later.inOrder.le

/-- Writing a template alternates its pieces with its expressions in braces. -/
theorem Code.templateInside_eq (quasis expressions : List String) :
    templateInside quasis expressions = String.join (Form.interleave quasis
      (expressions.map fun expression => "$\x7b" ++ expression ++ "\x7d")) := by
  fun_induction templateInside quasis expressions with
  | case1 => rfl
  | case2 quasi quasis ih =>
    rw [ih]
    cases quasis <;> simp [Form.interleave]
  | case3 quasi quasis expression expressions ih =>
    rw [ih, List.map_cons, Form.interleave, String.join_cons, String.join_cons]
    simp only [String.append_assoc]

/-- A template between its backticks, with substitutions that cut no character apart and stand
one after the other between the first and the last byte. -/
structure Cst.IsTemplate (text : String) (node : Cst) : Prop where
  kind : node.kind = "template_string"
  room : node.startByte + 2 ≤ node.endByte
  opened : (Bytes.ofText text)[node.startByte]? = some backtick
  closed : (Bytes.ofText text)[node.endByte - 1]? = some backtick
  whole : ∀ substitution ∈ Lowering.substitutions node,
    Boundary text substitution.startByte ∧ Boundary text substitution.endByte
  inside : ∀ substitution ∈ Lowering.substitutions node,
    node.startByte < substitution.startByte ∧ substitution.startByte ≤ substitution.endByte ∧
      substitution.endByte < node.endByte
  ordered : (Lowering.substitutions node).Pairwise fun substitution next =>
    substitution.endByte ≤ next.startByte

namespace Lowering

/-- Pieces and substitutions take turns and leave nothing out. -/
theorem tiles_quasiRanges {cursor close : Nat} {substitutions : List Cst}
    (ordered : InOrder cursor close (substitutions.map Cst.range)) :
    Tiles cursor close
      (Form.interleave (quasiRanges cursor close substitutions) (substitutions.map Cst.range)) := by
  induction substitutions generalizing cursor with
  | nil => exact ⟨rfl, Nat.le_max_right .., Nat.max_eq_left ordered⟩
  | cons substitution rest ih =>
    obtain ⟨starts, forward, later⟩ := ordered
    exact ⟨rfl, starts, rfl, forward, ih later⟩

theorem mapM_eq_ok_iff_forall₂ {lowerItem : Cst → Except ParseError Node} {items : List Cst}
    {trees : List Node} :
    items.mapM lowerItem = .ok trees ↔
      List.Forall₂ (fun item tree => lowerItem item = .ok tree) items trees := by
  induction items generalizing trees with
  | nil => simp [pure_eq_ok_iff, eq_comm (a := [])]
  | cons item rest ih =>
    simp only [List.mapM_cons, bind_eq_ok_iff, pure_eq_ok_iff, ih, List.forall₂_cons_left_iff]
    grind

/-- What a template is lowered to. -/
theorem lower_template_iff {source : Bytes} {levels : Nat} {node : Cst} {tree : Node}
    (kind : node.kind = "template_string") :
    lower source (levels + 1) node = .ok tree ↔
      ∃ expressions, List.Forall₂ (fun substitution expression =>
          substitution.firstOperand >>= lower source levels = .ok expression)
          (substitutions node) expressions ∧
        tree = ⟨node.span source,
          .templateLiteral ((pieceRanges node).map (quasi source)) expressions⟩ := by
  have known : Construct.ofKind node.kind = .template := by rw [kind]; rfl
  have same : template source (lower source levels) node = do
      let expressions ← (substitutions node).mapM fun substitution => do
        lower source levels (← substitution.firstOperand)
      return .templateLiteral ((pieceRanges node).map (quasi source)) expressions := rfl
  simp only [lower, build, known, same, map_eq_ok_iff, bind_eq_ok_iff, pure_eq_ok_iff,
    mapM_eq_ok_iff_forall₂]
  constructor
  · rintro ⟨_, ⟨expressions, lowered, rfl⟩, rfl⟩
    exact ⟨expressions, lowered, rfl⟩
  · rintro ⟨expressions, lowered, rfl⟩
    exact ⟨_, ⟨expressions, lowered, rfl⟩, rfl⟩

end Lowering

theorem Node.text_templateLiteral (span : Span) (quasis expressions : List Node) :
    Node.text ⟨span, .templateLiteral quasis expressions⟩ =
      "\x60" ++ String.join (Form.interleave (quasis.map Node.text)
        (expressions.map fun expression => "$\x7b" ++ expression.text ++ "\x7d")) ++ "\x60" := by
  have written : Node.text ⟨span, .templateLiteral quasis expressions⟩ = "\x60" ++
      Code.templateInside (Node.texts quasis) (Node.texts expressions) ++ "\x60" := rfl
  rw [written, texts_eq_map, texts_eq_map, Code.templateInside_eq, List.map_map]
  rfl

theorem Bytes.textBetween_backtick {offset : Nat}
    (found : (ofText text)[offset]? = some backtick) :
    (ofText text).textBetween offset (offset + 1) = "\x60" := by
  have single : (ofText text).slice offset (offset + 1) = ofText "\x60" := by
    obtain ⟨inside, same⟩ := List.getElem?_eq_some_iff.mp found
    rw [slice, List.drop_eq_getElem_cons inside, same, Nat.add_sub_cancel_left]
    rfl
  rw [textBetween, single, text?_ofText, Option.getD_some]

namespace Cst.IsTemplate

open Lowering

variable {node : Cst}

theorem inOrder (template : node.IsTemplate text) :
    InOrder (node.startByte + 1) (node.endByte - 1) ((substitutions node).map Cst.range) := by
  have room := template.room
  refine .of_pairwise (by omega) ?_ (List.pairwise_map.mpr template.ordered)
  simp only [List.forall_mem_map, Cst.range]
  intro substitution member
  have inside := template.inside substitution member
  omega

theorem pieceRanges_eq (template : node.IsTemplate text) :
    pieceRanges node =
      quasiRanges (node.startByte + 1) (node.endByte - 1) (substitutions node) := by
  have room := template.room
  rw [pieceRanges, Nat.max_eq_left (by omega)]

theorem tiles (template : node.IsTemplate text) :
    Tiles (node.startByte + 1) (node.endByte - 1)
      (Form.interleave (pieceRanges node) ((substitutions node).map Cst.range)) := by
  rw [template.pieceRanges_eq]
  exact tiles_quasiRanges template.inOrder

theorem starts (template : node.IsTemplate text) : Boundary text (node.startByte + 1) :=
  (Bytes.boundary_of_ascii template.opened (by decide)).succ template.opened (by decide)

theorem stops (template : node.IsTemplate text) : Boundary text (node.endByte - 1) :=
  Bytes.boundary_of_ascii template.closed (by decide)

theorem ends (template : node.IsTemplate text) :
    ∀ range ∈ Form.interleave (pieceRanges node) ((substitutions node).map Cst.range),
      Boundary text range.2 := by
  have legible : ∀ substitution ∈ substitutions node, substitution.Legible text := by
    intro substitution member
    have isKind : substitution.kind = "template_substitution" := by
      simpa using (List.mem_filter.mp member).2
    obtain ⟨starts, ends⟩ := template.whole substitution member
    exact ⟨starts, ends, fun other => absurd (isKind.symm.trans other) (by decide)⟩
  intro range member
  obtain isPiece | isSubstitution := List.mem_append.mp (Form.mem_of_mem_interleave member)
  · rw [template.pieceRanges_eq] at isPiece
    exact (boundary_of_quasiRanges template.starts template.stops legible range isPiece).2
  · obtain ⟨substitution, among, rfl⟩ := List.mem_map.mp isSubstitution
    exact (legible substitution among).ends

theorem join_texts (template : node.IsTemplate text) :
    String.join (Form.interleave
      ((pieceRanges node).map fun range => (Bytes.ofText text).textBetween range.1 range.2)
      ((substitutions node).map (Cst.text (.ofText text)))) =
        (Bytes.ofText text).textBetween (node.startByte + 1) (node.endByte - 1) := by
  rw [← template.tiles.join_texts template.starts template.stops template.ends,
    ← Form.interleave_map, List.map_map]
  rfl

theorem text_eq (template : node.IsTemplate text) :
    node.text (.ofText text) = "\x60" ++
      (Bytes.ofText text).textBetween (node.startByte + 1) (node.endByte - 1) ++ "\x60" := by
  have room := template.room
  have last : node.endByte - 1 + 1 = node.endByte := by omega
  have closes : Boundary text node.endByte :=
    last ▸ template.stops.succ template.closed (by decide)
  have back := Bytes.textBetween_append template.starts template.stops closes (by omega) (by omega)
  have front := Bytes.textBetween_append (Bytes.boundary_of_ascii template.opened (by decide))
    template.starts closes (by omega) (by omega)
  have closing := Bytes.textBetween_backtick template.closed
  rw [last] at closing
  rw [Cst.text, ← front, ← back, Bytes.textBetween_backtick template.opened, closing,
    String.append_assoc]

theorem pieces_inBounds (template : node.IsTemplate text) :
    ∀ range ∈ pieceRanges node, range.1 ≤ range.2 ∧ range.2 ≤ (Bytes.ofText text).length := by
  intro range member
  have among : range ∈ Form.interleave (pieceRanges node) ((substitutions node).map Cst.range) :=
    Form.mem_interleave (by simp [pieceRanges, length_quasiRanges]) (by simp [member])
  obtain ⟨-, forward, before⟩ := template.tiles.inOrder.of_mem among
  obtain ⟨inside, -⟩ := List.getElem?_eq_some_iff.mp template.closed
  exact ⟨forward, by omega⟩

/-- Writing the expressions in the place of the substitutions gives the template back, if each
substitution is its written expression in braces. -/
theorem text_of_forall₂ (template : node.IsTemplate text) {expressions : List Node}
    (written : List.Forall₂ (fun substitution expression =>
      Cst.text (.ofText text) substitution = "$\x7b" ++ expression.text ++ "\x7d")
      (substitutions node) expressions) (span : Span) :
    Node.text ⟨span, .templateLiteral ((pieceRanges node).map (quasi (.ofText text))) expressions⟩ =
      node.text (.ofText text) := by
  have same : (substitutions node).map (Cst.text (.ofText text)) =
      expressions.map fun expression => "$\x7b" ++ expression.text ++ "\x7d" := by
    rw [← List.forall₂_eq_eq_eq, List.forall₂_map_left_iff, List.forall₂_map_right_iff]
    exact written
  have raw : ((pieceRanges node).map (quasi (.ofText text))).map Node.text =
      (pieceRanges node).map fun range => (Bytes.ofText text).textBetween range.1 range.2 := by
    rw [List.map_map]
    rfl
  rw [Node.text_templateLiteral, ← same, raw, template.join_texts, template.text_eq]

/-- A template is cut into pieces that are in bounds, tile the space between the backticks together
with the substitutions, and put together give the text that stands there. It is lowered as soon as
the expressions of its substitutions are, and writing it gives its text if each substitution is its
written expression in braces. -/
theorem rejoined (template : node.IsTemplate text) :
    (∀ range ∈ pieceRanges node, range.1 ≤ range.2 ∧ range.2 ≤ (Bytes.ofText text).length) ∧
    (pieceRanges node).length = (substitutions node).length + 1 ∧
    Tiles (node.startByte + 1) (node.endByte - 1)
      (Form.interleave (pieceRanges node) ((substitutions node).map Cst.range)) ∧
    String.join (Form.interleave
      ((pieceRanges node).map fun range => (Bytes.ofText text).textBetween range.1 range.2)
      ((substitutions node).map (Cst.text (.ofText text)))) =
        (Bytes.ofText text).textBetween (node.startByte + 1) (node.endByte - 1) ∧
    ∀ levels tree,
      (lower (.ofText text) (levels + 1) node = .ok tree ↔
        ∃ expressions, List.Forall₂ (fun substitution expression =>
            substitution.firstOperand >>= lower (.ofText text) levels = .ok expression)
            (substitutions node) expressions ∧
          tree = ⟨node.span (.ofText text),
            .templateLiteral ((pieceRanges node).map (quasi (.ofText text))) expressions⟩) ∧
      (lower (.ofText text) (levels + 1) node = .ok tree →
        (∀ substitution ∈ substitutions node, ∀ expression,
          substitution.firstOperand >>= lower (.ofText text) levels = .ok expression →
            substitution.text (.ofText text) = "$\x7b" ++ expression.text ++ "\x7d") →
        tree.text = node.text (.ofText text)) := by
  refine ⟨template.pieces_inBounds, length_quasiRanges .., template.tiles, template.join_texts,
    fun levels tree => ⟨lower_template_iff template.kind, fun lowered written => ?_⟩⟩
  obtain ⟨expressions, parts, rfl⟩ := (lower_template_iff template.kind).mp lowered
  have paired := (List.forall₂_and_left _ _).mpr ⟨written, parts⟩
  exact template.text_of_forall₂
    (paired.imp fun _ expression both => both.1 expression both.2) _

end Cst.IsTemplate

/-- Two substitutions with nothing between them, the second another template, and characters of two
bytes before and in them. -/
def Cst.nestedTemplateText : String :=
  "\x60é$\x7ba\x7d$\x7b\x60ß$\x7bb\x7d\x60\x7d\x60"

def Cst.nestedTemplate : Cst :=
  ⟨{ kind := "template_string", startByte := 0, endByte := 19 },
    [⟨{ kind := "template_substitution", startByte := 3, endByte := 7 },
      [⟨{ kind := "identifier", startByte := 5, endByte := 6 }, []⟩]⟩,
     ⟨{ kind := "template_substitution", startByte := 7, endByte := 18 },
      [⟨{ kind := "template_string", startByte := 9, endByte := 17 },
        [⟨{ kind := "template_substitution", startByte := 12, endByte := 16 },
          [⟨{ kind := "identifier", startByte := 14, endByte := 15 }, []⟩]⟩]⟩]⟩]⟩

theorem Cst.rejoined_nestedTemplate :
    nestedTemplate.IsTemplate nestedTemplateText ∧
      ∃ tree, Lowering.lower (.ofText nestedTemplateText) 3 nestedTemplate = .ok tree ∧
        tree.text = nestedTemplateText := by
  have template : nestedTemplate.IsTemplate nestedTemplateText := by
    constructor <;> decide +kernel
  have accepted : (Lowering.lower (.ofText nestedTemplateText) 3
      nestedTemplate).toOption.isSome = true := by decide +kernel
  have written : ∀ substitution ∈ Lowering.substitutions nestedTemplate,
      ((substitution.firstOperand >>= Lowering.lower (.ofText nestedTemplateText) 2).toOption.map
        fun expression => "$\x7b" ++ expression.text ++ "\x7d") =
          some (substitution.text (.ofText nestedTemplateText)) := by decide +kernel
  cases lowered : Lowering.lower (.ofText nestedTemplateText) 3 nestedTemplate with
  | error failure => simp [lowered, Except.toOption] at accepted
  | ok tree =>
    obtain ⟨-, -, -, -, built⟩ := template.rejoined
    have whole : nestedTemplate.text (.ofText nestedTemplateText) = nestedTemplateText := by
      decide +kernel
    refine ⟨template, tree, rfl, ((built 2 tree).2 lowered ?_).trans whole⟩
    intro substitution member expression isExpression
    have shown := written substitution member
    rw [isExpression] at shown
    exact (Option.some.inj shown).symm

end ScriptLint
