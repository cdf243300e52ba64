import ScriptLint.Proofs.Grammar.Comments
import ScriptLint.Proofs.Tree.Comments

/-!
# Comments are transparent to lowering

Removing every comment from a concrete tree changes nothing that lowering looks at: its builders go
by named children that are no comments, by fields, and by the kinds of children. So the tree
without comments is lowered to the same syntax tree, or refused with the same error, and only the
lists of comments differ. The list of the root is exactly its outermost comments.
-/

namespace ScriptLint

namespace Lowering

open Cst (PlainComments)
open Node (formWithoutComments)

/-- Two lowerings of parts that agree on trees with and without comments. -/
def Agrees (lower lower' : Cst → Except ParseError Node) : Prop :=
  ∀ part : Cst, part.PlainComments →
    lower' part.withoutComments = Node.withoutComments <$> lower part

section Parts

variable {source : Bytes} {lower lower' : Cst → Except ParseError Node} {node : Cst}

/-- What is made of a required part agrees, if it does for all plain parts. -/
theorem bind_require_withoutComments {α : Type} {f f' : Cst → Except ParseError α} {strip : α → α}
    (plain : node.PlainComments) (field : Field)
    (each : ∀ part, part.PlainComments → f' part.withoutComments = strip <$> f part) :
    (node.withoutComments.require field >>= f') = strip <$> (node.require field >>= f) := by
  rw [Cst.require, Cst.require, Cst.field?_withoutComments plain, Cst.kind_withoutComments]
  cases filled : node.field? field with
  | none => rfl
  | some part => exact each part (plain.field filled)

theorem bind_firstOperand_withoutComments {α : Type} {f f' : Cst → Except ParseError α}
    {strip : α → α} (plain : node.PlainComments)
    (each : ∀ part, part.PlainComments → f' part.withoutComments = strip <$> f part) :
    (node.withoutComments.firstOperand >>= f') = strip <$> (node.firstOperand >>= f) := by
  rw [Cst.firstOperand, Cst.firstOperand, Cst.operands_withoutComments, Cst.kind_withoutComments]
  cases known : node.operands with
  | nil => rfl
  | cons first rest => exact each first (plain.operand (by simp [known]))

theorem mapM_withoutComments {items : List Cst} {f f' : Cst → Except ParseError Node}
    (each : ∀ item ∈ items, f' item.withoutComments = Node.withoutComments <$> f item) :
    (items.map Cst.withoutComments).mapM f' = List.map Node.withoutComments <$> items.mapM f := by
  induction items with
  | nil => rfl
  | cons item rest ih =>
    have later := ih fun other member => each other (by simp [member])
    simp only [List.map_cons, List.mapM_cons, each item (by simp), later, map_bind, bind_map_left,
      map_pure]

theorem lowerOptional_withoutComments (agrees : Agrees lower lower') {part : Option Cst}
    (plain : ∀ child, part = some child → child.PlainComments) :
    lowerOptional lower' (part.map Cst.withoutComments) =
      Option.map Node.withoutComments <$> lowerOptional lower part := by
  cases part with
  | none => rfl
  | some child =>
    simp only [lowerOptional, Option.map_some, agrees child (plain child rfl), Functor.map_map]

theorem forClause_withoutComments (agrees : Agrees lower lower') {clause : Option Cst}
    (plain : ∀ child, clause = some child → child.PlainComments) :
    forClause lower' (clause.map Cst.withoutComments) =
      Option.map Node.withoutComments <$> forClause lower clause := by
  cases clause with
  | none => rfl
  | some clause =>
    have plainClause := plain clause rfl
    simp only [forClause, Option.map_some, Cst.label_withoutComments, Cst.kind_withoutComments]
    split
    · rfl
    · split
      · refine bind_firstOperand_withoutComments plainClause fun part plainPart => ?_
        simp only [agrees part plainPart, bind_map_left, map_bind, map_pure, Option.map_some]
      · simp only [agrees clause plainClause, Functor.map_map, Option.map_some]

theorem varKind_withoutComments (node : Cst) (keyword : String) :
    varKind node.withoutComments keyword = varKind node keyword := by
  simp only [varKind, Cst.kind_withoutComments]

theorem declared_withoutComments (keyword : VarKind) (target : Node) :
    (declared keyword target).withoutComments = declared keyword target.withoutComments := by
  obtain ⟨span, form⟩ := target
  simp [declared, Node.withoutComments_mk, formWithoutComments, Form.map, Form.dropComments]

theorem quasiRanges_withoutComments (cursor close : Nat) (substitutions : List Cst) :
    quasiRanges cursor close (substitutions.map Cst.withoutComments) =
      quasiRanges cursor close substitutions := by
  induction substitutions generalizing cursor with
  | nil => rfl
  | cons substitution rest ih =>
    simp only [List.map_cons, quasiRanges, Cst.startByte_withoutComments,
      Cst.endByte_withoutComments, ih]

theorem quasi_withoutComments (source : Bytes) (range : Nat × Nat) :
    (quasi source range).withoutComments = quasi source range := by
  rw [quasi, Node.withoutComments_mk]
  rfl

theorem shorthand_withoutComments (source : Bytes) (node : Cst) :
    shorthand source node.withoutComments = formWithoutComments <$> shorthand source node := by
  have name : Node.withoutComments ⟨node.span source, .identifier (node.text source)⟩ =
      ⟨node.span source, .identifier (node.text source)⟩ := Node.withoutComments_mk _ _
  rw [shorthand, shorthand, Cst.span_withoutComments, Cst.text_withoutComments]
  exact congrArg (fun name => Except.ok (Form.property name name false true)) name.symm

theorem located_withoutComments {form form' : Except ParseError (Form Node)} (span : Span)
    (same : form' = formWithoutComments <$> form) :
    Node.mk span <$> form' = Node.withoutComments <$> (Node.mk span <$> form) := by
  simp only [same, Functor.map_map, Node.withoutComments_mk]

theorem kind_of_declaration {kind : String} (known : Construct.ofKind kind = .declaration) :
    kind = "variable_declaration" ∨ kind = "lexical_declaration" := by
  unfold Construct.ofKind at known
  split at known
  all_goals cases known
  · exact .inl rfl
  · exact .inr rfl

end Parts

section Builders

-- Every builder asks for its parts in order. Once the parts are known to agree, the monad laws move
-- the stripping of comments from each part to the finished form, where it is what is claimed.
variable {source : Bytes} {lower lower' : Cst → Except ParseError Node} {node : Cst}
  (agrees : Agrees lower lower') (plain : node.PlainComments)

include agrees plain

theorem lowerField_withoutComments (field : Field) :
    lowerField lower' node.withoutComments field =
      Node.withoutComments <$> lowerField lower node field :=
  bind_require_withoutComments plain field agrees

theorem mapM_operands_withoutComments :
    node.withoutComments.operands.mapM lower' =
      List.map Node.withoutComments <$> node.operands.mapM lower := by
  rw [Cst.operands_withoutComments]
  exact mapM_withoutComments fun child member => agrees child (plain.operand member)

theorem params_withoutComments :
    params lower' node.withoutComments = List.map Node.withoutComments <$> params lower node := by
  rw [params, params, Cst.field?_withoutComments plain]
  cases filled : node.field? .parameters with
  | none => rfl
  | some list =>
    have plainList := plain.field filled
    simp only [Option.map_some, Cst.operands_withoutComments]
    refine mapM_withoutComments fun param member => ?_
    have plainParam := plainList.operand member
    rw [Cst.kind_withoutComments]
    split
    · exact lowerField_withoutComments agrees plainParam .pattern
    · exact agrees param plainParam

theorem switchCase_withoutComments :
    switchCase lower' node.withoutComments = formWithoutComments <$> switchCase lower node := by
  -- The statements are found by taking the value out of all children, comments among them.
  have statements : ∀ part ∈ (node.children.eraseP (·.label.field == some .value)).filter
      Cst.isOperand, part.PlainComments := fun part member =>
    plain.child (List.eraseP_subset (List.mem_filter.mp member).1)
  simp only [switchCase, Cst.field?_withoutComments plain,
    lowerOptional_withoutComments agrees fun _ => plain.field,
    Cst.filter_eraseP_withoutComments plain,
    mapM_withoutComments fun part member => agrees part (statements part member), bind_map_left,
    map_bind, map_pure]
  rfl

/-- The keyword is the text of a field or of the first child, and neither is a comment. -/
theorem declaration_withoutComments
    (isDeclaration : node.kind = "variable_declaration" ∨ node.kind = "lexical_declaration") :
    declaration source lower' node.withoutComments =
      formWithoutComments <$> declaration source lower node := by
  have declarators : ∀ part ∈ node.operands.filter (·.kind == "variable_declarator"),
      part.PlainComments := fun part member => plain.operand (List.mem_filter.mp member).1
  have listed := mapM_withoutComments fun part member => agrees part (declarators part member)
  simp only [declaration, Cst.field?_withoutComments plain, Cst.operandsOfKind_withoutComments,
    varKind_withoutComments, listed, bind_map_left, map_bind, map_pure]
  cases filled : node.field? .kind with
  | some keyword =>
    simp only [Option.map_some, Cst.text_withoutComments]
    rfl
  | none =>
    have noComment := plain.keyword node node.mem_nodes_self isDeclaration filled
    simp only [Option.map_none, Cst.head?_children_withoutComments noComment, Option.map_map,
      Function.comp_def, Cst.text_withoutComments]
    rfl

theorem forEach_withoutComments :
    forEach source lower' node.withoutComments =
      formWithoutComments <$> forEach source lower node := by
  simp only [forEach, lowerField_withoutComments agrees plain, Cst.field?_withoutComments plain,
    node.hasChild_withoutComments (show "of" ≠ "comment" by decide), varKind_withoutComments]
  cases node.field? .kind <;> cases node.field? .operator
  all_goals
    simp only [Option.map_some, Option.map_none, Cst.text_withoutComments, bind_map_left, map_bind,
      map_pure, apply_ite formWithoutComments, ← declared_withoutComments]
    rfl

theorem tryStatement_withoutComments :
    tryStatement lower' node.withoutComments = formWithoutComments <$> tryStatement lower node := by
  simp only [tryStatement, lowerField_withoutComments agrees plain,
    Cst.field?_withoutComments plain, lowerOptional_withoutComments agrees fun _ => plain.field]
  cases filled : node.field? .finalizer with
  | none =>
    simp only [Option.map_none, bind_map_left, map_bind, map_pure]
    rfl
  | some clause =>
    simp only [Option.map_some, lowerField_withoutComments agrees (plain.field filled),
      bind_map_left, map_bind, map_pure]
    rfl

theorem arrowFunction_withoutComments :
    arrowFunction lower' node.withoutComments =
      formWithoutComments <$> arrowFunction lower node := by
  simp only [arrowFunction, Cst.field?_withoutComments plain, params_withoutComments agrees plain,
    lowerField_withoutComments agrees plain,
    node.hasChild_withoutComments (show "async" ≠ "comment" by decide)]
  cases filled : node.field? .parameter with
  | none =>
    simp only [Option.map_none, bind_map_left, map_bind, map_pure]
    rfl
  | some single =>
    simp only [Option.map_some, agrees single (plain.field filled), bind_map_left, map_bind,
      map_pure]
    rfl

theorem pair_withoutComments :
    pair lower' node.withoutComments = formWithoutComments <$> pair lower node := by
  refine bind_require_withoutComments plain .key fun key plainKey => ?_
  simp only [Cst.kind_withoutComments, lowerField_withoutComments agrees plain]
  split
  · refine bind_firstOperand_withoutComments plainKey fun part plainPart => ?_
    simp only [agrees part plainPart, bind_map_left, map_bind, map_pure]
    rfl
  · simp only [agrees key plainKey, bind_map_left, map_bind, map_pure]
    rfl

theorem call_withoutComments :
    call lower' node.withoutComments = formWithoutComments <$> call lower node := by
  refine bind_require_withoutComments plain .arguments fun list plainList => ?_
  simp only [Cst.kind_withoutComments, lowerField_withoutComments agrees plain,
    node.hasChild_withoutComments (show "optional_chain" ≠ "comment" by decide)]
  split
  · simp only [mapM_operands_withoutComments agrees plainList, bind_map_left, map_bind, map_pure]
    rfl
  · simp only [agrees list plainList, bind_map_left, map_bind, map_pure]
    rfl

theorem construction_withoutComments :
    construction lower' node.withoutComments =
      formWithoutComments <$> construction lower node := by
  simp only [construction, lowerField_withoutComments agrees plain,
    Cst.field?_withoutComments plain]
  cases filled : node.field? .arguments with
  | none =>
    simp only [Option.map_none, bind_map_left, map_bind, map_pure]
    rfl
  | some list =>
    simp only [Option.map_some, mapM_operands_withoutComments agrees (plain.field filled),
      bind_map_left, map_bind, map_pure]
    rfl

theorem switchStatement_withoutComments :
    switchStatement lower' node.withoutComments =
      formWithoutComments <$> switchStatement lower node := by
  rw [switchStatement, lowerField_withoutComments agrees plain, bind_map_left, switchStatement,
    map_bind]
  refine bind_congr fun discriminant => ?_
  refine bind_require_withoutComments plain .body fun body plainBody => ?_
  simp only [mapM_operands_withoutComments agrees plainBody, bind_map_left, map_bind, map_pure]
  rfl

theorem binary_withoutComments :
    binary source lower' node.withoutComments =
      formWithoutComments <$> binary source lower node := by
  refine bind_require_withoutComments plain .operator fun operator _ => ?_
  simp only [Cst.text_withoutComments, lowerField_withoutComments agrees plain, bind_map_left,
    map_bind, map_pure, apply_ite formWithoutComments]
  rfl

theorem unary_withoutComments :
    unary source lower' node.withoutComments =
      formWithoutComments <$> unary source lower node := by
  refine bind_require_withoutComments plain .operator fun operator _ => ?_
  simp only [Cst.text_withoutComments, lowerField_withoutComments agrees plain, bind_map_left,
    map_bind, map_pure]
  rfl

theorem update_withoutComments :
    update source lower' node.withoutComments =
      formWithoutComments <$> update source lower node := by
  refine bind_require_withoutComments plain .operator fun operator _ => ?_
  refine bind_require_withoutComments plain .argument fun argument plainArgument => ?_
  simp only [Cst.text_withoutComments, Cst.startByte_withoutComments,
    agrees argument plainArgument, bind_map_left, map_bind, map_pure]
  rfl

theorem assignment_withoutComments :
    assignment source lower' node.withoutComments =
      formWithoutComments <$> assignment source lower node := by
  simp only [assignment, Cst.field?_withoutComments plain, Option.map_map, Function.comp_def,
    Cst.text_withoutComments, lowerField_withoutComments agrees plain, bind_map_left, map_bind,
    map_pure]
  rfl

theorem sequence_withoutComments :
    sequence lower' node.withoutComments = formWithoutComments <$> sequence lower node := by
  have operands := mapM_withoutComments fun part member =>
    agrees part (plain.sequenceOperand member)
  simp only [sequence, Cst.sequenceOperands_withoutComments, operands, bind_map_left, map_bind,
    map_pure]
  rfl

theorem template_withoutComments :
    template source lower' node.withoutComments =
      formWithoutComments <$> template source lower node := by
  have substituted : (node.withoutComments.operands.filter (·.kind == "template_substitution")).mapM
      (fun substitution => substitution.firstOperand >>= lower') =
        List.map Node.withoutComments <$>
          (node.operands.filter (·.kind == "template_substitution")).mapM
            (fun substitution => substitution.firstOperand >>= lower) := by
    rw [Cst.operandsOfKind_withoutComments]
    exact mapM_withoutComments fun part member => bind_firstOperand_withoutComments
      (plain.operand (List.mem_filter.mp member).1) agrees
  simp only [template, substituted, bind_map_left, map_bind, map_pure]
  -- The text pieces depend on where the substitutions start and end, not on what is in them.
  simp only [Cst.operandsOfKind_withoutComments, Cst.startByte_withoutComments,
    Cst.endByte_withoutComments, quasiRanges_withoutComments]
  simp [formWithoutComments, Form.map, Form.dropComments, Function.comp_def, quasi_withoutComments]

theorem program_withoutComments :
    program source lower' node.withoutComments =
      Node.withoutComments <$> program source lower node := by
  simp only [program, mapM_operands_withoutComments agrees plain, Cst.comments_withoutComments,
    Cst.span_withoutComments, bind_map_left, map_bind, map_pure, Node.withoutComments_mk]
  rfl

theorem returnStatement_withoutComments :
    returnStatement lower' node.withoutComments =
      formWithoutComments <$> returnStatement lower node := by
  have first : ∀ child, node.operands.head? = some child → child.PlainComments :=
    fun child first => plain.operand (List.mem_of_head? first)
  simp only [returnStatement, Cst.operands_withoutComments, List.head?_map,
    lowerOptional_withoutComments agrees first, bind_map_left, map_bind, map_pure]
  rfl

end Builders

/-- One level of lowering agrees on trees with and without comments, if the levels below do. -/
theorem build_withoutComments {source : Bytes}
    {lower lower' : Cst → Except ParseError Node} (agrees : Agrees lower lower') :
    Agrees (build source lower) (build source lower') := by
  intro node plain
  have async := node.hasChild_withoutComments (show "async" ≠ "comment" by decide)
  have chained := node.hasChild_withoutComments (show "optional_chain" ≠ "comment" by decide)
  rw [build, build, Cst.kind_withoutComments, Cst.span_withoutComments]
  cases known : Construct.ofKind node.kind
  case program => exact program_withoutComments agrees plain
  case wrapper => exact bind_firstOperand_withoutComments plain agrees
  all_goals refine located_withoutComments _ ?_
  case switchStatement => exact switchStatement_withoutComments agrees plain
  case switchCase => exact switchCase_withoutComments agrees plain
  case declaration =>
    exact declaration_withoutComments agrees plain (kind_of_declaration known)
  case returnStatement => exact returnStatement_withoutComments agrees plain
  case forEach => exact forEach_withoutComments agrees plain
  case tryStatement => exact tryStatement_withoutComments agrees plain
  case arrowFunction => exact arrowFunction_withoutComments agrees plain
  case pair => exact pair_withoutComments agrees plain
  case shorthand => exact shorthand_withoutComments source node
  case call => exact call_withoutComments agrees plain
  case construction => exact construction_withoutComments agrees plain
  case assignment => exact assignment_withoutComments agrees plain
  case binary => exact binary_withoutComments agrees plain
  case unary => exact unary_withoutComments agrees plain
  case update => exact update_withoutComments agrees plain
  case sequence => exact sequence_withoutComments agrees plain
  case template => exact template_withoutComments agrees plain
  case this => rfl
  case expressionStatement =>
    refine bind_firstOperand_withoutComments plain fun part plainPart => ?_
    simp only [agrees part plainPart, bind_map_left, map_bind, map_pure]
    rfl
  -- The other builders ask for nothing but fields, all operands and the kinds of children.
  all_goals
    simp only [block, ifStatement, declarator, forStatement, whileStatement, doStatement,
      catchClause, functionDeclaration, functionExpression, array, object, member, ternary, other,
      lowerField_withoutComments agrees plain, Cst.field?_withoutComments plain,
      lowerOptional_withoutComments agrees fun _ => plain.field,
      forClause_withoutComments agrees fun _ => plain.field, params_withoutComments agrees plain,
      mapM_operands_withoutComments agrees plain, async, chained, Cst.kind_withoutComments,
      Cst.text_withoutComments, bind_map_left, map_bind, map_pure]
    rfl

theorem lower_withoutComments (source : Bytes) (levels : Nat) :
    Agrees (lower source levels) (lower source levels) := by
  induction levels with
  | zero =>
    intro part _
    rw [lower, lower, Cst.start_withoutComments]
    rfl
  | succ levels ih => exact build_withoutComments ih

end Lowering

namespace Cst

theorem faultError_withoutComments (source : Bytes) (fault : Cst) :
    fault.withoutComments.faultError source = fault.faultError source := by
  simp only [faultError, start_withoutComments, label_withoutComments, kind_withoutComments]

theorem parse_eq_program {source : Bytes} {root : Cst} {tree : Node}
    (parsed : root.parse source = .ok tree) :
    ∃ body, tree = ⟨root.span source, .program body (root.comments source)⟩ := by
  rw [parse] at parsed
  cases faults : root.firstFault? with
  | some fault => simp [faults] at parsed
  | none =>
    simp only [faults, Lowering.program] at parsed
    cases lowered : root.operands.mapM (Lowering.lower source maxDepth) with
    | error failure => simp [lowered, bind, Except.bind] at parsed
    | ok body =>
      rw [lowered] at parsed
      exact ⟨body, (Except.ok.inj parsed).symm⟩

/-- The result of a parse does not depend on comments: without them the same error is reported or
the same tree is built, except that no program in it has comments. The comments of a parsed tree
are the outermost comments of the concrete tree. -/
theorem parse_withoutComments (source : Bytes) {root : Cst} (plain : root.PlainComments) :
    root.withoutComments.parse source = Node.withoutComments <$> root.parse source ∧
      ∀ tree, root.parse source = .ok tree → ∃ body, tree =
        ⟨root.span source, .program body (root.outermostComments.map (commentRecord source))⟩ := by
  constructor
  · rw [parse, parse, firstFault?_withoutComments plain]
    cases root.firstFault? with
    | some fault => exact congrArg Except.error (faultError_withoutComments source fault)
    | none =>
      exact Lowering.program_withoutComments (Lowering.lower_withoutComments source maxDepth) plain
  · intro tree parsed
    rw [← comments_eq_outermostComments]
    exact parse_eq_program parsed

/-- The tree of `f(/* a */ x) // b`, with one comment among the arguments and one after the
statement. -/
def commentedCall : Cst :=
  ⟨{ kind := "program", startByte := 0, endByte := 17 },
    [⟨{ kind := "expression_statement", startByte := 0, endByte := 12 },
      [⟨{ kind := "call_expression", startByte := 0, endByte := 12 },
        [⟨{ kind := "identifier", field := some .function, startByte := 0, endByte := 1 }, []⟩,
         ⟨{ kind := "arguments", field := some .arguments, startByte := 1, endByte := 12 },
          [⟨{ kind := "comment", startByte := 2, endByte := 9 }, []⟩,
           ⟨{ kind := "identifier", startByte := 10, endByte := 11 }, []⟩]⟩]⟩]⟩,
     ⟨{ kind := "comment", startByte := 13, endByte := 17 }, []⟩]⟩

theorem parse_withoutComments_commentedCall :
    commentedCall.PlainComments ∧
      ∃ tree, commentedCall.parse (.ofText "f(/* a */ x) // b") = .ok tree ∧
        commentedCall.withoutComments.parse (.ofText "f(/* a */ x) // b") =
          .ok tree.withoutComments ∧
        ∃ span body, tree = ⟨span, .program body
          [⟨"/* a */", true, ⟨2, 9, 1, 3, 1, 10⟩⟩, ⟨"// b", false, ⟨13, 17, 1, 14, 1, 18⟩⟩]⟩ := by
  have plain : commentedCall.PlainComments := by constructor <;> decide
  have accepted : (commentedCall.parse (.ofText "f(/* a */ x) // b")).toOption.isSome = true := by
    decide +kernel
  have listed : commentedCall.outermostComments.map (commentRecord (.ofText "f(/* a */ x) // b")) =
      [⟨"/* a */", true, ⟨2, 9, 1, 3, 1, 10⟩⟩, ⟨"// b", false, ⟨13, 17, 1, 14, 1, 18⟩⟩] := by
    decide +kernel
  obtain ⟨stripped, recorded⟩ := parse_withoutComments (.ofText "f(/* a */ x) // b") plain
  rw [listed] at recorded
  cases parsed : commentedCall.parse (.ofText "f(/* a */ x) // b") with
  | error failure => simp [parsed, Except.toOption] at accepted
  | ok tree =>
    rw [parsed] at stripped
    obtain ⟨body, built⟩ := recorded tree parsed
    exact ⟨plain, tree, rfl, stripped, _, body, built⟩

end Cst

end ScriptLint
