import ScriptLint.Proofs.Grammar.Plan
import ScriptLint.Proofs.Success
import ScriptLint.Tree.Equality

/-!
# Builders follow their plans

Whatever lowering accepts is its plan with every origin replaced by what it is lowered to. Each
builder is opened once, to show that its form follows the plan; what is proved about plans then
holds of all builders.
-/

namespace ScriptLint

namespace Lowering

section Outcomes

variable {source : Bytes} {lower : Cst → Except ParseError Node} {node : Cst}

/-- What a part is lowered to. -/
def outcome (lower : Cst → Except ParseError Node) (part : Cst) : Node :=
  (lower part).toOption.getD default

/-- Lowering accepts the part. -/
def Accepts (lower : Cst → Except ParseError Node) (part : Cst) : Prop :=
  lower part = .ok (outcome lower part)

theorem eq_ok_iff {part : Cst} {tree : Node} :
    lower part = .ok tree ↔ Accepts lower part ∧ tree = outcome lower part := by
  constructor
  · intro lowered
    have same : outcome lower part = tree := by rw [outcome, lowered]; rfl
    exact ⟨by rw [Accepts, same, lowered], same.symm⟩
  · rintro ⟨accepted, rfl⟩
    exact accepted

variable {α β ε : Type}

theorem require_eq_ok_iff {field : Field} {child : Cst} :
    node.require field = .ok child ↔ node.field? field = some child := by
  unfold Cst.require
  split <;> simp_all

theorem firstOperand_eq_ok_iff {child : Cst} :
    node.firstOperand = .ok child ↔ node.operands.head? = some child := by
  unfold Cst.firstOperand
  split <;> simp_all

/-- Lowering a picked part of each item gives what the picked parts are lowered to. -/
theorem mapM_pick_eq_ok_iff {pick : Cst → Option Cst} {lowerItem : Cst → Except ParseError Node}
    (each : ∀ item tree, lowerItem item = .ok tree ↔
      ∃ part, pick item = some part ∧ Accepts lower part ∧ tree = outcome lower part)
    {items : List Cst} {trees : List Node} :
    items.mapM lowerItem = .ok trees ↔ ∃ parts, items.mapM pick = some parts ∧
      (∀ part ∈ parts, Accepts lower part) ∧ trees = parts.map (outcome lower) := by
  induction items generalizing trees with
  | nil =>
    simp only [List.mapM_nil, pure_eq_ok_iff]
    constructor
    · rintro rfl
      exact ⟨[], rfl, by simp, rfl⟩
    · rintro ⟨parts, picked, -, rfl⟩
      cases picked
      rfl
  | cons item rest ih =>
    simp only [List.mapM_cons, bind_eq_ok_iff, pure_eq_ok_iff, ih, each, Option.bind_eq_bind,
      Option.bind_eq_some_iff, Option.pure_def, Option.some.injEq]
    constructor
    · rintro ⟨tree, ⟨part, picked, accepted, rfl⟩, trees, ⟨parts, others, all, rfl⟩, rfl⟩
      exact ⟨part :: parts, ⟨part, picked, parts, others, rfl⟩,
        List.forall_mem_cons.mpr ⟨accepted, all⟩, rfl⟩
    · rintro ⟨_, ⟨part, picked, parts, others, rfl⟩, accepted, rfl⟩
      simp only [List.forall_mem_cons] at accepted
      exact ⟨_, ⟨part, picked, accepted.1, rfl⟩, _, ⟨parts, others, accepted.2, rfl⟩, rfl⟩

theorem mapM_eq_ok_iff {parts : List Cst} {trees : List Node} :
    parts.mapM lower = .ok trees ↔
      (∀ part ∈ parts, Accepts lower part) ∧ trees = parts.map (outcome lower) := by
  have picked : parts.mapM some = some parts := by
    induction parts with
    | nil => rfl
    | cons part rest ih => simp [List.mapM_cons, ih]
  have each : ∀ item tree, lower item = .ok tree ↔
      ∃ part, some item = some part ∧ Accepts lower part ∧ tree = outcome lower part := by
    simp [eq_ok_iff]
  simp [mapM_pick_eq_ok_iff each, picked]

theorem mapM_singleton {part : Cst} : [part].mapM lower = ([·]) <$> lower part := by
  rw [List.mapM_cons, List.mapM_nil]
  cases lower part <;> rfl

theorem lowerField_eq_ok_iff {field : Field} {tree : Node} :
    lowerField lower node field = .ok tree ↔
      ∃ part, node.field? field = some part ∧ Accepts lower part ∧ tree = outcome lower part := by
  simp only [lowerField, bind_eq_ok_iff, require_eq_ok_iff, eq_ok_iff]

theorem map_some_eq_ok_iff {part : Cst} {tree : Option Node} :
    some <$> lower part = .ok tree ↔ Accepts lower part ∧ tree = some (outcome lower part) := by
  simp only [map_eq_ok_iff, eq_ok_iff]
  constructor
  · rintro ⟨inner, ⟨accepted, rfl⟩, rfl⟩
    exact ⟨accepted, rfl⟩
  · rintro ⟨accepted, rfl⟩
    exact ⟨_, ⟨accepted, rfl⟩, rfl⟩

theorem lowerOptional_eq_ok_iff {part : Option Cst} {tree : Option Node} :
    lowerOptional lower part = .ok tree ↔
      (∀ inner ∈ part, Accepts lower inner) ∧ tree = part.map (outcome lower) := by
  cases part with
  | none => simp [lowerOptional, eq_comm (b := tree)]
  | some inner => simp [lowerOptional, map_some_eq_ok_iff]

theorem varKind_eq_ok_iff {keyword : String} {kind : VarKind} :
    varKind node keyword = .ok kind ↔ VarKind.ofKeyword? keyword = some kind := by
  unfold varKind
  split <;> simp_all

theorem params_eq_ok_iff {trees : List Node} :
    params lower node = .ok trees ↔ ∃ inner, paramParts node = some inner ∧
      (∀ part ∈ inner, Accepts lower part) ∧ trees = inner.map (outcome lower) := by
  unfold params paramParts
  cases node.field? .parameters with
  | none => simp [eq_comm (b := trees)]
  | some list =>
    refine mapM_pick_eq_ok_iff fun param tree => ?_
    split
    · exact lowerField_eq_ok_iff
    · simp [eq_ok_iff]

theorem forClause_eq_ok_iff {clause : Option Cst} {tree : Option Node} :
    forClause lower clause = .ok tree ↔ ∃ inner, clausePart clause = some inner ∧
      (∀ part ∈ inner, Accepts lower part) ∧ tree = inner.map (outcome lower) := by
  cases clause with
  | none => simp [forClause, clausePart, eq_comm (b := tree)]
  | some clause =>
    unfold forClause clausePart
    dsimp only
    split
    · simp [eq_comm (b := tree)]
    · split
      · -- The clause contributes its expression, which is lowered in its place.
        have inner : ∀ part, (do return some (← lower part)) = some <$> lower part := fun _ => rfl
        simp only [bind_eq_ok_iff, firstOperand_eq_ok_iff, inner, map_some_eq_ok_iff]
        cases clause.operands.head? <;> simp
      · simp [map_some_eq_ok_iff]

end Outcomes

section Steps

variable {source : Bytes} {lower : Cst → Except ParseError Node} {lowered : Cst → Node} {node : Cst}

@[simp]
theorem Origin.node_comp_part : Origin.node source lowered ∘ Origin.part = lowered := rfl

/-- The form is the construct's plan with every part lowered, and all of them are accepted. -/
def Follows (source : Bytes) (lower : Cst → Except ParseError Node) (node : Cst)
    (form : Form Node) : Prop :=
  ∃ plan, plan? source node = some plan ∧ (∀ origin ∈ plan.fields, origin.All (Accepts lower)) ∧
    form = plan.map (Origin.node source (outcome lower))

variable {form : Form Node}

theorem expressionStatement_follows (known : Construct.ofKind node.kind = .expressionStatement)
    (built : expressionStatement lower node = .ok form) : Follows source lower node form := by
  simp only [expressionStatement, bind_eq_ok_iff, firstOperand_eq_ok_iff, eq_ok_iff,
    pure_eq_ok_iff] at built
  obtain ⟨inner, first, _, ⟨accepted, rfl⟩, rfl⟩ := built
  simp [Follows, plan?, known, first, accepted, Form.fields, Form.map, Origin.node]

theorem ifStatement_follows (known : Construct.ofKind node.kind = .ifStatement)
    (built : ifStatement lower node = .ok form) : Follows source lower node form := by
  simp only [ifStatement, bind_eq_ok_iff, lowerField_eq_ok_iff, lowerOptional_eq_ok_iff,
    pure_eq_ok_iff] at built
  obtain ⟨_, ⟨test, hasTest, tested, rfl⟩, _, ⟨consequent, hasConsequent, accepted, rfl⟩, _,
    ⟨alternate, rfl⟩, rfl⟩ := built
  simpa [Follows, plan?, known, hasTest, hasConsequent, tested, accepted, Form.fields, Form.map,
    Origin.node] using alternate

theorem switchStatement_follows (known : Construct.ofKind node.kind = .switchStatement)
    (built : switchStatement lower node = .ok form) : Follows source lower node form := by
  simp only [switchStatement, bind_eq_ok_iff, lowerField_eq_ok_iff, require_eq_ok_iff,
    mapM_eq_ok_iff, pure_eq_ok_iff] at built
  obtain ⟨_, ⟨value, hasValue, accepted, rfl⟩, body, hasBody, _, ⟨cases, rfl⟩, rfl⟩ := built
  simpa [Follows, plan?, known, hasValue, hasBody, accepted, Form.fields, Form.map, Origin.node]
    using cases

theorem switchCase_follows (known : Construct.ofKind node.kind = .switchCase)
    (built : switchCase lower node = .ok form) : Follows source lower node form := by
  have same : switchCase lower node = do
      let test ← lowerOptional lower (node.field? .value)
      return .switchCase test (← (caseStatements node).mapM lower) := rfl
  simp only [same, bind_eq_ok_iff, lowerOptional_eq_ok_iff, mapM_eq_ok_iff,
    pure_eq_ok_iff] at built
  obtain ⟨_, ⟨test, rfl⟩, _, ⟨statements, rfl⟩, rfl⟩ := built
  simpa [Follows, plan?, known, Form.fields, Form.map, or_imp, forall_and]
    using ⟨test, statements⟩

theorem declaration_follows (known : Construct.ofKind node.kind = .declaration)
    (built : declaration source lower node = .ok form) : Follows source lower node form := by
  have same : declaration source lower node = do
      let keyword ← varKind node (keywordText source node)
      return .variableDeclaration keyword (← (declarators node).mapM lower) := rfl
  simp only [same, bind_eq_ok_iff, varKind_eq_ok_iff, mapM_eq_ok_iff, pure_eq_ok_iff] at built
  obtain ⟨keyword, isKeyword, _, ⟨declared, rfl⟩, rfl⟩ := built
  simpa [Follows, plan?, known, isKeyword, Form.fields, Form.map] using declared

theorem declarator_follows (known : Construct.ofKind node.kind = .declarator)
    (built : declarator lower node = .ok form) : Follows source lower node form := by
  simp only [declarator, bind_eq_ok_iff, lowerField_eq_ok_iff, lowerOptional_eq_ok_iff,
    pure_eq_ok_iff] at built
  obtain ⟨_, ⟨name, hasName, accepted, rfl⟩, _, ⟨value, rfl⟩, rfl⟩ := built
  simpa [Follows, plan?, known, hasName, accepted, Form.fields, Form.map, Origin.node] using value

theorem returnStatement_follows (known : Construct.ofKind node.kind = .returnStatement)
    (built : returnStatement lower node = .ok form) : Follows source lower node form := by
  simp only [returnStatement, bind_eq_ok_iff, lowerOptional_eq_ok_iff, pure_eq_ok_iff] at built
  obtain ⟨_, ⟨argument, rfl⟩, rfl⟩ := built
  simpa [Follows, plan?, known, Form.fields, Form.map] using argument

theorem forStatement_follows (known : Construct.ofKind node.kind = .forStatement)
    (built : forStatement lower node = .ok form) : Follows source lower node form := by
  simp only [forStatement, bind_eq_ok_iff, forClause_eq_ok_iff, lowerOptional_eq_ok_iff,
    lowerField_eq_ok_iff, pure_eq_ok_iff] at built
  obtain ⟨_, ⟨init, hasInit, initial, rfl⟩, _, ⟨test, hasTest, tested, rfl⟩, _, ⟨update, rfl⟩, _,
    ⟨body, hasBody, accepted, rfl⟩, rfl⟩ := built
  simpa [Follows, plan?, known, hasInit, hasTest, hasBody, accepted, Form.fields, Form.map,
    Origin.node, or_imp, forall_and] using ⟨initial, tested, update⟩

/-- The target of a `for` head, wrapped if the head declares it. -/
def loopTarget (source : Bytes) (node : Cst) (target : Node) : Except ParseError Node :=
  match node.field? .kind with
  | some keyword => (declared · target) <$> varKind node (keyword.text source)
  | none => .ok target

theorem loopTarget_eq_ok_iff {target : Cst} {left : Node} :
    loopTarget source node (outcome lower target) = .ok left ↔
      ∃ origin, targetPart source node target = some origin ∧
        left = origin.node source (outcome lower) := by
  unfold loopTarget targetPart
  cases node.field? .kind with
  | none => simp [Origin.node, eq_comm (b := left)]
  | some keyword =>
    simp only [map_eq_ok_iff, varKind_eq_ok_iff, Option.map_eq_map, Option.map_eq_some_iff]
    constructor
    · rintro ⟨kind, isKeyword, rfl⟩
      exact ⟨_, ⟨kind, isKeyword, rfl⟩, rfl⟩
    · rintro ⟨_, ⟨kind, isKeyword, rfl⟩, rfl⟩
      exact ⟨kind, isKeyword, rfl⟩

theorem forEach_follows (known : Construct.ofKind node.kind = .forEach)
    (built : forEach source lower node = .ok form) : Follows source lower node form := by
  have same : forEach source lower node = do
      let left ← loopTarget source node (← lowerField lower node .left)
      let right ← lowerField lower node .right
      let body ← lowerField lower node .body
      return if overValues source node then .forOfStatement left right body
        else .forInStatement left right body := by
    simp only [forEach, loopTarget]
    cases node.field? .kind <;> rfl
  simp only [same, bind_eq_ok_iff, lowerField_eq_ok_iff, pure_eq_ok_iff] at built
  obtain ⟨_, ⟨target, hasTarget, accepted, rfl⟩, left, isLeft, _,
    ⟨right, hasRight, acceptedRight, rfl⟩, _, ⟨body, hasBody, acceptedBody, rfl⟩, rfl⟩ := built
  obtain ⟨origin, isOrigin, rfl⟩ := loopTarget_eq_ok_iff.mp isLeft
  have acceptedLeft : origin.All (Accepts lower) := by
    obtain rfl | ⟨keyword, rfl⟩ := eq_of_targetPart isOrigin <;> simpa using accepted
  cases values : overValues source node <;>
    simp [Follows, plan?, known, hasTarget, isOrigin, hasRight, hasBody, values, acceptedLeft,
      acceptedRight, acceptedBody, Form.fields, Form.map, Origin.node]

theorem whileStatement_follows (known : Construct.ofKind node.kind = .whileStatement)
    (built : whileStatement lower node = .ok form) : Follows source lower node form := by
  simp only [whileStatement, bind_eq_ok_iff, lowerField_eq_ok_iff, pure_eq_ok_iff] at built
  obtain ⟨_, ⟨test, hasTest, tested, rfl⟩, _, ⟨body, hasBody, accepted, rfl⟩, rfl⟩ := built
  simp [Follows, plan?, known, hasTest, tested, hasBody, accepted, Form.fields, Form.map,
    Origin.node]

theorem doStatement_follows (known : Construct.ofKind node.kind = .doStatement)
    (built : doStatement lower node = .ok form) : Follows source lower node form := by
  simp only [doStatement, bind_eq_ok_iff, lowerField_eq_ok_iff, pure_eq_ok_iff] at built
  obtain ⟨_, ⟨body, hasBody, accepted, rfl⟩, _, ⟨test, hasTest, tested, rfl⟩, rfl⟩ := built
  simp [Follows, plan?, known, hasTest, tested, hasBody, accepted, Form.fields, Form.map,
    Origin.node]

theorem tryStatement_follows (known : Construct.ofKind node.kind = .tryStatement)
    (built : tryStatement lower node = .ok form) : Follows source lower node form := by
  simp only [tryStatement, bind_eq_ok_iff, lowerField_eq_ok_iff, lowerOptional_eq_ok_iff] at built
  obtain ⟨_, ⟨block, hasBlock, accepted, rfl⟩, _, ⟨handler, rfl⟩, built⟩ := built
  cases final : node.field? .finalizer with
  | none =>
    simp only [final, bind_eq_ok_iff, Except.ok.injEq, pure_eq_ok_iff] at built
    obtain ⟨_, rfl, rfl⟩ := built
    simpa [Follows, plan?, finalizerPart, known, hasBlock, final, accepted, Form.fields, Form.map,
      Origin.node] using handler
  | some clause =>
    simp only [final, bind_eq_ok_iff, map_eq_ok_iff, lowerField_eq_ok_iff, pure_eq_ok_iff] at built
    obtain ⟨_, ⟨_, ⟨body, hasBody, acceptedBody, rfl⟩, rfl⟩, rfl⟩ := built
    simpa [Follows, plan?, finalizerPart, known, hasBlock, final, hasBody, accepted, acceptedBody,
      Form.fields, Form.map, Origin.node, or_imp, forall_and] using handler

theorem catchClause_follows (known : Construct.ofKind node.kind = .catchClause)
    (built : catchClause lower node = .ok form) : Follows source lower node form := by
  simp only [catchClause, bind_eq_ok_iff, lowerField_eq_ok_iff, lowerOptional_eq_ok_iff,
    pure_eq_ok_iff] at built
  obtain ⟨_, ⟨param, rfl⟩, _, ⟨body, hasBody, accepted, rfl⟩, rfl⟩ := built
  simpa [Follows, plan?, known, hasBody, accepted, Form.fields, Form.map, Origin.node, or_imp,
    forall_and] using param

/-- A builder that lowers a list of parts follows the plan that lists them. -/
theorem follows_of_mapM {parts : List Cst} {make : List Node → Form Node} (plan : Form Origin)
    (planned : plan? source node = some plan) (fields : plan.fields = parts.map .part)
    (formed : plan.map (Origin.node source (outcome lower)) = make (parts.map (outcome lower)))
    (built : (do return make (← parts.mapM lower)) = Except.ok form) :
    Follows source lower node form := by
  simp only [bind_eq_ok_iff, mapM_eq_ok_iff, pure_eq_ok_iff] at built
  obtain ⟨_, ⟨accepted, rfl⟩, rfl⟩ := built
  refine ⟨plan, planned, ?_, formed.symm⟩
  simpa [fields] using accepted

theorem block_follows (known : Construct.ofKind node.kind = .block)
    (built : block lower node = .ok form) : Follows source lower node form :=
  follows_of_mapM (.blockStatement (node.operands.map .part)) (by simp only [plan?, known]) rfl
    (by simp [Form.map]) built

/-- What a named function is built from, whatever is made of it. -/
theorem function_eq_ok {make : Option Node → List Node → Node → Form Node}
    (built : (do
      let id ← lowerOptional lower (node.field? .name)
      let params ← params lower node
      let body ← lowerField lower node .body
      return make id params body) = Except.ok form) :
    ∃ params body, paramParts node = some params ∧ node.field? .body = some body ∧
      (∀ part ∈ node.field? .name, Accepts lower part) ∧ (∀ part ∈ params, Accepts lower part) ∧
      Accepts lower body ∧ form = make ((node.field? .name).map (outcome lower))
        (params.map (outcome lower)) (outcome lower body) := by
  simp only [bind_eq_ok_iff, lowerOptional_eq_ok_iff, params_eq_ok_iff, lowerField_eq_ok_iff,
    pure_eq_ok_iff] at built
  obtain ⟨_, ⟨name, rfl⟩, _, ⟨params, hasParams, acceptedParams, rfl⟩, _,
    ⟨body, hasBody, accepted, rfl⟩, rfl⟩ := built
  exact ⟨params, body, hasParams, hasBody, name, acceptedParams, accepted, rfl⟩

theorem functionDeclaration_follows {generator : Bool}
    (known : Construct.ofKind node.kind = .functionDeclaration generator)
    (built : functionDeclaration lower node generator = .ok form) :
    Follows source lower node form := by
  obtain ⟨params, body, hasParams, hasBody, name, acceptedParams, accepted, rfl⟩ :=
    function_eq_ok built
  simpa [Follows, plan?, known, hasParams, hasBody, accepted, Form.fields, Form.map, Origin.node,
    or_imp, forall_and] using ⟨name, acceptedParams⟩

theorem functionExpression_follows {generator : Bool}
    (known : Construct.ofKind node.kind = .functionExpression generator)
    (built : functionExpression lower node generator = .ok form) :
    Follows source lower node form := by
  obtain ⟨params, body, hasParams, hasBody, name, acceptedParams, accepted, rfl⟩ :=
    function_eq_ok built
  simpa [Follows, plan?, known, hasParams, hasBody, accepted, Form.fields, Form.map, Origin.node,
    or_imp, forall_and] using ⟨name, acceptedParams⟩

theorem arrowFunction_follows (known : Construct.ofKind node.kind = .arrowFunction)
    (built : arrowFunction lower node = .ok form) : Follows source lower node form := by
  have same : arrowFunction lower node = do
      let params ← (match node.field? .parameter with
        | some single => [single].mapM lower
        | none => params lower node)
      let body ← lowerField lower node .body
      return .arrowFunctionExpression params body (node.hasChild "async") := by
    unfold arrowFunction
    cases node.field? .parameter with
    | none => rfl
    | some single => simp only [mapM_singleton]
  simp only [same, bind_eq_ok_iff, lowerField_eq_ok_iff, pure_eq_ok_iff] at built
  obtain ⟨trees, lowered, _, ⟨body, hasBody, accepted, rfl⟩, rfl⟩ := built
  obtain ⟨parts, hasParts, acceptedParts, rfl⟩ : ∃ parts, arrowParts node = some parts ∧
      (∀ part ∈ parts, Accepts lower part) ∧ trees = parts.map (outcome lower) := by
    unfold arrowParts
    cases single : node.field? .parameter with
    | none => exact params_eq_ok_iff.mp (by simpa only [single] using lowered)
    | some param => exact ⟨[param], rfl, mapM_eq_ok_iff.mp (by simpa only [single] using lowered)⟩
  simpa [Follows, plan?, known, hasParts, hasBody, accepted, Form.fields, Form.map, Origin.node,
    or_imp, forall_and] using acceptedParts

theorem array_follows (known : Construct.ofKind node.kind = .array)
    (built : array lower node = .ok form) : Follows source lower node form :=
  follows_of_mapM (.arrayExpression (node.operands.map .part)) (by simp only [plan?, known]) rfl
    (by simp [Form.map]) built

theorem object_follows (known : Construct.ofKind node.kind = .object)
    (built : object lower node = .ok form) : Follows source lower node form :=
  follows_of_mapM (.objectExpression (node.operands.map .part)) (by simp only [plan?, known]) rfl
    (by simp [Form.map]) built

theorem pair_follows (known : Construct.ofKind node.kind = .pair)
    (built : pair lower node = .ok form) : Follows source lower node form := by
  simp only [pair, bind_eq_ok_iff, require_eq_ok_iff] at built
  obtain ⟨key, hasKey, built⟩ := built
  obtain ⟨part, hasPart, acceptedKey, value, hasValue, accepted, rfl⟩ : ∃ part,
      keyPart key = some part ∧ Accepts lower part ∧ ∃ value, node.field? .value = some value ∧
        Accepts lower value ∧ form = .property (outcome lower part) (outcome lower value)
          (key.kind == "computed_property_name") false := by
    unfold keyPart
    split at built <;> rename_i computed <;>
      simp only [computed, bind_eq_ok_iff, firstOperand_eq_ok_iff, eq_ok_iff, lowerField_eq_ok_iff,
        pure_eq_ok_iff] at built ⊢
    · obtain ⟨part, first, _, ⟨acceptedKey, rfl⟩, _, ⟨value, hasValue, accepted, rfl⟩, rfl⟩ := built
      exact ⟨part, first, acceptedKey, value, hasValue, accepted, rfl⟩
    · obtain ⟨_, ⟨acceptedKey, rfl⟩, _, ⟨value, hasValue, accepted, rfl⟩, rfl⟩ := built
      exact ⟨key, rfl, acceptedKey, value, hasValue, accepted, rfl⟩
  simp [Follows, plan?, known, hasKey, hasPart, hasValue, acceptedKey, accepted, Form.fields,
    Form.map, Origin.node]

theorem shorthand_follows (known : Construct.ofKind node.kind = .shorthand)
    (built : shorthand source node = .ok form) : Follows source lower node form := by
  cases built
  simp [Follows, plan?, known, Form.fields, Form.map, Origin.node]

theorem call_follows (known : Construct.ofKind node.kind = .call)
    (built : call lower node = .ok form) : Follows source lower node form := by
  have same : call lower node = do
      let list ← node.require .arguments
      let callee ← lowerField lower node .function
      let arguments ← (argumentParts list).mapM lower
      return .callExpression callee arguments (node.hasChild "optional_chain") := by
    unfold call argumentParts
    congr 1
    funext list
    congr 1
    funext callee
    split
    · rfl
    · simp only [mapM_singleton]
  simp only [same, bind_eq_ok_iff, require_eq_ok_iff, lowerField_eq_ok_iff, mapM_eq_ok_iff,
    pure_eq_ok_iff] at built
  obtain ⟨list, hasList, _, ⟨callee, hasCallee, accepted, rfl⟩, _, ⟨arguments, rfl⟩, rfl⟩ := built
  simpa [Follows, plan?, known, hasList, hasCallee, accepted, Form.fields, Form.map, Origin.node]
    using arguments

theorem construction_follows (known : Construct.ofKind node.kind = .construction)
    (built : construction lower node = .ok form) : Follows source lower node form := by
  have same : construction lower node = do
      let callee ← lowerField lower node .constructor
      let arguments ← ((node.field? .arguments).elim [] Cst.operands).mapM lower
      return .newExpression callee arguments := by
    unfold construction
    cases node.field? .arguments <;> rfl
  simp only [same, bind_eq_ok_iff, lowerField_eq_ok_iff, mapM_eq_ok_iff, pure_eq_ok_iff] at built
  obtain ⟨_, ⟨callee, hasCallee, accepted, rfl⟩, _, ⟨arguments, rfl⟩, rfl⟩ := built
  simpa [Follows, plan?, known, hasCallee, accepted, Form.fields, Form.map, Origin.node]
    using arguments

theorem assignment_follows (known : Construct.ofKind node.kind = .assignment)
    (built : assignment source lower node = .ok form) : Follows source lower node form := by
  simp only [assignment, bind_eq_ok_iff, lowerField_eq_ok_iff, pure_eq_ok_iff] at built
  obtain ⟨_, ⟨left, hasLeft, accepted, rfl⟩, _, ⟨right, hasRight, acceptedRight, rfl⟩, rfl⟩ := built
  simp [Follows, plan?, known, hasLeft, hasRight, accepted, acceptedRight, Form.fields, Form.map,
    Origin.node]

theorem binary_follows (known : Construct.ofKind node.kind = .binary)
    (built : binary source lower node = .ok form) : Follows source lower node form := by
  simp only [binary, bind_eq_ok_iff, require_eq_ok_iff, lowerField_eq_ok_iff,
    pure_eq_ok_iff] at built
  obtain ⟨operator, hasOperator, _, ⟨left, hasLeft, accepted, rfl⟩, _,
    ⟨right, hasRight, acceptedRight, rfl⟩, rfl⟩ := built
  cases logical : isLogical (operator.text source) <;>
    simp [Follows, plan?, known, hasOperator, logical, hasLeft, hasRight, accepted, acceptedRight,
      Form.fields, Form.map, Origin.node]

theorem unary_follows (known : Construct.ofKind node.kind = .unary)
    (built : unary source lower node = .ok form) : Follows source lower node form := by
  simp only [unary, bind_eq_ok_iff, require_eq_ok_iff, lowerField_eq_ok_iff,
    pure_eq_ok_iff] at built
  obtain ⟨operator, hasOperator, _, ⟨argument, hasArgument, accepted, rfl⟩, rfl⟩ := built
  simp [Follows, plan?, known, hasOperator, hasArgument, accepted, Form.fields, Form.map,
    Origin.node]

theorem update_follows (known : Construct.ofKind node.kind = .update)
    (built : update source lower node = .ok form) : Follows source lower node form := by
  simp only [update, bind_eq_ok_iff, require_eq_ok_iff, eq_ok_iff, pure_eq_ok_iff] at built
  obtain ⟨operator, hasOperator, argument, hasArgument, _, ⟨accepted, rfl⟩, rfl⟩ := built
  simp [Follows, plan?, known, hasOperator, hasArgument, accepted, Form.fields, Form.map,
    Origin.node]

/-- A member is followed wherever its name stands. -/
theorem follows_of_member {place : Field} {computed : Bool}
    (planned : plan? source node = do
      return .memberExpression (.part (← node.field? .object)) (.part (← node.field? place))
        computed (node.hasChild "optional_chain"))
    (built : member lower node place computed = .ok form) : Follows source lower node form := by
  simp only [member, bind_eq_ok_iff, lowerField_eq_ok_iff, pure_eq_ok_iff] at built
  obtain ⟨_, ⟨object, hasObject, accepted, rfl⟩, _, ⟨name, hasName, acceptedName, rfl⟩, rfl⟩ :=
    built
  simp [Follows, planned, hasObject, hasName, accepted, acceptedName, Form.fields, Form.map,
    Origin.node]

theorem member_follows (known : Construct.ofKind node.kind = .member)
    (built : member lower node .property false = .ok form) : Follows source lower node form :=
  follows_of_member (by simp only [plan?, known]) built

theorem subscript_follows (known : Construct.ofKind node.kind = .subscript)
    (built : member lower node .index true = .ok form) : Follows source lower node form :=
  follows_of_member (by simp only [plan?, known]) built

theorem ternary_follows (known : Construct.ofKind node.kind = .ternary)
    (built : ternary lower node = .ok form) : Follows source lower node form := by
  simp only [ternary, bind_eq_ok_iff, lowerField_eq_ok_iff, pure_eq_ok_iff] at built
  obtain ⟨_, ⟨test, hasTest, tested, rfl⟩, _, ⟨consequent, hasConsequent, accepted, rfl⟩, _,
    ⟨alternate, hasAlternate, acceptedAlternate, rfl⟩, rfl⟩ := built
  simp [Follows, plan?, known, hasTest, hasConsequent, hasAlternate, tested, accepted,
    acceptedAlternate, Form.fields, Form.map, Origin.node]

theorem sequence_follows (known : Construct.ofKind node.kind = .sequence)
    (built : sequence lower node = .ok form) : Follows source lower node form :=
  follows_of_mapM (.sequenceExpression (node.sequenceOperands.map .part))
    (by simp only [plan?, known]) rfl (by simp [Form.map]) built

theorem template_follows (known : Construct.ofKind node.kind = .template)
    (built : template source lower node = .ok form) : Follows source lower node form := by
  have same : template source lower node = do
      let expressions ← (substitutions node).mapM fun substitution => do
        lower (← substitution.firstOperand)
      return .templateLiteral ((pieceRanges node).map (quasi source)) expressions := rfl
  have each : ∀ substitution tree, (do lower (← Cst.firstOperand substitution)) = .ok tree ↔
      ∃ part, substitution.operands.head? = some part ∧ Accepts lower part ∧
        tree = outcome lower part := by
    simp only [bind_eq_ok_iff, firstOperand_eq_ok_iff, eq_ok_iff, implies_true]
  simp only [same, bind_eq_ok_iff, mapM_pick_eq_ok_iff each, pure_eq_ok_iff] at built
  obtain ⟨_, ⟨expressions, hasExpressions, accepted, rfl⟩, rfl⟩ := built
  have pieces : Origin.node source (outcome lower) ∘ Origin.piece = quasi source := rfl
  refine ⟨.templateLiteral ((pieceRanges node).map .piece) (expressions.map .part),
    by simp [plan?, known, hasExpressions], ?_, by simp [Form.map, pieces]⟩
  simp only [Form.fields, List.forall_mem_append, List.forall_mem_map, Origin.all_piece,
    Origin.all_part, implies_true, true_and]
  exact accepted

theorem other_follows (known : Construct.ofKind node.kind = .other)
    (built : other lower node = .ok form) : Follows source lower node form :=
  follows_of_mapM (.other node.kind (node.operands.map .part)) (by simp only [plan?, known]) rfl
    (by simp [Form.map]) built

/-- One level of lowering: a wrapper is lowered to what its first operand is, and anything else
follows its plan. -/
theorem build_cases {tree : Node} (built : build source lower node = .ok tree) :
    (Construct.ofKind node.kind = .wrapper ∧
      ∃ inner, node.operands.head? = some inner ∧ lower inner = .ok tree) ∨
    (tree.span = node.span source ∧ Follows source lower node tree.form) := by
  have located : ∀ {form : Except ParseError (Form Node)},
      Node.mk (node.span source) <$> form = .ok tree →
        (∀ {result}, form = .ok result → Follows source lower node result) →
        tree.span = node.span source ∧ Follows source lower node tree.form := by
    intro form isTree follows
    obtain ⟨result, done, rfl⟩ := map_eq_ok_iff.mp isTree
    exact ⟨rfl, follows done⟩
  cases known : Construct.ofKind node.kind <;> simp only [build, known] at built
  case wrapper =>
    simp only [bind_eq_ok_iff, firstOperand_eq_ok_iff] at built
    exact .inl ⟨rfl, built⟩
  all_goals refine .inr ?_
  case program =>
    simp only [program, bind_eq_ok_iff, mapM_eq_ok_iff, pure_eq_ok_iff] at built
    obtain ⟨_, ⟨body, rfl⟩, rfl⟩ := built
    simpa [Follows, plan?, known, programPlan, Form.fields, Form.map] using body
  case expressionStatement => exact located built (expressionStatement_follows known)
  case block => exact located built (block_follows known)
  case ifStatement => exact located built (ifStatement_follows known)
  case switchStatement => exact located built (switchStatement_follows known)
  case switchCase => exact located built (switchCase_follows known)
  case declaration => exact located built (declaration_follows known)
  case declarator => exact located built (declarator_follows known)
  case returnStatement => exact located built (returnStatement_follows known)
  case forStatement => exact located built (forStatement_follows known)
  case forEach => exact located built (forEach_follows known)
  case whileStatement => exact located built (whileStatement_follows known)
  case doStatement => exact located built (doStatement_follows known)
  case tryStatement => exact located built (tryStatement_follows known)
  case catchClause => exact located built (catchClause_follows known)
  case functionDeclaration => exact located built (functionDeclaration_follows known)
  case functionExpression => exact located built (functionExpression_follows known)
  case arrowFunction => exact located built (arrowFunction_follows known)
  case array => exact located built (array_follows known)
  case object => exact located built (object_follows known)
  case pair => exact located built (pair_follows known)
  case shorthand => exact located built (shorthand_follows known)
  case call => exact located built (call_follows known)
  case construction => exact located built (construction_follows known)
  case assignment => exact located built (assignment_follows known)
  case binary => exact located built (binary_follows known)
  case unary => exact located built (unary_follows known)
  case update => exact located built (update_follows known)
  case member => exact located built (member_follows known)
  case subscript => exact located built (subscript_follows known)
  case ternary => exact located built (ternary_follows known)
  case sequence => exact located built (sequence_follows known)
  case template => exact located built (template_follows known)
  case other => exact located built (other_follows known)
  -- What is left has no parts.
  all_goals
    cases built
    simp [Follows, plan?, known, Form.fields, Form.map]

end Steps

end Lowering

end ScriptLint
