import ScriptLint.Proofs.Grammar.Plan

/-!
# What builders ask for

A builder asks for one thing after the other: a part to be lowered, or something that its construct
must have. Its demands are this list, and they settle how it fails: exactly as the first demand that
cannot be met, and not at all if there is none.
-/

namespace ScriptLint

/-- Why a step fails, if it does. -/
def failure? {ε α : Type} : Except ε α → Option ε
  | .error cause => some cause
  | .ok _ => none

theorem failure?_eq_none_iff {ε α : Type} {step : Except ε α} :
    failure? step = none ↔ ∃ value, step = .ok value := by
  cases step <;> simp [failure?]

theorem failure?_eq_some_iff {ε α : Type} {step : Except ε α} {cause : ε} :
    failure? step = some cause ↔ step = .error cause := by
  cases step <;> simp [failure?]

/-- Something that a builder asks for. -/
inductive Demand where
  /-- A part that is lowered. -/
  | part (node : Cst)
  /-- Something that the construct must have and has not. -/
  | missing (kind : String) (what : Part)
  deriving Repr

/-- Why a demand is not met, if parts are lowered like this. -/
def Demand.failure? (lower : Cst → Except ParseError Node) : Demand → Option ParseError
  | .part node => ScriptLint.failure? (lower node)
  | .missing kind what => some (.malformed kind what)

namespace Cst

open Lowering

section Demands

variable (source : Bytes) (node : Cst)

/-- What is asked for if a place is filled, which it must be. -/
def having (place : Field) (next : Cst → List Demand) : List Demand :=
  match node.field? place with
  | some child => next child
  | none => [.missing node.kind (.field place)]

/-- A part that the construct must have. -/
def must (place : Field) : List Demand :=
  node.having place fun child => [.part child]

/-- A part that the construct may have. -/
def may (place : Field) : List Demand :=
  (node.field? place).toList.map .part

/-- The first named child, which the construct must have. -/
def mustOperand : List Demand :=
  match node.operands.head? with
  | some child => [.part child]
  | none => [.missing node.kind .child]

/-- The keyword must be one that declares variables. -/
def mustDeclare (keyword : String) : List Demand :=
  if (VarKind.ofKeyword? keyword).isSome then [] else [.missing node.kind (.field .kind)]

/-- Parameters are asked for without their type annotations. -/
def paramDemands : List Demand :=
  match node.field? .parameters with
  | none => []
  | some list => list.operands.flatMap fun param =>
    if param.kind == "required_parameter" || param.kind == "optional_parameter" then
      param.must .pattern
    else [.part param]

/-- A clause of a `for` head may be empty, and an expression statement stands for its
expression. -/
def clauseDemands (place : Field) : List Demand :=
  match node.field? place with
  | none => []
  | some clause =>
    if !clause.label.named || clause.kind == "empty_statement" then []
    else if clause.kind == "expression_statement" then clause.mustOperand
    else [.part clause]

/-- All that the builder of a construct asks for, in order. -/
def demands : List Demand :=
  match Construct.ofKind node.kind with
  | .program | .block | .array | .object | .other => node.operands.map .part
  | .wrapper | .expressionStatement => node.mustOperand
  | .ifStatement => node.must .condition ++ (node.must .consequence ++ node.may .alternative)
  | .switchStatement =>
    node.must .value ++ node.having .body fun body => body.operands.map .part
  | .switchCase => node.may .value ++ (caseStatements node).map .part
  | .declaration => node.mustDeclare (keywordText source node) ++ (declarators node).map .part
  | .declarator => node.must .name ++ node.may .value
  | .returnStatement => node.operands.head?.toList.map .part
  | .forStatement =>
    node.clauseDemands .initializer ++
      (node.clauseDemands .condition ++ (node.may .increment ++ node.must .body))
  | .forEach =>
    let keyword := (node.field? .kind).elim [] fun keyword => node.mustDeclare (keyword.text source)
    node.must .left ++ (keyword ++ (node.must .right ++ node.must .body))
  | .whileStatement => node.must .condition ++ node.must .body
  | .doStatement => node.must .body ++ node.must .condition
  | .tryStatement =>
    let finalizer := (node.field? .finalizer).elim [] fun clause => clause.must .body
    node.must .body ++ (node.may .handler ++ finalizer)
  | .catchClause => node.may .parameter ++ node.must .body
  | .functionDeclaration _ | .functionExpression _ =>
    node.may .name ++ (node.paramDemands ++ node.must .body)
  | .arrowFunction =>
    (node.field? .parameter).elim node.paramDemands (fun single => [.part single]) ++
      node.must .body
  | .pair =>
    node.having .key fun key =>
      (if key.kind == "computed_property_name" then key.mustOperand else [.part key]) ++
        node.must .value
  | .call =>
    node.having .arguments fun list => node.must .function ++ (argumentParts list).map .part
  | .construction =>
    node.must .constructor ++ ((node.field? .arguments).elim [] operands).map .part
  | .assignment => node.must .left ++ node.must .right
  | .binary => node.having .operator fun _ => node.must .left ++ node.must .right
  | .unary => node.having .operator fun _ => node.must .argument
  | .update => node.having .operator fun _ => node.must .argument
  | .member => node.must .object ++ node.must .property
  | .subscript => node.must .object ++ node.must .index
  | .ternary => node.must .condition ++ (node.must .consequence ++ node.must .alternative)
  | .sequence => node.sequenceOperands.map .part
  | .template => (substitutions node).flatMap mustOperand
  | .shorthand | .this | .identifier | .literal _ => []

end Demands

end Cst

namespace Lowering

/-- The step fails exactly as the first of the demands that is not met. -/
def Asks {α : Type} (lower : Cst → Except ParseError Node) (step : Except ParseError α)
    (demands : List Demand) : Prop :=
  failure? step = demands.findSome? (Demand.failure? lower)

section Asks

variable {α β : Type} {source : Bytes} {lower : Cst → Except ParseError Node} {node : Cst}
  {step : Except ParseError α} {next : α → Except ParseError β} {demands later : List Demand}

theorem asks_ok (value : α) : Asks lower (.ok value) [] := rfl

theorem Asks.bind (first : Asks lower step demands)
    (rest : ∀ value, Asks lower (next value) later) :
    Asks lower (step >>= next) (demands ++ later) := by
  unfold Asks at first rest ⊢
  rw [List.findSome?_append, ← first]
  cases step with
  | error cause => rfl
  | ok value => exact rest value

theorem Asks.map (asks : Asks lower step demands) (f : α → β) :
    Asks lower (f <$> step) demands := by
  unfold Asks at asks ⊢
  rw [← asks]
  cases step <;> rfl

/-- The last step of a builder puts the form together, which cannot fail. -/
theorem Asks.pure (asks : Asks lower step demands) (f : α → β) :
    Asks lower (step >>= fun value => Pure.pure (f value)) demands := by
  rw [← List.append_nil demands]
  exact asks.bind fun value => asks_ok (f value)

theorem asks_lower (part : Cst) : Asks lower (lower part) [.part part] := by
  unfold Asks
  cases known : failure? (lower part) <;> simp [Demand.failure?, known]

theorem asks_require {next : Cst → Except ParseError β} {place : Field} {later : Cst → List Demand}
    (rest : ∀ child, Asks lower (next child) (later child)) :
    Asks lower (node.require place >>= next) (node.having place later) := by
  unfold Cst.require Cst.having
  cases node.field? place with
  | none => rfl
  | some child => exact rest child

theorem asks_lowerField (place : Field) :
    Asks lower (lowerField lower node place) (node.must place) :=
  asks_require asks_lower

theorem asks_firstOperand {next : Cst → Except ParseError β}
    (rest : ∀ child, Asks lower (next child) [.part child]) :
    Asks lower (node.firstOperand >>= next) node.mustOperand := by
  unfold Cst.firstOperand Cst.mustOperand
  cases node.operands with
  | nil => rfl
  | cons child _ => exact rest child

theorem asks_optional (part : Option Cst) :
    Asks lower (lowerOptional lower part) (part.toList.map .part) := by
  cases part with
  | none => rfl
  | some child => exact (asks_lower child).map some

theorem asks_varKind (keyword : String) :
    Asks lower (varKind node keyword) (node.mustDeclare keyword) := by
  unfold varKind Cst.mustDeclare
  cases VarKind.ofKeyword? keyword <;> rfl

theorem asks_mapM {items : List Cst} {f : Cst → Except ParseError Node} {asked : Cst → List Demand}
    (each : ∀ item, Asks lower (f item) (asked item)) :
    Asks lower (items.mapM f) (items.flatMap asked) := by
  induction items with
  | nil => rfl
  | cons item rest ih =>
    rw [List.mapM_cons, List.flatMap_cons]
    exact (each item).bind fun tree => ih.pure (tree :: ·)

theorem asks_parts (parts : List Cst) : Asks lower (parts.mapM lower) (parts.map .part) := by
  rw [List.map_eq_flatMap]
  exact asks_mapM asks_lower

theorem asks_params : Asks lower (params lower node) node.paramDemands := by
  unfold params Cst.paramDemands
  cases node.field? .parameters with
  | none => rfl
  | some list =>
    refine asks_mapM fun param => ?_
    split
    · exact asks_lowerField .pattern
    · exact asks_lower param

theorem asks_forClause (place : Field) :
    Asks lower (forClause lower (node.field? place)) (node.clauseDemands place) := by
  unfold forClause Cst.clauseDemands
  cases node.field? place with
  | none => rfl
  | some clause =>
    dsimp only
    split
    · rfl
    · split
      · exact asks_firstOperand fun child => (asks_lower child).pure some
      · exact (asks_lower clause).map some

theorem program_asks : Asks lower (program source lower node) (node.operands.map .part) :=
  (asks_parts node.operands).pure _

theorem forEach_asks (known : Construct.ofKind node.kind = .forEach) :
    Asks lower (forEach source lower node) (node.demands source) := by
  simp only [Cst.demands, known]
  refine (asks_lowerField .left).bind fun target => ?_
  cases node.field? .kind with
  | none =>
    exact (asks_lowerField .right).bind fun _ => (asks_lowerField .body).pure _
  | some keyword =>
    exact ((asks_varKind _).map _).bind fun _ =>
      (asks_lowerField .right).bind fun _ => (asks_lowerField .body).pure _

theorem tryStatement_asks (known : Construct.ofKind node.kind = .tryStatement) :
    Asks lower (tryStatement lower node) (node.demands source) := by
  simp only [Cst.demands, known]
  refine (asks_lowerField .body).bind fun block => (asks_optional _).bind fun handler => ?_
  cases node.field? .finalizer with
  | none => rfl
  | some clause => exact ((asks_lowerField .body).map some).pure _

theorem arrowFunction_asks (known : Construct.ofKind node.kind = .arrowFunction) :
    Asks lower (arrowFunction lower node) (node.demands source) := by
  simp only [Cst.demands, known]
  unfold arrowFunction
  cases node.field? .parameter with
  | none => exact asks_params.bind fun _ => (asks_lowerField .body).pure _
  | some single => exact ((asks_lower single).map _).bind fun _ => (asks_lowerField .body).pure _

theorem pair_asks (known : Construct.ofKind node.kind = .pair) :
    Asks lower (pair lower node) (node.demands source) := by
  simp only [Cst.demands, known]
  refine asks_require fun key => ?_
  dsimp only
  cases key.kind == "computed_property_name" with
  | true =>
    rw [if_pos rfl, if_pos rfl, ← bind_assoc]
    exact (asks_firstOperand asks_lower).bind fun _ => (asks_lowerField .value).pure _
  | false => exact (asks_lower key).bind fun _ => (asks_lowerField .value).pure _

theorem call_asks (known : Construct.ofKind node.kind = .call) :
    Asks lower (call lower node) (node.demands source) := by
  simp only [Cst.demands, known]
  refine asks_require fun list => (asks_lowerField .function).bind fun callee => ?_
  unfold argumentParts
  split
  · exact (asks_parts list.operands).pure _
  · exact ((asks_lower list).map _).pure _

theorem construction_asks (known : Construct.ofKind node.kind = .construction) :
    Asks lower (construction lower node) (node.demands source) := by
  simp only [Cst.demands, known]
  refine (asks_lowerField .constructor).bind fun callee => ?_
  cases node.field? .arguments with
  | none => rfl
  | some list => exact (asks_parts list.operands).pure _

/-- Whatever a construct is, its builder fails as its demands do. -/
theorem build_asks : Asks lower (build source lower node) (node.demands source) := by
  cases known : Construct.ofKind node.kind <;> simp only [build, known]
  case forEach => exact (forEach_asks known).map _
  case tryStatement => exact (tryStatement_asks known).map _
  case arrowFunction => exact (arrowFunction_asks known).map _
  case pair => exact (pair_asks known).map _
  case call => exact (call_asks known).map _
  case construction => exact (construction_asks known).map _
  all_goals simp only [Cst.demands, known]
  case program => exact program_asks
  case wrapper => exact asks_firstOperand asks_lower
  case expressionStatement => exact (asks_firstOperand fun child => (asks_lower child).pure _).map _
  case block => exact ((asks_parts _).pure _).map _
  case ifStatement =>
    exact ((asks_lowerField _).bind fun _ => (asks_lowerField _).bind fun _ =>
      (asks_optional _).pure _).map _
  case switchStatement =>
    exact ((asks_lowerField _).bind fun _ => asks_require fun body =>
      (asks_parts body.operands).pure _).map _
  case switchCase => exact ((asks_optional _).bind fun _ => (asks_parts _).pure _).map _
  case declaration => exact ((asks_varKind _).bind fun _ => (asks_parts _).pure _).map _
  case declarator => exact ((asks_lowerField _).bind fun _ => (asks_optional _).pure _).map _
  case returnStatement => exact ((asks_optional _).pure _).map _
  case forStatement =>
    exact ((asks_forClause _).bind fun _ => (asks_forClause _).bind fun _ =>
      (asks_optional _).bind fun _ => (asks_lowerField _).pure _).map _
  case whileStatement => exact ((asks_lowerField _).bind fun _ => (asks_lowerField _).pure _).map _
  case doStatement => exact ((asks_lowerField _).bind fun _ => (asks_lowerField _).pure _).map _
  case catchClause => exact ((asks_optional _).bind fun _ => (asks_lowerField _).pure _).map _
  case functionDeclaration =>
    exact ((asks_optional _).bind fun _ => asks_params.bind fun _ =>
      (asks_lowerField _).pure _).map _
  case functionExpression =>
    exact ((asks_optional _).bind fun _ => asks_params.bind fun _ =>
      (asks_lowerField _).pure _).map _
  case array => exact ((asks_parts _).pure _).map _
  case object => exact ((asks_parts _).pure _).map _
  case assignment => exact ((asks_lowerField _).bind fun _ => (asks_lowerField _).pure _).map _
  case binary =>
    exact (asks_require fun _ => (asks_lowerField _).bind fun _ => (asks_lowerField _).pure _).map _
  case unary => exact (asks_require fun _ => (asks_lowerField _).pure _).map _
  case update =>
    exact (asks_require fun _ => asks_require fun argument => (asks_lower argument).pure _).map _
  case member => exact ((asks_lowerField _).bind fun _ => (asks_lowerField _).pure _).map _
  case subscript => exact ((asks_lowerField _).bind fun _ => (asks_lowerField _).pure _).map _
  case ternary =>
    exact ((asks_lowerField _).bind fun _ => (asks_lowerField _).bind fun _ =>
      (asks_lowerField _).pure _).map _
  case sequence => exact ((asks_parts _).pure _).map _
  case template =>
    exact ((asks_mapM fun _ => asks_firstOperand asks_lower).pure _).map _
  case other => exact ((asks_parts _).pure _).map _
  -- What is left asks for nothing.
  all_goals rfl

end Asks

end Lowering

end ScriptLint
