import Mathlib.Data.Finset.Dedup
import Mathlib.Data.List.Flatten
import ScriptLint.Proofs.Engine.Dispatch

/-!
# Structural paths

How a walk gets from a node to another: the structural edges told in words of the tree, the chains
of such edges that stay within given kinds, and the list of all of them in the order in which a
depth-first walk takes them. A registry whose handlers report something and then walk on calls its
handlers exactly along this list.
-/

namespace ScriptLint

namespace Kind

/-- Kinds of which a walk does not simply enter every direct sub-node. -/
def selective : List Kind :=
  functions ++ loops ++
    [.tryStatement, .catchClause, .other, .property, .memberExpression, .templateLiteral]

end Kind

namespace Node

/-- The body of a function, block or bare. -/
def functionBody? (node : Node) : Option Node :=
  match node.form with
  | .functionDeclaration _ _ body _ _ => some body
  | .functionExpression _ _ body _ _ => some body
  | .arrowFunctionExpression _ body _ => some body
  | _ => none

/-- The statements of a node that is a block. -/
def blockBody? (node : Node) : Option (List Node) :=
  match node.form with
  | .blockStatement statements => some statements
  | _ => none

/-- The structural edges. They lead to every direct sub-node, except for the names and parameters of
functions, the keys of properties, the names of members, the text of templates and all that is below
loops, exception handling and foreign constructs. The statements of a function's block hang from the
function, and the block itself is left out. -/
inductive Edge (node : Node) : Node → Prop where
  | field {next : Node} (plain : node.kind ∉ Kind.selective) (member : next ∈ node.fields) :
    Edge node next
  | value {key value : Node} {computed shorthand : Bool}
    (isProperty : node.form = .property key value computed shorthand) : Edge node value
  | object {object name : Node} {computed optional : Bool}
    (isMember : node.form = .memberExpression object name computed optional) : Edge node object
  | expression {quasis expressions : List Node} {next : Node}
    (isTemplate : node.form = .templateLiteral quasis expressions) (member : next ∈ expressions) :
    Edge node next
  | statement {body next : Node} {statements : List Node}
    (isBody : node.functionBody? = some body) (isBlock : body.blockBody? = some statements)
    (member : next ∈ statements) : Edge node next
  | bareBody {body : Node} (isBody : node.functionBody? = some body)
    (bare : body.blockBody? = none) : Edge node body

theorem bodySteps_eq (body : Node) : body.bodySteps = body.blockBody?.getD [body] := by
  obtain ⟨span, form⟩ := body
  cases form <;> rfl

theorem successors_of_functionBody? {node body : Node} (isBody : node.functionBody? = some body) :
    node.successors = body.bodySteps := by
  obtain ⟨span, form⟩ := node
  cases form <;> simp_all [functionBody?, successors]

/-- Off the selective kinds a walk enters every direct sub-node, the callee of a call last. -/
theorem successors_perm_fields {node : Node} (plain : node.kind ∉ Kind.selective) :
    node.successors.Perm node.fields := by
  obtain ⟨span, form⟩ := node
  cases form
  case callExpression callee arguments optional => exact List.perm_append_singleton callee arguments
  case newExpression callee arguments => exact List.perm_append_singleton callee arguments
  all_goals
    first
    | exact List.Perm.refl _
    | simp [kind, Form.kind, Kind.selective, Kind.functions, Kind.loops] at plain

theorem edge_of_mem_bodySteps {node body next : Node} (isBody : node.functionBody? = some body)
    (member : next ∈ body.bodySteps) : node.Edge next := by
  rw [bodySteps_eq] at member
  cases known : body.blockBody? with
  | some statements => exact .statement isBody known (by simpa [known] using member)
  | none =>
    obtain rfl : next = body := by simpa [known] using member
    exact .bareBody isBody known

/-- The edges from a node lead to the nodes that the walk goes on to. -/
theorem edge_iff_mem_successors {node next : Node} : node.Edge next ↔ next ∈ node.successors := by
  constructor
  · intro edge
    cases edge with
    | field plain member => rwa [(successors_perm_fields plain).mem_iff]
    | value isProperty => simp [successors, isProperty]
    | object isMember => simp [successors, isMember]
    | expression isTemplate member => simpa [successors, isTemplate] using member
    | statement isBody isBlock member =>
      simpa [successors_of_functionBody? isBody, bodySteps_eq, isBlock] using member
    | bareBody isBody bare => simp [successors_of_functionBody? isBody, bodySteps_eq, bare]
  · intro member
    by_cases plain : node.kind ∉ Kind.selective
    · exact .field plain ((successors_perm_fields plain).mem_iff.mp member)
    · cases isBody : node.functionBody? with
      | some body =>
        exact edge_of_mem_bodySteps isBody (successors_of_functionBody? isBody ▸ member)
      | none =>
        obtain ⟨span, form⟩ := node
        cases form
        case property =>
          obtain rfl := List.mem_singleton.mp member
          exact .value rfl
        case memberExpression =>
          obtain rfl := List.mem_singleton.mp member
          exact .object rfl
        case templateLiteral => exact .expression rfl member
        -- What is left is entered whole, is a function, or is not entered at all.
        all_goals
          simp [kind, Form.kind, Kind.selective, Kind.functions, Kind.loops, functionBody?,
            successors] at plain isBody member

/-- Induction with a hypothesis for every node that a walk goes on to. -/
@[elab_as_elim]
theorem successorInduction {motive : Node → Prop}
    (step : ∀ node, (∀ next ∈ node.successors, motive next) → motive node) (node : Node) :
    motive node :=
  step node fun next _ => successorInduction step next
termination_by sizeOf node
decreasing_by exact sizeOf_lt_of_mem_successors (by assumption)

/-- A chain of structural edges from one node to another on which every node, both ends included, is
of one of the kinds. `before` lists the nodes ahead of the last one. -/
inductive Chain (kinds : Finset Kind) : (start : Node) → (before : List Node) → Node → Prop where
  | stay {node : Node} (allowed : node.kind ∈ kinds) : Chain kinds node [] node
  | step {node next target : Node} {before : List Node} (allowed : node.kind ∈ kinds)
    (edge : node.Edge next) (rest : Chain kinds next before target) :
    Chain kinds node (node :: before) target

theorem Chain.allowed_last {kinds : Finset Kind} {start target : Node} {before : List Node}
    (chain : Chain kinds start before target) : target.kind ∈ kinds := by
  induction chain with
  | stay allowed => exact allowed
  | step _ _ _ ih => exact ih

/-- The ends of all chains from a node, in the order of a depth-first walk, each with the nodes
ahead of it. -/
def visits (kinds : Finset Kind) (node : Node) : List (List Node × Node) :=
  if node.kind ∈ kinds then
    ([], node) :: node.successors.attach.flatMap fun next =>
      (next.1.visits kinds).map fun visit => (node :: visit.1, visit.2)
  else []
termination_by sizeOf node
decreasing_by exact sizeOf_lt_of_mem_successors next.2

theorem visits_eq (kinds : Finset Kind) (node : Node) :
    node.visits kinds =
      if node.kind ∈ kinds then
        ([], node) :: node.successors.flatMap fun next =>
          (next.visits kinds).map fun visit => (node :: visit.1, visit.2)
      else [] := by
  rw [visits]
  simp

theorem mem_visits_of_chain {kinds : Finset Kind} {start target : Node} {before : List Node}
    (chain : Chain kinds start before target) : (before, target) ∈ start.visits kinds := by
  induction chain with
  | stay allowed =>
    rw [visits_eq, if_pos allowed]
    exact List.mem_cons_self
  | step allowed edge _ ih =>
    rw [visits_eq, if_pos allowed]
    refine List.mem_cons_of_mem _ (List.mem_flatMap.mpr ⟨_, edge_iff_mem_successors.mp edge, ?_⟩)
    exact List.mem_map.mpr ⟨_, ih, rfl⟩

theorem chain_of_mem_visits {kinds : Finset Kind} {start target : Node} {before : List Node}
    (visited : (before, target) ∈ start.visits kinds) : Chain kinds start before target := by
  induction start using successorInduction generalizing before with
  | step start ih =>
    rw [visits_eq] at visited
    split at visited
    · next allowed =>
      rcases List.mem_cons.mp visited with here | below
      · cases here
        exact .stay allowed
      · obtain ⟨next, member, below⟩ := List.mem_flatMap.mp below
        obtain ⟨⟨rest, last⟩, inside, same⟩ := List.mem_map.mp below
        cases same
        exact .step allowed (edge_iff_mem_successors.mpr member) (ih next member inside)
    · cases visited

/-- The listed visits are the chains. -/
theorem mem_visits_iff {kinds : Finset Kind} {start target : Node} {before : List Node} :
    (before, target) ∈ start.visits kinds ↔ Chain kinds start before target :=
  ⟨chain_of_mem_visits, mem_visits_of_chain⟩

end Node

/-- Reports what it is given, in its own way, and then walks on. -/
def Handler.recording (record : Node → Option Node → Finding) : Handler :=
  (Handler.reporting record).andThen Handler.walk

namespace Kind

/-- The kinds that stand for no parent of their own. -/
def passThrough : List Kind :=
  [.expressionStatement, .blockStatement, .variableDeclarator, .objectExpression, .property,
   .memberExpression]

theorem passesParent_eq (kind : Kind) : kind.passesParent = decide (kind ∈ passThrough) := by
  cases kind <;> rfl

end Kind

/-- The last of the nodes that is not of a pass-through kind, or else the one from outside. -/
def Node.nearestParent (before : List Node) (outer : Option Node) : Option Node :=
  (before.reverse.find? (·.kind ∉ Kind.passThrough)).or outer

theorem Node.nearestParent_cons (node : Node) (before : List Node) (outer : Option Node) :
    nearestParent (node :: before) outer = nearestParent before (node.parentBelow outer) := by
  rw [nearestParent, nearestParent, List.reverse_cons, List.find?_append, Option.or_assoc,
    parentBelow, Kind.passesParent_eq]
  by_cases passes : node.kind ∈ Kind.passThrough <;> simp [passes]

namespace Registry

/-- The registry has this handler for each of the kinds, and none for any other. -/
def Holds (registry : Registry) (kinds : Finset Kind) (handler : Handler) : Prop :=
  ∀ kind, registry.handler? kind = if kind ∈ kinds then some handler else none

/-- Registering one handler for some kinds gives them that handler and no other kind any. -/
theorem holds_register (kinds : List Kind) (handler : Handler) :
    Holds (empty.register (kinds.map (·, handler))) kinds.toFinset handler := by
  intro kind
  rw [HandlerTable.handler?_register_same]
  simp [HandlerTable.empty]

variable {registry : Registry} {kinds : Finset Kind} {record : Node → Option Node → Finding}

/-- One visit reports at the node and goes on to its successors. -/
theorem visit_recording (holds : registry.Holds kinds (.recording record)) (node : Node)
    (parent : Option Node) :
    registry.visit node parent =
      if node.kind ∈ kinds then
        record node parent ::
          node.successors.flatMap fun next => registry.visit next (node.parentBelow parent)
      else [] := by
  rw [visit_eq, holds node.kind]
  by_cases allowed : node.kind ∈ kinds
  · simp only [allowed, if_true, Handler.recording, Handler.andThen, perform_append, perform_walk]
    rfl
  · simp only [allowed, if_false]

/-- A whole visit reports along the list of visits, and gives each node the nearest parent on its
way. -/
theorem visit_eq_map_visits (holds : registry.Holds kinds (.recording record)) (start : Node)
    (parent : Option Node) :
    registry.visit start parent =
      (start.visits kinds).map fun visit => record visit.2 (Node.nearestParent visit.1 parent) := by
  induction start using Node.successorInduction generalizing parent with
  | step start ih =>
    rw [visit_recording holds, Node.visits_eq]
    split
    · rw [List.map_cons, List.map_flatMap]
      congr 1
      refine List.flatMap_congr fun next member => ?_
      rw [ih next member, List.map_map]
      refine List.map_congr_left fun visit _ => ?_
      simp only [Function.comp_apply, Node.nearestParent_cons]
    · rfl

end Registry

end ScriptLint
