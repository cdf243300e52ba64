import ScriptLint.Proofs.Engine.Paths

/-!
# Which parent a handler is given

Handlers that record the parent they are given and walk on are told the nearest node on the way that
is not of a pass-through kind, and the parent of the outermost visit if there is none. So a run
never hands out a block or another pass-through node as a parent, and the statements in the block of
a function are given that function.
-/

namespace ScriptLint

namespace Node

theorem Chain.snoc {kinds : Finset Kind} {start node next : Node} {before : List Node}
    (chain : Chain kinds start before node) (edge : node.Edge next)
    (allowed : next.kind ∈ kinds) : Chain kinds start (before ++ [node]) next := by
  induction chain with
  | stay here => exact .step here edge (.stay allowed)
  | step here first _ ih => exact .step here first (ih edge)

theorem not_passThrough_of_nearestParent {before : List Node} {parent : Node}
    (found : nearestParent before none = some parent) : parent.kind ∉ Kind.passThrough := by
  rw [nearestParent, Option.or_none] at found
  simpa using List.find?_some found

theorem nearestParent_append_function {function body : Node} (before : List Node)
    (outer : Option Node) (isBody : function.functionBody? = some body) :
    nearestParent (before ++ [function]) outer = some function := by
  have apart : function.kind ∉ Kind.passThrough := by
    obtain ⟨span, form⟩ := function
    cases form <;> simp [functionBody?] at isBody <;> simp [kind, Form.kind, Kind.passThrough]
  simp [nearestParent, apart]

end Node

namespace Registry

variable {registry : Registry} {kinds : Finset Kind} {record : Node → Option Node → Finding}

/-- A visit calls the handlers along all chains from its start, in order, and tells each of them the
nearest parent on its chain; a run never tells them a pass-through node, and what stands directly in
the block of a function is told the function. -/
theorem visit_tells_nearestParent (holds : registry.Holds kinds (.recording record)) (start : Node)
    (outer : Option Node) :
    registry.visit start outer = (start.visits kinds).map (fun visit =>
        record visit.2 (Node.nearestParent visit.1 outer)) ∧
      registry.run start = (start.visits kinds).map (fun visit =>
        record visit.2 (Node.nearestParent visit.1 none)) ∧
      (∀ before target,
        (before, target) ∈ start.visits kinds ↔ Node.Chain kinds start before target) ∧
      (∀ visit ∈ start.visits kinds, ∀ parent,
        Node.nearestParent visit.1 none = some parent → parent.kind ∉ Kind.passThrough) ∧
      (∀ before function body statements, (before, function) ∈ start.visits kinds →
        function.functionBody? = some body → body.blockBody? = some statements →
        ∀ statement ∈ statements, statement.kind ∈ kinds →
          (before ++ [function], statement) ∈ start.visits kinds ∧
            Node.nearestParent (before ++ [function]) outer = some function) := by
  refine ⟨visit_eq_map_visits holds start outer, visit_eq_map_visits holds start none,
    fun before target => Node.mem_visits_iff,
    fun visit _ parent => Node.not_passThrough_of_nearestParent, ?_⟩
  intro before function body statements visited isBody isBlock statement member allowed
  have edge : function.Edge statement := .statement isBody isBlock member
  have chain := (Node.mem_visits_iff.mp visited).snoc edge allowed
  exact ⟨Node.mem_visits_iff.mpr chain, Node.nearestParent_append_function before outer isBody⟩

/-- The tree of `{ ({ k: a.b() }) }`, where only the call stands for a parent. -/
def wrappedCall : Node :=
  ⟨⟨0, 17, 1, 1, 1, 18⟩, .blockStatement
    [⟨⟨2, 15, 1, 3, 1, 16⟩, .expressionStatement
      ⟨⟨3, 14, 1, 4, 1, 15⟩, .objectExpression
        [⟨⟨5, 13, 1, 6, 1, 14⟩, .property ⟨⟨5, 6, 1, 6, 1, 7⟩, .identifier "k"⟩
          ⟨⟨8, 13, 1, 9, 1, 14⟩, .callExpression
            ⟨⟨8, 11, 1, 9, 1, 12⟩, .memberExpression ⟨⟨8, 9, 1, 9, 1, 10⟩, .identifier "a"⟩
              ⟨⟨10, 11, 1, 11, 1, 12⟩, .identifier "b"⟩ false false⟩ [] false⟩
          false false⟩]⟩⟩]⟩

/-- All kinds of the tree. -/
def wrappedCallKinds : List Kind :=
  [.blockStatement, .expressionStatement, .objectExpression, .property, .callExpression,
   .memberExpression, .identifier]

theorem visit_tells_nearestParent_wrappedCall :
    ∃ registry : Registry,
      registry.Holds wrappedCallKinds.toFinset
        (.recording fun node parent => .tagged node (parent.elim "none" Node.kindName)) ∧
      (registry.visit wrappedCall (some ⟨default, .thisExpression⟩)).map Finding.tag =
        ["ThisExpression", "ThisExpression", "ThisExpression", "ThisExpression", "ThisExpression",
         "CallExpression", "CallExpression"] ∧
      (registry.run wrappedCall).map Finding.tag =
        ["none", "none", "none", "none", "none", "CallExpression", "CallExpression"] := by
  obtain ⟨registry, holds⟩ : ∃ registry : Registry, registry.Holds wrappedCallKinds.toFinset
      (.recording fun node parent => .tagged node (parent.elim "none" Node.kindName)) :=
    ⟨_, holds_register wrappedCallKinds _⟩
  obtain ⟨visited, run, -⟩ := visit_tells_nearestParent holds wrappedCall
    (some ⟨default, .thisExpression⟩)
  have visitsOf := fun kinds span form => Node.visits_eq kinds ⟨span, form⟩
  refine ⟨registry, holds, ?_, ?_⟩
  · rw [visited]
    simp [visitsOf, wrappedCall, wrappedCallKinds, Node.kind, Form.kind, Node.successors,
      Form.fields, Node.nearestParent, Kind.passThrough, Finding.tagged, Finding.ofNode,
      Node.kindName, Kind.name]
  · rw [run]
    simp [visitsOf, wrappedCall, wrappedCallKinds, Node.kind, Form.kind, Node.successors,
      Form.fields, Node.nearestParent, Kind.passThrough, Finding.tagged, Finding.ofNode,
      Node.kindName, Kind.name]

end Registry

end ScriptLint
