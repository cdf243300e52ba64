import ScriptLint.Engine.Registry

/-!
# What a registry does at a node

The handler of a kind, read as the list of actions it takes at one node. Registering replaces that
list, chaining puts actions in front of it, and visiting carries it out. Later proofs use these
equations and never open a registry.
-/

namespace ScriptLint

namespace HandlerTable

variable {H : Type}

theorem handler?_register_same (table : HandlerTable H) (kinds : List Kind) (handler : H)
    (asked : Kind) :
    (table.register (kinds.map (·, handler))).handler? asked =
      if asked ∈ kinds then some handler else table.handler? asked := by
  induction kinds generalizing table with
  | nil => simp [register]
  | cons kind kinds ih =>
    have inserted : table.register ((kind :: kinds).map (·, handler)) =
        (table.insert kind handler).register (kinds.map (·, handler)) := rfl
    rw [inserted, ih, insert]
    by_cases later : asked ∈ kinds <;> simp [later]

/-- No kind has both defaults, so the order in which they are registered does not matter. -/
theorem handler?_builtin (walk noop : H) (asked : Kind) :
    (builtin walk noop).handler? asked =
      if asked ∈ Registry.structural then some walk
      else if asked ∈ Registry.stubs then some noop
      else none := by
  have apart : ∀ kind ∈ Registry.stubs, kind ∉ Registry.structural := by decide
  rw [builtin, handler?_register_same, handler?_register_same]
  by_cases stub : asked ∈ Registry.stubs
  · simp [stub, apart _ stub]
  · simp [stub, empty]

end HandlerTable

namespace Registry

/-- The actions taken at a node: those of its kind's handler, or none. -/
def actions (registry : Registry) (node : Node) (parent : Option Node) : List (Action node) :=
  match registry.handler? node.kind with
  | some handler => handler node parent
  | none => []

theorem visit_eq_perform (registry : Registry) (node : Node) (parent : Option Node) :
    registry.visit node parent = registry.perform (registry.actions node parent) := by
  rw [visit_eq, actions]
  cases registry.handler? node.kind <;> rfl

theorem perform_nil (registry : Registry) {node : Node} :
    registry.perform ([] : List (Action node)) = [] := rfl

theorem perform_append (registry : Registry) {node : Node} (first second : List (Action node)) :
    registry.perform (first ++ second) = registry.perform first ++ registry.perform second :=
  List.flatMap_append

theorem perform_flatMap (registry : Registry) {node : Node} {α : Type} (items : List α)
    (act : α → List (Action node)) :
    registry.perform (items.flatMap act) = items.flatMap fun item => registry.perform (act item) :=
  List.flatMap_assoc

theorem perform_report (registry : Registry) {node : Node} (findings : List Finding) :
    registry.perform (findings.map fun finding => (.report finding : Action node)) = findings := by
  simp [perform, List.flatMap_map]

theorem perform_walk (registry : Registry) (node : Node) (parent : Option Node) :
    registry.perform (Handler.walk node parent) =
      node.successors.flatMap fun next => registry.visit next (node.parentBelow parent) := by
  simp [perform, Handler.walk, List.flatMap_map]

theorem actions_insert (registry : Registry) (kind : Kind) (handler : Handler) (node : Node)
    (parent : Option Node) :
    actions (registry.insert kind handler) node parent =
      if node.kind = kind then handler node parent else registry.actions node parent := by
  by_cases same : node.kind = kind <;> simp [actions, HandlerTable.insert, same]

/-- A chained handler acts in front of what the registry did before. -/
theorem actions_chain (registry : Registry) (kind : Kind) (handler : Handler) (node : Node)
    (parent : Option Node) :
    actions (registry.chain kind handler) node parent =
      (if node.kind = kind then handler node parent else []) ++ registry.actions node parent := by
  rw [HandlerTable.chain, actions_insert]
  by_cases same : node.kind = kind
  · subst same
    cases known : registry.handler? node.kind <;> simp [actions, known, Handler.andThen_apply]
  · simp [same]

/-- Chaining one handler to several kinds acts once, however the kinds are ordered. -/
theorem actions_foldl_chain (registry : Registry) (kinds : List Kind) (handler : Handler)
    (distinct : kinds.Nodup) (node : Node) (parent : Option Node) :
    actions (kinds.foldl (fun registry kind => registry.chain kind handler) registry) node parent =
      (if node.kind ∈ kinds then handler node parent else []) ++ registry.actions node parent := by
  induction kinds generalizing registry with
  | nil => simp
  | cons kind kinds ih =>
    obtain ⟨absent, distinct⟩ := List.nodup_cons.mp distinct
    rw [List.foldl_cons, ih _ distinct, actions_chain]
    by_cases same : node.kind = kind
    · simp [same, absent]
    · simp [same]

/-- The defaults walk the structural kinds and do nothing anywhere else. -/
theorem actions_builtin (node : Node) (parent : Option Node) :
    builtin.actions node parent =
      if node.kind ∈ structural then Handler.walk node parent else [] := by
  rw [actions, builtin, HandlerTable.handler?_builtin]
  by_cases walked : node.kind ∈ structural
  · simp [walked]
  · by_cases stub : node.kind ∈ stubs <;> simp [walked, stub, Handler.noop]

end Registry

end ScriptLint
