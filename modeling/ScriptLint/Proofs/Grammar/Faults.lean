import ScriptLint.Proofs.Grammar.Demands
import ScriptLint.Proofs.Grammar.Search

/-!
# Faults and syntax errors

A tree is refused with a syntax error exactly if it has a fault, and then lowering does not start:
the error is that of the first fault, whatever lowering would have done.
-/

namespace ScriptLint

namespace Lowering

variable {source : Bytes}

/-- Lowering has errors of its own and never reports a fault. -/
theorem lower_ne_unexpected {levels line column : Nat} {near : String} {node : Cst} :
    lower source levels node ≠ .error (.unexpected line column near) := by
  induction levels generalizing node with
  | zero => simp [lower]
  | succ levels ih =>
    intro refused
    rw [lower, ← failure?_eq_some_iff, (build_asks : Asks _ _ _)] at refused
    obtain ⟨demand, -, unmet⟩ := List.exists_of_findSome?_eq_some refused
    cases demand with
    | part part => exact ih (failure?_eq_some_iff.mp unmet)
    | missing kind what => simp [Demand.failure?] at unmet

theorem program_ne_unexpected {levels line column : Nat} {near : String} {root : Cst} :
    program source (lower source levels) root ≠ .error (.unexpected line column near) := by
  intro refused
  rw [← failure?_eq_some_iff, (program_asks : Asks _ _ _), List.findSome?_map] at refused
  obtain ⟨part, -, unmet⟩ := List.exists_of_findSome?_eq_some refused
  exact lower_ne_unexpected (failure?_eq_some_iff.mp unmet)

end Lowering

namespace Cst

variable {source : Bytes} {root : Cst}

/-- Parsing with any action in the place of lowering, so that its effects show whether it is
run. -/
def parseWith {m : Type → Type} [Monad m] (source : Bytes)
    (lowering : Cst → m (Except ParseError Node)) (root : Cst) : m (Except ParseError Node) :=
  match root.firstFault? with
  | some fault => pure (.error (fault.faultError source))
  | none => lowering root

theorem parse_eq_parseWith (source : Bytes) (root : Cst) :
    root.parse source =
      Id.run (root.parseWith source fun root =>
        pure (Lowering.program source (Lowering.lower source maxDepth) root)) := by
  unfold parse parseWith
  cases root.firstFault? <;> rfl

theorem parse_eq_unexpected_iff {line column : Nat} {near : String} :
    root.parse source = .error (.unexpected line column near) ↔
      ∃ fault, root.firstFault? = some fault ∧
        fault.faultError source = .unexpected line column near := by
  unfold parse
  cases root.firstFault? with
  | some fault => simp
  | none => simpa using Lowering.program_ne_unexpected

theorem parse_of_firstFault? {fault : Cst} (found : root.firstFault? = some fault) :
    root.parse source = .error (fault.faultError source) := by
  rw [parse, found]

/-- With a fault in the tree, nothing is lowered. -/
theorem parseWith_of_firstFault? {fault : Cst} (found : root.firstFault? = some fault)
    {m : Type → Type} [Monad m] (lowering : Cst → m (Except ParseError Node)) :
    root.parseWith source lowering = pure (root.parse source) := by
  rw [parse_of_firstFault? found, parseWith, found]

theorem exists_turns_firstFault? (root : Cst) :
    ∃ turns ≤ root.nodes.length,
      Cursor.Search.next^[turns] (.looking (.atRoot root)) = .ended root.firstFault? := by
  obtain ⟨turns, few, ended⟩ := (Cursor.atRoot root).exists_turns
  rw [ahead_atRoot] at few
  exact ⟨turns, Nat.le_trans few root.exposed_sublist_nodes.length_le, ended⟩

theorem Flagged.firstFault?_eq_find? (flagged : root.Flagged) :
    root.firstFault? = root.nodes.find? isFault := by
  rw [Cst.firstFault?_eq_find?, flagged.find?_exposed]

theorem Flagged.exists_unexpected_iff (flagged : root.Flagged) :
    (∃ line column near, root.parse source = .error (.unexpected line column near)) ↔
      ∃ node ∈ root.nodes, node.isFault = true := by
  rw [← List.find?_isSome, ← flagged.firstFault?_eq_find?, Option.isSome_iff_exists]
  simp only [parse_eq_unexpected_iff]
  constructor
  · rintro ⟨_, _, _, fault, found, -⟩
    exact ⟨fault, found⟩
  · rintro ⟨fault, found⟩
    exact ⟨_, _, _, fault, found, rfl⟩

/-- The search for a fault ends after at most one turn for each node, with the first fault that has
only flagged nodes above it. If the flags tell the truth, this is the first fault of the whole tree;
parsing reports a syntax error exactly if there is one, at its place and by its kind, and whatever
stands in the place of lowering is not run then. -/
theorem parse_faults (source : Bytes) (root : Cst) :
    (∃ turns ≤ root.nodes.length,
      Cursor.Search.next^[turns] (.looking (.atRoot root)) = .ended root.firstFault?) ∧
    root.firstFault? = root.exposed.find? isFault ∧
    root.parse source = Id.run (root.parseWith source fun tree =>
      pure (Lowering.program source (Lowering.lower source maxDepth) tree)) ∧
    (root.Flagged →
      root.firstFault? = root.nodes.find? isFault ∧
      ((∃ line column near, root.parse source = .error (.unexpected line column near)) ↔
        ∃ node ∈ root.nodes, node.isFault = true) ∧
      ∀ fault, root.nodes.find? isFault = some fault →
        root.parse source = .error (.unexpected (fault.start source).line
          (fault.start source).column
          (if fault.label.isMissing then "missing " ++ fault.kind else fault.kind)) ∧
        ∀ (m : Type → Type) [Monad m] (lowering : Cst → m (Except ParseError Node)),
          root.parseWith source lowering = pure (root.parse source)) := by
  refine ⟨exists_turns_firstFault? root, firstFault?_eq_find? root,
    parse_eq_parseWith source root, fun flagged => ?_⟩
  refine ⟨flagged.firstFault?_eq_find?, flagged.exists_unexpected_iff, fun fault first => ?_⟩
  have found : root.firstFault? = some fault := flagged.firstFault?_eq_find?.trans first
  exact ⟨parse_of_firstFault? found, fun m _ lowering => parseWith_of_firstFault? found lowering⟩

/-- Two statements on two lines, the second a call that lacks its closing parenthesis. -/
def unclosedCallText : String :=
  "a;\nf(x"

def missingParenthesis : Cst :=
  ⟨{ kind := ")", named := false, startByte := 6, endByte := 6, isMissing := true,
     hasError := true }, []⟩

def unclosedCall : Cst :=
  ⟨{ kind := "program", startByte := 0, endByte := 6, hasError := true },
    [⟨{ kind := "expression_statement", startByte := 0, endByte := 2 },
      [⟨{ kind := "identifier", startByte := 0, endByte := 1 }, []⟩,
       ⟨{ kind := ";", named := false, startByte := 1, endByte := 2 }, []⟩]⟩,
     ⟨{ kind := "expression_statement", startByte := 3, endByte := 6, hasError := true },
      [⟨{ kind := "call_expression", startByte := 3, endByte := 6, hasError := true },
        [⟨{ kind := "identifier", field := some .function, startByte := 3, endByte := 4 }, []⟩,
         ⟨{ kind := "arguments", field := some .arguments, startByte := 4, endByte := 6,
            hasError := true },
          [⟨{ kind := "(", named := false, startByte := 4, endByte := 5 }, []⟩,
           ⟨{ kind := "identifier", startByte := 5, endByte := 6 }, []⟩,
           missingParenthesis]⟩]⟩]⟩]⟩

theorem parse_faults_unclosedCall :
    unclosedCall.Flagged ∧
      unclosedCall.parse (.ofText unclosedCallText) = .error (.unexpected 2 4 "missing )") ∧
      ∀ (m : Type → Type) [Monad m] (lowering : Cst → m (Except ParseError Node)),
        unclosedCall.parseWith (.ofText unclosedCallText) lowering =
          pure (unclosedCall.parse (.ofText unclosedCallText)) := by
  have flagged : unclosedCall.Flagged := by
    unfold Flagged
    decide +kernel
  obtain ⟨-, -, -, faults⟩ := parse_faults (.ofText unclosedCallText) unclosedCall
  obtain ⟨-, -, reported⟩ := faults flagged
  obtain ⟨refused, unlowered⟩ := reported missingParenthesis rfl
  refine ⟨flagged, refused.trans (congrArg Except.error ?_), unlowered⟩
  decide +kernel

end Cst

end ScriptLint
