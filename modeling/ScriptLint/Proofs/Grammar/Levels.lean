import ScriptLint.Proofs.Grammar.Comments
import ScriptLint.Proofs.Grammar.Demands

/-!
# How deep lowering goes

Lowering comes to the named children of the root on level 1, and to the parts that a builder asks
for one level below its construct. If every construct has all that it must have, the levels alone
decide: a tree is accepted exactly if no node is met below the deepest level, and else the first
node met on the level below it is the one reported.
-/

namespace ScriptLint

/-- The part that a demand asks for, if it can be met at all. -/
def Demand.part? : Demand → Option Cst
  | .part node => some node
  | .missing _ _ => none

/-- A node that lowering comes to, with its level. -/
structure Visit where
  level : Nat
  node : Cst
  deriving Repr

namespace Cst

open Lowering

section Below

variable {source : Bytes} {node part inner : Cst} {place : Field}

/-- Everything below a node, in document order. -/
def beneath (node : Cst) : List Cst :=
  node.children.flatMap nodes

theorem mem_nodes_of_beneath (member : inner ∈ node.beneath) : inner ∈ node.nodes := by
  rw [nodes_eq]
  exact List.mem_cons_of_mem node member

theorem mem_beneath_of_child (isChild : part ∈ node.children) (member : inner ∈ part.nodes) :
    inner ∈ node.beneath :=
  List.mem_flatMap.mpr ⟨part, isChild, member⟩

theorem mem_beneath_of_field? (filled : node.field? place = some part) : part ∈ node.beneath :=
  mem_beneath_of_child (mem_children_of_field? filled) part.mem_nodes_self

theorem mem_beneath_of_operand (isOperand : part ∈ node.operands) : part ∈ node.beneath :=
  mem_beneath_of_child (mem_children_of_operand isOperand) part.mem_nodes_self

theorem mem_beneath_trans (member : part ∈ node.beneath) (deeper : inner ∈ part.beneath) :
    inner ∈ node.beneath := by
  obtain ⟨child, isChild, member⟩ := List.mem_flatMap.mp member
  exact mem_beneath_of_child isChild (mem_nodes_trans member (mem_nodes_of_beneath deeper))

theorem mem_beneath_of_sequenceOperand (member : inner ∈ node.sequenceOperands) :
    inner ∈ node.beneath := by
  rw [sequenceOperands_eq, List.mem_flatMap] at member
  obtain ⟨child, isOperand, member⟩ := member
  have isChild := mem_children_of_operand isOperand
  split at member
  · exact mem_beneath_of_child isChild (mem_nodes_of_sequenceOperand member)
  · obtain rfl := List.mem_singleton.mp member
    exact mem_beneath_of_operand isOperand

theorem sizeOf_le_of_mem_nodes (member : inner ∈ node.nodes) : sizeOf inner ≤ sizeOf node := by
  induction node using childInduction with
  | step node ih =>
    rw [nodes_eq, List.mem_cons, List.mem_flatMap] at member
    obtain rfl | ⟨child, isChild, member⟩ := member
    · exact Nat.le_refl _
    · have smaller := sizeOf_child_lt isChild
      have deeper := ih child isChild member
      omega

theorem sizeOf_lt_of_mem_beneath (member : inner ∈ node.beneath) : sizeOf inner < sizeOf node := by
  obtain ⟨child, isChild, member⟩ := List.mem_flatMap.mp member
  exact Nat.lt_of_le_of_lt (sizeOf_le_of_mem_nodes member) (sizeOf_child_lt isChild)

end Below

/-- All parts that the demands ask for are strictly below the node. -/
def Covers (node : Cst) (demands : List Demand) : Prop :=
  ∀ part, .part part ∈ demands → part ∈ node.beneath

section Covers

variable {source : Bytes} {node list : Cst} {place : Field} {first second : List Demand}

@[simp]
theorem covers_nil : node.Covers [] := by
  simp [Covers]

@[simp]
theorem covers_missing {kind : String} {what : Part} : node.Covers [.missing kind what] := by
  simp [Covers]

@[simp]
theorem covers_parts {parts : List Cst} :
    node.Covers (parts.map .part) ↔ ∀ part ∈ parts, part ∈ node.beneath := by
  simp [Covers]

@[simp]
theorem covers_append : node.Covers (first ++ second) ↔ node.Covers first ∧ node.Covers second := by
  simp only [Covers, List.mem_append, or_imp, forall_and]

@[simp]
theorem covers_flatMap {items : List Cst} {asked : Cst → List Demand} :
    node.Covers (items.flatMap asked) ↔ ∀ item ∈ items, node.Covers (asked item) := by
  simp only [Covers, List.mem_flatMap]
  grind

theorem covers_part {part : Cst} : node.Covers [.part part] ↔ part ∈ node.beneath := by
  simp [Covers]

theorem Covers.within (covers : list.Covers first) (among : list ∈ node.beneath) :
    node.Covers first :=
  fun part member => mem_beneath_trans among (covers part member)

theorem covers_having {next : Cst → List Demand}
    (rest : ∀ child ∈ node.beneath, node.Covers (next child)) :
    node.Covers (node.having place next) := by
  unfold having
  cases filled : node.field? place with
  | none => exact covers_missing
  | some child => exact rest child (mem_beneath_of_field? filled)

theorem covers_elim {asked : Cst → List Demand}
    (rest : ∀ child ∈ node.beneath, node.Covers (asked child)) (otherwise : node.Covers first) :
    node.Covers ((node.field? place).elim first asked) := by
  cases filled : node.field? place with
  | none => exact otherwise
  | some child => exact rest child (mem_beneath_of_field? filled)

@[simp]
theorem covers_must : node.Covers (node.must place) :=
  covers_having fun _ => covers_part.mpr

@[simp]
theorem covers_may : node.Covers (node.may place) := by
  simpa [may] using fun _ => mem_beneath_of_field?

@[simp]
theorem covers_mustOperand : node.Covers node.mustOperand := by
  unfold mustOperand
  cases first : node.operands.head? with
  | none => exact covers_missing
  | some child => exact covers_part.mpr (mem_beneath_of_operand (List.mem_of_mem_head? first))

@[simp]
theorem covers_mustDeclare {keyword : String} : node.Covers (node.mustDeclare keyword) := by
  unfold mustDeclare
  split <;> simp

@[simp]
theorem covers_paramDemands : node.Covers node.paramDemands := by
  unfold paramDemands
  cases filled : node.field? .parameters with
  | none => exact covers_nil
  | some list =>
    refine covers_flatMap.mpr fun param isParam => ?_
    have among := mem_beneath_trans (mem_beneath_of_field? filled) (mem_beneath_of_operand isParam)
    split
    · exact covers_must.within among
    · exact covers_part.mpr among

@[simp]
theorem covers_clauseDemands : node.Covers (node.clauseDemands place) := by
  unfold clauseDemands
  cases filled : node.field? place with
  | none => exact covers_nil
  | some clause =>
    have among := mem_beneath_of_field? filled
    dsimp only
    split
    · exact covers_nil
    · split
      · exact covers_mustOperand.within among
      · exact covers_part.mpr among

theorem covers_operands (among : list ∈ node.beneath) : node.Covers (list.operands.map .part) :=
  covers_parts.mpr fun _ isOperand => mem_beneath_trans among (mem_beneath_of_operand isOperand)

/-- All that a builder asks for is strictly below its construct. -/
theorem covers_demands : node.Covers (node.demands source) := by
  cases known : Construct.ofKind node.kind <;>
    simp only [demands, known, covers_append, covers_parts, covers_flatMap, covers_nil, covers_must,
      covers_may, covers_mustOperand, covers_mustDeclare, covers_paramDemands,
      covers_clauseDemands, and_true, true_and]
  case switchStatement => exact covers_having fun _ => covers_operands
  case switchCase =>
    -- The statements are what is left of the children without the value.
    intro part member
    exact mem_beneath_of_child (List.mem_of_mem_eraseP (List.mem_filter.mp member).1)
      part.mem_nodes_self
  case declaration =>
    exact fun part member => mem_beneath_of_operand (List.mem_filter.mp member).1
  case returnStatement =>
    intro part member
    exact mem_beneath_of_operand (List.mem_of_mem_head? (Option.mem_toList.mp member))
  case forEach => exact covers_elim (fun _ _ => covers_mustDeclare) covers_nil
  case tryStatement => exact covers_elim (fun _ => covers_must.within) covers_nil
  case arrowFunction => exact covers_elim (fun _ => covers_part.mpr) covers_paramDemands
  case pair =>
    refine covers_having fun key among => covers_append.mpr ⟨?_, covers_must⟩
    split
    · exact covers_mustOperand.within among
    · exact covers_part.mpr among
  case call =>
    refine covers_having fun list among => covers_append.mpr ⟨covers_must, ?_⟩
    unfold argumentParts
    split
    · exact covers_operands among
    · exact covers_part.mpr among
  case construction =>
    intro part member
    cases filled : node.field? .arguments with
    | none => simp [filled] at member
    | some list =>
      rw [filled] at member
      exact covers_parts.mp (covers_operands (mem_beneath_of_field? filled)) part member
  case binary => exact covers_having fun _ _ => covers_append.mpr ⟨covers_must, covers_must⟩
  case unary => exact covers_having fun _ _ => covers_must
  case update => exact covers_having fun _ _ => covers_must
  case sequence => exact fun part => mem_beneath_of_sequenceOperand
  case template =>
    intro substitution member
    exact covers_mustOperand.within (mem_beneath_of_operand (List.mem_filter.mp member).1)
  -- What is left asks for the named children.
  all_goals exact fun part => mem_beneath_of_operand

end Covers

section Visits

variable (source : Bytes)

/-- The parts that the builder of a construct lowers, in order. -/
def parts (node : Cst) : List Cst :=
  (node.demands source).filterMap Demand.part?

/-- The construct has all that it must have. -/
def Complete (node : Cst) : Prop :=
  ∀ demand ∈ node.demands source, demand.part?.isSome = true

theorem mem_beneath_of_part {source : Bytes} {node part : Cst} (member : part ∈ node.parts source) :
    part ∈ node.beneath := by
  obtain ⟨demand, asked, isPart⟩ := List.mem_filterMap.mp member
  cases demand with
  | part inner =>
    obtain rfl := Option.some.inj isPart
    exact covers_demands inner asked
  | missing kind what => cases isPart

/-- All that lowering comes to from a node on this level, in order, if nothing stops it. -/
def visits (level : Nat) (node : Cst) : List Visit :=
  ⟨level, node⟩ :: (node.parts source).attach.flatMap fun part => visits (level + 1) part.1
termination_by sizeOf node
decreasing_by exact sizeOf_lt_of_mem_beneath (mem_beneath_of_part part.2)

/-- All that lowering comes to from the root of a tree. -/
def rootVisits (root : Cst) : List Visit :=
  root.operands.flatMap (visits source 1)

variable {source} {node : Cst} {level limit : Nat}

theorem visits_eq (level : Nat) (node : Cst) :
    node.visits source level =
      ⟨level, node⟩ :: (node.parts source).flatMap (visits source (level + 1)) := by
  rw [visits, List.flatMap_subtype fun _ _ => rfl, List.unattach_attach]

theorem demands_eq_parts (complete : node.Complete source) :
    node.demands source = (node.parts source).map .part := by
  rw [parts, List.map_filterMap]
  conv_lhs => rw [← List.filterMap_some (l := node.demands source)]
  refine List.filterMap_congr fun demand asked => ?_
  cases demand with
  | part inner => rfl
  | missing kind what => cases complete _ asked

/-- Levels go down one by one, so none is left out on the way to a deeper one. -/
theorem exists_visit_of_le {visit : Visit} (member : visit ∈ node.visits source level)
    (starts : level ≤ limit) (reaches : limit ≤ visit.level) :
    ∃ passed ∈ node.visits source level, passed.level = limit := by
  induction level, node using visits.induct source with
  | case1 level node ih =>
    rw [visits_eq] at member ⊢
    obtain same | further := Nat.eq_or_lt_of_le starts
    · exact ⟨⟨level, node⟩, List.mem_cons_self, same⟩
    · obtain rfl | member := List.mem_cons.mp member
      · exact absurd reaches (Nat.not_le.mpr further)
      · obtain ⟨part, isPart, member⟩ := List.mem_flatMap.mp member
        obtain ⟨passed, isPassed, found⟩ := ih ⟨part, isPart⟩ member further
        have among := List.mem_flatMap.mpr ⟨part, isPart, isPassed⟩
        exact ⟨passed, List.mem_cons_of_mem _ among, found⟩

/-- The error that reports what is met on the level below the limit, if anything is. -/
def depthError? (source : Bytes) (limit : Nat) (visits : List Visit) : Option ParseError :=
  (visits.find? (·.level == limit + 1)).map fun visit => .tooDeep (visit.node.start source).line

theorem depthError?_flatMap (nodes : List Cst) (visits : Cst → List Visit) :
    depthError? source limit (nodes.flatMap visits) =
      nodes.findSome? fun node => depthError? source limit (visits node) := by
  rw [depthError?, List.find?_flatMap, List.map_findSome?]
  rfl

/-- Counting the levels left is as good as counting those passed. -/
theorem failure?_lower {levels : Nat}
    (complete : ∀ visit ∈ node.visits source level, visit.node.Complete source)
    (left : level + levels = limit + 1) :
    failure? (lower source levels node) = depthError? source limit (node.visits source level) := by
  induction levels generalizing node level with
  | zero =>
    obtain rfl : level = limit + 1 := left
    rw [visits_eq]
    simp [lower, failure?, depthError?]
  | succ levels ih =>
    -- The construct is within the limit and complete, so its parts alone decide.
    rw [visits_eq, List.forall_mem_cons, List.forall_mem_flatMap] at complete
    have above : (level == limit + 1) = false := by
      rw [beq_eq_false_iff_ne]
      omega
    have each : ∀ part ∈ node.parts source,
        failure? (lower source levels part) =
          depthError? source limit (part.visits source (level + 1)) :=
      fun part isPart => ih (complete.2 part isPart) (by omega)
    have asked : failure? (lower source (levels + 1) node) =
        (node.parts source).findSome? fun part => failure? (lower source levels part) := by
      rw [lower, (build_asks : Asks _ _ _), demands_eq_parts complete.1, List.findSome?_map]
      rfl
    rw [asked, findSome?_congr each, ← depthError?_flatMap, visits_eq, depthError?, depthError?,
      List.find?_cons, above]

end Visits

section Parse

variable {source : Bytes} {root : Cst}

theorem failure?_parse (faultless : ∀ node ∈ root.nodes, node.isFault = false)
    (complete : ∀ visit ∈ root.rootVisits source, visit.node.Complete source) :
    failure? (root.parse source) = depthError? source maxDepth (root.rootVisits source) := by
  have each : ∀ node ∈ root.operands, failure? (lower source maxDepth node) =
      depthError? source maxDepth (node.visits source 1) :=
    fun node isOperand => failure?_lower (List.forall_mem_flatMap.mp complete node isOperand)
      (Nat.add_comm 1 maxDepth)
  have sound : root.firstFault? = none :=
    firstFault?_eq_none fun node member => by simpa [isFault] using faultless node member
  rw [parse, sound]
  dsimp only
  rw [(program_asks : Asks _ _ _), List.findSome?_map, rootVisits, depthError?_flatMap]
  exact findSome?_congr each

theorem exists_rootVisit_of_lt {visit : Visit} {limit : Nat}
    (member : visit ∈ root.rootVisits source) (deeper : limit < visit.level) :
    ∃ passed ∈ root.rootVisits source, passed.level = limit + 1 := by
  obtain ⟨node, isOperand, member⟩ := List.mem_flatMap.mp member
  obtain ⟨passed, isPassed, found⟩ := exists_visit_of_le member (Nat.le_add_left 1 limit) deeper
  exact ⟨passed, List.mem_flatMap.mpr ⟨node, isOperand, isPassed⟩, found⟩

/-- A tree whose constructs are complete is accepted exactly if lowering meets nothing below the
deepest level, and else the first node met on the level below it is reported. -/
theorem parse_levels (faultless : ∀ node ∈ root.nodes, node.isFault = false)
    (complete : ∀ visit ∈ root.rootVisits source, visit.node.Complete source) :
    ((∃ tree, root.parse source = .ok tree) ↔
      ∀ visit ∈ root.rootVisits source, visit.level ≤ maxDepth) ∧
    ((∃ visit ∈ root.rootVisits source, maxDepth < visit.level) →
      ∃ first, (root.rootVisits source).find? (·.level == maxDepth + 1) = some first ∧
        root.parse source = .error (.tooDeep (first.node.start source).line)) := by
  have failing := failure?_parse faultless complete
  constructor
  · rw [← failure?_eq_none_iff, failing, depthError?, Option.map_eq_none_iff, List.find?_eq_none]
    constructor
    · intro none visit member
      by_contra deeper
      obtain ⟨passed, isPassed, found⟩ := exists_rootVisit_of_lt member (Nat.not_le.mp deeper)
      exact none passed isPassed (by simp [found])
    · intro within visit member found
      have shallow := within visit member
      simp only [beq_iff_eq] at found
      omega
  · rintro ⟨visit, member, deeper⟩
    obtain ⟨passed, isPassed, found⟩ := exists_rootVisit_of_lt member deeper
    cases met : (root.rootVisits source).find? (·.level == maxDepth + 1) with
    | none => exact absurd (by simp [found]) (List.find?_eq_none.mp met passed isPassed)
    | some first =>
      refine ⟨first, rfl, failure?_eq_some_iff.mp ?_⟩
      rw [failing, depthError?, met, Option.map_some]

/-- A name in this many pairs of parentheses. -/
def wrappedName (start : Nat) : (pairs : Nat) → Cst
  | 0 => ⟨{ kind := "identifier", startByte := start, endByte := start + 1 }, []⟩
  | pairs + 1 =>
    ⟨{ kind := "parenthesized_expression", startByte := start, endByte := start + 2 * pairs + 3 },
      [⟨{ kind := "(", named := false, startByte := start, endByte := start + 1 }, []⟩,
       wrappedName (start + 1) pairs,
       ⟨{ kind := ")", named := false, startByte := start + 2 * pairs + 2,
          endByte := start + 2 * pairs + 3 }, []⟩]⟩

def wrappedStatement (pairs : Nat) : Cst :=
  ⟨{ kind := "expression_statement", startByte := 0, endByte := 2 * pairs + 1 },
    [wrappedName 0 pairs]⟩

/-- A script whose only statement is such a name. -/
def wrappedScript (pairs : Nat) : Cst :=
  ⟨{ kind := "program", startByte := 0, endByte := 2 * pairs + 1 }, [wrappedStatement pairs]⟩

def wrappedText (pairs : Nat) : Bytes :=
  .ofText (String.ofList (List.replicate pairs '(' ++ 'x' :: List.replicate pairs ')'))

theorem isOperand_wrappedName (start pairs : Nat) : (wrappedName start pairs).isOperand = true := by
  cases pairs <;> rfl

theorem demands_wrappedName (start pairs : Nat) :
    (wrappedName start (pairs + 1)).demands source = [.part (wrappedName (start + 1) pairs)] := by
  have known : Construct.ofKind (wrappedName start (pairs + 1)).kind = .wrapper := rfl
  have operand : (wrappedName start (pairs + 1)).operands = [wrappedName (start + 1) pairs] := by
    rw [operands, wrappedName]
    simp only [List.filter_cons, isOperand_wrappedName]
    rfl
  simp only [demands, known, mustOperand, operand, List.head?_cons]

theorem demands_wrappedStatement (pairs : Nat) :
    (wrappedStatement pairs).demands source = [.part (wrappedName 0 pairs)] := by
  have known : Construct.ofKind (wrappedStatement pairs).kind = .expressionStatement := rfl
  have operand : (wrappedStatement pairs).operands = [wrappedName 0 pairs] := by
    rw [operands, wrappedStatement]
    simp only [List.filter_cons, isOperand_wrappedName, List.filter_nil, if_true]
  simp only [demands, known, mustOperand, operand, List.head?_cons]

theorem levels_wrappedName (level start pairs : Nat) :
    ((wrappedName start pairs).visits source level).map Visit.level =
      List.range' level (pairs + 1) := by
  induction pairs generalizing level start with
  | zero =>
    rw [visits_eq]
    rfl
  | succ pairs ih =>
    rw [visits_eq, parts, demands_wrappedName, List.range'_succ, ← ih (level + 1) (start + 1)]
    simp [Demand.part?]

theorem levels_wrappedScript (pairs : Nat) :
    ((wrappedScript pairs).rootVisits source).map Visit.level = List.range' 1 (pairs + 2) := by
  have single : (wrappedScript pairs).operands = [wrappedStatement pairs] := rfl
  rw [rootVisits, single, List.flatMap_singleton, visits_eq, parts, demands_wrappedStatement,
    List.range'_succ]
  simpa [Demand.part?] using levels_wrappedName 2 0 pairs

theorem faultless_wrappedName (start pairs : Nat) :
    ∀ node ∈ (wrappedName start pairs).nodes, node.isFault = false := by
  induction pairs generalizing start with
  | zero => exact forall_mem_nodes_iff.mpr ⟨rfl, List.forall_mem_nil _⟩
  | succ pairs ih =>
    have token : ∀ label : Label, label.isError = false → label.isMissing = false →
        ∀ node ∈ nodes ⟨label, []⟩, node.isFault = false :=
      fun label _ _ => forall_mem_nodes_iff.mpr ⟨by simp [isFault, *], List.forall_mem_nil _⟩
    refine forall_mem_nodes_iff.mpr ⟨rfl, ?_⟩
    simp only [wrappedName, List.forall_mem_cons]
    exact ⟨token _ rfl rfl, ih (start + 1), token _ rfl rfl, List.forall_mem_nil _⟩

theorem faultless_wrappedScript (pairs : Nat) :
    ∀ node ∈ (wrappedScript pairs).nodes, node.isFault = false := by
  refine forall_mem_nodes_iff.mpr ⟨rfl, List.forall_mem_singleton.mpr ?_⟩
  exact forall_mem_nodes_iff.mpr
    ⟨rfl, List.forall_mem_singleton.mpr (faultless_wrappedName 0 pairs)⟩

theorem complete_wrappedName (level start pairs : Nat) :
    ∀ visit ∈ (wrappedName start pairs).visits source level, visit.node.Complete source := by
  induction pairs generalizing level start with
  | zero =>
    have known : Construct.ofKind (wrappedName start 0).kind = .identifier := rfl
    rw [visits_eq]
    simp [Complete, demands, known, parts]
  | succ pairs ih =>
    rw [visits_eq]
    simpa [Complete, parts, demands_wrappedName, Demand.part?] using ih (level + 1) (start + 1)

theorem complete_wrappedScript (pairs : Nat) :
    ∀ visit ∈ (wrappedScript pairs).rootVisits source, visit.node.Complete source := by
  have single : (wrappedScript pairs).operands = [wrappedStatement pairs] := rfl
  rw [rootVisits, single, List.flatMap_singleton, visits_eq]
  simpa [Complete, parts, demands_wrappedStatement, Demand.part?] using
    complete_wrappedName 2 0 pairs

/-- Of two scripts that differ by one pair of parentheses, one just fits and the other does not. -/
theorem parse_levels_wrappedScript :
    (∃ tree, (wrappedScript 254).parse (wrappedText 254) = .ok tree) ∧
    ∃ first, ((wrappedScript 255).rootVisits (wrappedText 255)).find? (·.level == maxDepth + 1) =
        some first ∧
      (wrappedScript 255).parse (wrappedText 255) =
        .error (.tooDeep (first.node.start (wrappedText 255)).line) := by
  refine ⟨(parse_levels (faultless_wrappedScript 254) (complete_wrappedScript 254)).1.mpr ?_,
    (parse_levels (faultless_wrappedScript 255) (complete_wrappedScript 255)).2 ?_⟩
  · intro visit member
    have level := List.mem_map_of_mem (f := Visit.level) member
    rw [levels_wrappedScript, List.mem_range'_1] at level
    unfold maxDepth
    omega
  · have level : 257 ∈ ((wrappedScript 255).rootVisits (wrappedText 255)).map Visit.level := by
      simp [levels_wrappedScript]
    obtain ⟨visit, member, deep⟩ := List.mem_map.mp level
    exact ⟨visit, member, deep ▸ by decide⟩

end Parse

end Cst

end ScriptLint
