import ScriptLint.Proofs.Engine.Visits
import ScriptLint.Proofs.Grammar.Comments
import ScriptLint.Proofs.Grammar.Induction
import ScriptLint.Proofs.Text.Boundaries
import ScriptLint.Rules.Rule

/-!
# How high accepted trees are

Lowering counts the constructs it goes down through, not the levels of the tree that it makes. A
loop head that declares its variable gives two levels for which nothing is counted, and the name of
a shorthand property and the text pieces of a template give one more at the very bottom. So a tree
made with some levels is less than three times as high, and loops that stand in each other's heads
reach that bound.
-/

namespace ScriptLint

namespace Node

/-- The number of nodes on the longest way down over all fields. -/
def height (node : Node) : Nat :=
  (node.fields.attach.map fun field => field.1.height).max?.getD 0 + 1
termination_by sizeOf node
decreasing_by exact sizeOf_lt_of_mem_fields field.2

/-- A way over fields from a node down to a leaf. -/
inductive Branch : Node → List Node → Prop where
  | leaf {node : Node} (bare : node.fields = []) : Branch node [node]
  | step {node field : Node} {path : List Node} (member : field ∈ node.fields)
    (rest : Branch field path) : Branch node (node :: path)

/-- For which nodes a recursion over trees may call itself while it is at a node: a walk for the
successors, the walk of the loop rule for the body of a loop, the listing of a body for the shown
children, and the text of a node for any direct sub-node. -/
inductive Calls (node : Node) : Node → Prop where
  | walk {next : Node} (member : next ∈ node.successors) : Calls node next
  | loop {next : Node} (isBody : node.loopBody? = some next) : Calls node next
  | scan {next : Node} (member : next ∈ node.children) : Calls node next
  | print {next : Node} (member : next ∈ node.fields) : Calls node next

section Height

variable {node field next inner : Node} {bound : Nat}

theorem height_eq (node : Node) : node.height = (node.fields.map height).max?.getD 0 + 1 := by
  rw [height]
  simp

theorem height_pos (node : Node) : 0 < node.height := by
  rw [height_eq]
  exact Nat.succ_pos _

theorem height_le_iff (positive : 0 < bound) :
    node.height ≤ bound ↔ ∀ field ∈ node.fields, field.height < bound := by
  rw [height_eq, Nat.succ_le_iff]
  cases largest : (node.fields.map height).max? with
  | none =>
    have bare : node.fields = [] := by simpa using largest
    simp [bare, positive]
  | some height =>
    have below := List.max?_le_iff largest (x := bound - 1)
    simpa [Nat.le_sub_one_iff_lt positive] using below

theorem height_lt_of_mem_fields (member : field ∈ node.fields) : field.height < node.height :=
  (height_le_iff node.height_pos).mp (Nat.le_refl _) field member

/-- The height is that of some branch. -/
theorem exists_branch (node : Node) : ∃ path, node.Branch path ∧ path.length = node.height := by
  induction node using fieldInduction with
  | step node ih =>
    rw [height_eq]
    cases largest : (node.fields.map height).max? with
    | none =>
      have bare : node.fields = [] := by simpa using largest
      exact ⟨[node], .leaf bare, rfl⟩
    | some height =>
      obtain ⟨field, member, rfl⟩ := List.mem_map.mp (List.max?_mem largest)
      obtain ⟨path, branch, length⟩ := ih field member
      exact ⟨node :: path, .step member branch, by simp [length]⟩

theorem Branch.length_le {path : List Node} (branch : node.Branch path) :
    path.length ≤ node.height := by
  induction branch with
  | leaf bare => simp [height_eq, bare]
  | step member rest ih => exact Nat.lt_of_le_of_lt ih (height_lt_of_mem_fields member)

theorem height_le_of_mem_nodes (member : inner ∈ node.nodes) : inner.height ≤ node.height := by
  induction node using fieldInduction with
  | step node ih =>
    rw [nodes_eq, List.mem_cons, List.mem_flatMap] at member
    obtain rfl | ⟨field, isField, member⟩ := member
    · exact Nat.le_refl _
    · exact Nat.le_trans (ih field isField member) (Nat.le_of_lt (height_lt_of_mem_fields isField))

theorem mem_fields_of_loopBody? (isBody : node.loopBody? = some next) : next ∈ node.fields := by
  unfold loopBody? at isBody
  split at isBody <;> simp_all [fields, Form.fields]

theorem Edge.height_lt (edge : node.Edge next) : next.height < node.height := by
  cases edge with
  | field plain member => exact height_lt_of_mem_fields member
  | value isProperty => exact height_lt_of_mem_fields (by simp [fields, isProperty, Form.fields])
  | object isMember => exact height_lt_of_mem_fields (by simp [fields, isMember, Form.fields])
  | expression isTemplate member =>
    exact height_lt_of_mem_fields (by simp [fields, isTemplate, Form.fields, member])
  | statement isBody isBlock member =>
    -- The walk leaves the block out, so it goes down two levels at once.
    rw [← fields_of_blockBody? isBlock] at member
    exact Nat.lt_trans (height_lt_of_mem_fields member)
      (height_lt_of_mem_fields (mem_fields_of_functionBody? isBody))
  | bareBody isBody bare => exact height_lt_of_mem_fields (mem_fields_of_functionBody? isBody)

theorem Calls.height_lt (calls : node.Calls next) : next.height < node.height := by
  cases calls with
  | walk member => exact (edge_iff_mem_successors.mpr member).height_lt
  | loop isBody => exact height_lt_of_mem_fields (mem_fields_of_loopBody? isBody)
  | scan member => exact height_lt_of_mem_fields (Form.mem_fields_of_mem_children member)
  | print member => exact height_lt_of_mem_fields member

theorem length_le_of_isChain_calls {calls : List Node} (chain : (node :: calls).IsChain Calls) :
    (node :: calls).length ≤ node.height := by
  induction calls generalizing node with
  | nil => simp [height_eq]
  | cons next calls ih =>
    obtain ⟨first, rest⟩ := List.isChain_cons_cons.mp chain
    exact Nat.lt_of_le_of_lt (ih rest) first.height_lt

end Height

end Node

namespace Lowering

section Bound

variable {source : Bytes} {lowered : Cst → Node} {bound : Nat}

theorem height_declared (keyword : VarKind) (target : Node) :
    (declared keyword target).height = target.height + 2 := by
  simp [declared, Node.height_eq ⟨_, .variableDeclaration _ _⟩,
    Node.height_eq ⟨_, .variableDeclarator _ _⟩, Node.fields, Form.fields]

/-- A declared loop variable is two levels higher than what is lowered for it. -/
theorem Origin.height_node_lt {origin : Origin}
    (parts : origin.All fun part => (lowered part).height < bound) :
    (origin.node source lowered).height < bound + 2 := by
  cases origin with
  | part inner => exact Nat.lt_add_right 2 (Origin.all_part.mp parts)
  | target keyword inner =>
    rw [Origin.node, height_declared]
    exact Nat.add_lt_add_right (Origin.all_target.mp parts) 2
  | name inner => simp [Origin.node, Node.height_eq, Node.fields, Form.fields]
  | piece range => simp [Origin.node, quasi, Node.height_eq, Node.fields, Form.fields]

/-- What is lowered with some levels is less than three times as high: one level of constructs gives
the node of the construct and at most two more around each part. -/
theorem height_lt_of_lower {levels : Nat} {node : Cst} {tree : Node}
    (lowered : lower source levels node = .ok tree) : tree.height < 3 * levels := by
  induction levels generalizing node tree with
  | zero => cases lowered
  | succ levels ih =>
    rw [lower] at lowered
    obtain ⟨-, inner, -, lowered⟩ | ⟨-, plan, -, accepted, formed⟩ := build_cases lowered
    · exact Nat.lt_add_right 3 (ih lowered)
    · refine Nat.lt_succ_of_le ((Node.height_le_iff (Nat.succ_pos _)).mpr ?_)
      rw [Node.fields, formed, Form.fields_map, List.forall_mem_map]
      intro origin isOrigin
      exact Origin.height_node_lt fun part isPart => ih (accepted origin isOrigin part isPart)

theorem height_le_of_parse {root : Cst} {tree : Node} (parsed : root.parse source = .ok tree) :
    tree.height ≤ 3 * maxDepth := by
  obtain ⟨accepted, rfl⟩ := parse_cases parsed
  rw [Node.height_le_iff (by decide), Node.fields, Form.fields_map, List.forall_mem_map]
  intro origin isOrigin
  obtain ⟨part, isOperand, rfl⟩ := List.mem_map.mp isOrigin
  exact height_lt_of_lower (accepted part isOperand)

end Bound

end Lowering

namespace Cst

open Lowering

/-! ## Loops in heads -/

/-- Loops in each other's heads: each loop declares the next one, and the innermost a plain name. -/
def headText : (loops : Nat) → String
  | 0 => "x"
  | loops + 1 => "for(let " ++ headText loops ++ " in y)z"

def token (place : Option Field) (text : String) (start : Nat) : Cst :=
  ⟨{ kind := text, named := false, field := place, startByte := start,
     endByte := start + text.length }, []⟩

def letterName (place : Field) (start : Nat) : Cst :=
  ⟨{ kind := "identifier", field := place, startByte := start, endByte := start + 1 }, []⟩

/-- The tree of such loops. The name in the middle is a shorthand property, which has a name below
it again. -/
def nestedHeads (place : Option Field) (start : Nat) : (loops : Nat) → Cst
  | 0 =>
    ⟨{ kind := "shorthand_property_identifier", field := place, startByte := start,
       endByte := start + 1 }, []⟩
  | loops + 1 =>
    let behind := start + 15 * loops + 9
    ⟨{ kind := "for_in_statement", field := place, startByte := start, endByte := behind + 7 },
      [token none "for" start, token none "(" (start + 3), token (some .kind) "let" (start + 4),
       nestedHeads (some .left) (start + 8) loops, token (some .operator) "in" (behind + 1),
       letterName .right (behind + 4), token none ")" (behind + 5), letterName .body (behind + 6)]⟩

def headScript (loops : Nat) : Cst :=
  ⟨{ kind := "program", startByte := 0, endByte := 15 * loops + 1 }, [nestedHeads none 0 loops]⟩

theorem field_nestedHeads (place : Option Field) (start loops : Nat) :
    (nestedHeads place start loops).label.field = place := by
  cases loops <;> rfl

theorem isOperand_nestedHeads (place : Option Field) (start loops : Nat) :
    (nestedHeads place start loops).isOperand = true := by
  cases loops <;> rfl

theorem fields_nestedHeads (place : Option Field) (start loops : Nat) :
    (nestedHeads place start (loops + 1)).field? .kind =
      some (token (some .kind) "let" (start + 4)) ∧
    (nestedHeads place start (loops + 1)).field? .left =
      some (nestedHeads (some .left) (start + 8) loops) ∧
    (nestedHeads place start (loops + 1)).field? .right =
      some (letterName .right (start + 15 * loops + 13)) ∧
    (nestedHeads place start (loops + 1)).field? .body =
      some (letterName .body (start + 15 * loops + 15)) := by
  simp [field?, nestedHeads, token, letterName, field_nestedHeads]

theorem faultless_nestedHeads (place : Option Field) (start loops : Nat) :
    ∀ node ∈ (nestedHeads place start loops).nodes,
      node.label.isError = false ∧ node.label.isMissing = false := by
  induction loops generalizing place start with
  | zero => exact forall_mem_nodes_iff.mpr ⟨⟨rfl, rfl⟩, List.forall_mem_nil _⟩
  | succ loops ih =>
    have leaf : ∀ label : Label, label.isError = false ∧ label.isMissing = false →
        ∀ node ∈ nodes ⟨label, []⟩, node.label.isError = false ∧ node.label.isMissing = false :=
      fun label sound => forall_mem_nodes_iff.mpr ⟨sound, List.forall_mem_nil _⟩
    refine forall_mem_nodes_iff.mpr ⟨⟨rfl, rfl⟩, ?_⟩
    simp only [nestedHeads, token, letterName, List.forall_mem_cons]
    exact ⟨leaf _ ⟨rfl, rfl⟩, leaf _ ⟨rfl, rfl⟩, leaf _ ⟨rfl, rfl⟩, ih _ _, leaf _ ⟨rfl, rfl⟩,
      leaf _ ⟨rfl, rfl⟩, leaf _ ⟨rfl, rfl⟩, leaf _ ⟨rfl, rfl⟩, List.forall_mem_nil _⟩

/-- A loop whose head declares its variable puts a declaration around it. -/
theorem build_declaringHead {source : Bytes} {lower : Cst → Except ParseError Node}
    {node keyword left right body : Cst} {kind : VarKind} {target iterated inside : Node}
    (known : Construct.ofKind node.kind = .forEach) (hasKeyword : node.field? .kind = some keyword)
    (isKeyword : keyword.text source = kind.keyword)
    (hasLeft : node.field? .left = some left) (lowersLeft : lower left = .ok target)
    (hasRight : node.field? .right = some right) (lowersRight : lower right = .ok iterated)
    (hasBody : node.field? .body = some body) (lowersBody : lower body = .ok inside) :
    ∃ tree, build source lower node = .ok tree ∧ declared kind target ∈ tree.fields := by
  have field : ∀ {place : Field} {part : Cst} {tree : Node}, node.field? place = some part →
      lower part = .ok tree → lowerField lower node place = .ok tree := by
    intro place part tree filled lowers
    rw [lowerField, require, filled]
    exact lowers
  obtain ⟨form, formed, member⟩ : ∃ form, forEach source lower node = .ok form ∧
      declared kind target ∈ form.fields := by
    refine ⟨if overValues source node then .forOfStatement (declared kind target) iterated inside
      else .forInStatement (declared kind target) iterated inside, ?_, ?_⟩
    · simp only [forEach, field hasLeft lowersLeft, field hasRight lowersRight,
        field hasBody lowersBody, hasKeyword, varKind, isKeyword, VarKind.ofKeyword?_keyword]
      rfl
    · split <;> simp [Form.fields]
  refine ⟨⟨node.span source, form⟩, ?_, member⟩
  simp only [build, known, formed]
  rfl

theorem text_headKeyword (before after : String) (loops : Nat) :
    (token (some .kind) "let" ((Bytes.ofText before).length + 4)).text
      (.ofText (before ++ headText (loops + 1) ++ after)) = VarKind.letVar.keyword := by
  have keyword : "for(let " = "for(" ++ "let" ++ " " := rfl
  have start : (Bytes.ofText (before ++ "for(")).length = (Bytes.ofText before).length + 4 := by
    rw [Bytes.ofText_append, List.length_append]
    rfl
  have cut := Bytes.textBetween_middle (before ++ "for(") "let"
    (" " ++ headText loops ++ " in y)z" ++ after)
  simp only [start, String.append_assoc] at cut
  simp only [headText, keyword, String.append_assoc]
  exact cut

/-- Each loop takes one level and is three levels higher than the next. -/
theorem lower_nestedHeads (place : Option Field) (before after : String) (loops : Nat) :
    ∃ tree, lower (.ofText (before ++ headText loops ++ after)) (loops + 1)
        (nestedHeads place (Bytes.ofText before).length loops) = .ok tree ∧
      3 * loops + 2 ≤ tree.height := by
  induction loops generalizing place before after with
  | zero =>
    refine ⟨_, rfl, ?_⟩
    simp [Node.height_eq, Node.fields, Form.fields]
  | succ loops ih =>
    -- The inner loop is read in the same source, behind the start of its head.
    have sameText : before ++ headText (loops + 1) ++ after =
        before ++ "for(let " ++ headText loops ++ (" in y)z" ++ after) := by
      simp [headText, String.append_assoc]
    have start :
        (Bytes.ofText (before ++ "for(let ")).length = (Bytes.ofText before).length + 8 := by
      rw [Bytes.ofText_append, List.length_append]
      rfl
    obtain ⟨inner, lowered, high⟩ := ih (some .left) (before ++ "for(let ") (" in y)z" ++ after)
    rw [← sameText, start] at lowered
    have known : Construct.ofKind
        (nestedHeads place (Bytes.ofText before).length (loops + 1)).kind = .forEach := rfl
    obtain ⟨hasKeyword, hasLeft, hasRight, hasBody⟩ :=
      fields_nestedHeads place (Bytes.ofText before).length loops
    obtain ⟨tree, built, member⟩ := build_declaringHead known hasKeyword
      (text_headKeyword before after loops) hasLeft lowered hasRight rfl hasBody rfl
    refine ⟨tree, built, ?_⟩
    have deeper := Node.height_lt_of_mem_fields member
    rw [height_declared] at deeper
    omega

theorem parse_single {source : Bytes} {root part : Cst} {tree : Node}
    (sound : root.firstFault? = none) (single : root.operands = [part])
    (lowered : lower source maxDepth part = .ok tree) :
    ∃ whole, root.parse source = .ok whole ∧ tree ∈ whole.fields := by
  refine ⟨⟨root.span source, .program [tree] (root.comments source)⟩, ?_, List.mem_singleton_self _⟩
  rw [parse, sound]
  simp only [program, single, mapM_singleton, lowered]
  rfl

/-- A script of such loops that needs all levels is accepted and as high as a tree can be. -/
theorem parse_headScript {loops : Nat} (levels : loops + 1 = maxDepth) :
    ∃ tree, (headScript loops).parse (.ofText (headText loops)) = .ok tree ∧
      3 * maxDepth ≤ tree.height := by
  obtain ⟨inner, lowered, high⟩ := lower_nestedHeads none "" "" loops
  rw [String.empty_append, String.append_empty, levels] at lowered
  have sound : (headScript loops).firstFault? = none := by
    refine firstFault?_eq_none (forall_mem_nodes_iff.mpr ⟨⟨rfl, rfl⟩, ?_⟩)
    exact List.forall_mem_singleton.mpr (faultless_nestedHeads none 0 loops)
  have single : (headScript loops).operands = [nestedHeads none 0 loops] := by
    simp [operands, headScript, isOperand_nestedHeads]
  obtain ⟨tree, parsed, member⟩ := parse_single sound single lowered
  refine ⟨tree, parsed, ?_⟩
  have deeper := Node.height_lt_of_mem_fields member
  omega

/-- Accepted trees are of bounded height. No branch of one has more than three times as many nodes
as lowering may go down levels, and no recursion over one is nested more often, wherever in the tree
it starts. There is a source with a tree that has a branch of just that length. -/
theorem parse_height :
    (∀ source root tree, parse source root = .ok tree →
      (∀ path, tree.Branch path → path.length ≤ 3 * maxDepth) ∧
      ∀ start ∈ tree.nodes, ∀ calls, (start :: calls).IsChain Node.Calls →
        (start :: calls).length ≤ 3 * maxDepth) ∧
    ∃ source root tree path, parse source root = .ok tree ∧ tree.Branch path ∧
      path.length = 3 * maxDepth := by
  constructor
  · intro source root tree parsed
    have bounded := height_le_of_parse parsed
    refine ⟨fun path branch => branch.length_le.trans bounded, fun start member calls chain => ?_⟩
    calc (start :: calls).length
      _ ≤ start.height := Node.length_le_of_isChain_calls chain
      _ ≤ tree.height := Node.height_le_of_mem_nodes member
      _ ≤ 3 * maxDepth := bounded
  · obtain ⟨tree, parsed, high⟩ := parse_headScript (show 255 + 1 = maxDepth from rfl)
    obtain ⟨path, branch, length⟩ := tree.exists_branch
    have exactly := Nat.le_antisymm (height_le_of_parse parsed) high
    exact ⟨_, _, tree, path, parsed, branch, length.trans exactly⟩

end Cst

end ScriptLint
