import Mathlib.Data.List.Basic
import ScriptLint.Grammar.Lowering
import ScriptLint.Proofs.Grammar.Search

/-!
# Concrete trees without their comments

Taking every comment out of a concrete tree, what that leaves of the parts that lowering asks for,
and which comments of a tree are collected.
-/

namespace ScriptLint

namespace Cst

mutual

/-- The tree with every comment below its root removed. -/
def withoutComments : Cst → Cst
  | ⟨label, children⟩ => ⟨label, withoutCommentsAmong children⟩

def withoutCommentsAmong : List Cst → List Cst
  | [] => []
  | node :: rest =>
    if node.isComment then withoutCommentsAmong rest
    else node.withoutComments :: withoutCommentsAmong rest

end

/-- Comments that fill no field and hide no fault, and that do not stand where a declaration has
its keyword. -/
structure PlainComments (root : Cst) : Prop where
  unplaced : ∀ node ∈ root.nodes, node.isComment = true → node.label.field = none
  faultless : ∀ node ∈ root.nodes, node.isComment = true → ∀ inner ∈ node.nodes,
    inner.label.isError = false ∧ inner.label.isMissing = false
  keyword : ∀ node ∈ root.nodes,
    node.kind = "variable_declaration" ∨ node.kind = "lexical_declaration" →
      node.field? .kind = none → node.children.head?.any isComment = false

theorem PlainComments.child {node child : Cst} (plain : node.PlainComments)
    (isChild : child ∈ node.children) : child.PlainComments where
  unplaced inner member := plain.unplaced inner (mem_nodes_of_child isChild member)
  faultless inner member := plain.faultless inner (mem_nodes_of_child isChild member)
  keyword inner member := plain.keyword inner (mem_nodes_of_child isChild member)

theorem PlainComments.operand {node child : Cst} (plain : node.PlainComments)
    (member : child ∈ node.operands) : child.PlainComments :=
  plain.child (List.mem_filter.mp member).1

theorem PlainComments.field {node child : Cst} (plain : node.PlainComments) {field : Field}
    (filled : node.field? field = some child) : child.PlainComments :=
  plain.child (List.mem_of_find?_eq_some filled)

theorem PlainComments.sequenceOperand {node part : Cst} (plain : node.PlainComments)
    (member : part ∈ node.sequenceOperands) : part.PlainComments := by
  induction node using childInduction with
  | step node ih =>
    rw [sequenceOperands_eq, List.mem_flatMap] at member
    obtain ⟨child, operand, member⟩ := member
    split at member
    · exact ih child (List.mem_filter.mp operand).1 (plain.operand operand) member
    · rw [List.mem_singleton] at member
      exact member ▸ plain.operand operand

section Parts

variable {node : Cst}

@[simp]
theorem label_withoutComments (node : Cst) : node.withoutComments.label = node.label := by
  obtain ⟨label, children⟩ := node
  rfl

theorem children_withoutComments (node : Cst) :
    node.withoutComments.children =
      (node.children.filter fun child => !child.isComment).map withoutComments := by
  obtain ⟨label, children⟩ := node
  rw [withoutComments]
  dsimp only
  induction children with
  | nil => rfl
  | cons child rest ih =>
    rw [withoutCommentsAmong, ih]
    by_cases comment : child.isComment <;> simp [comment]

@[simp]
theorem kind_withoutComments (node : Cst) : node.withoutComments.kind = node.kind := by
  simp [kind]

@[simp]
theorem startByte_withoutComments (node : Cst) :
    node.withoutComments.startByte = node.startByte := by
  simp [startByte]

@[simp]
theorem endByte_withoutComments (node : Cst) : node.withoutComments.endByte = node.endByte := by
  simp [endByte]

@[simp]
theorem text_withoutComments (source : Bytes) (node : Cst) :
    node.withoutComments.text source = node.text source := by
  simp [text]

@[simp]
theorem span_withoutComments (source : Bytes) (node : Cst) :
    node.withoutComments.span source = node.span source := by
  simp [span]

@[simp]
theorem start_withoutComments (source : Bytes) (node : Cst) :
    node.withoutComments.start source = node.start source := by
  simp [start]

@[simp]
theorem isComment_withoutComments (node : Cst) :
    node.withoutComments.isComment = node.isComment := by
  simp [isComment]

@[simp]
theorem isOperand_withoutComments (node : Cst) :
    node.withoutComments.isOperand = node.isOperand := by
  simp [isOperand]

/-- The children that pass a test are the same, if the test is not about what is below a child and
no comment passes it. -/
theorem filter_children_withoutComments {test : Cst → Bool}
    (sameTest : ∀ child, test child.withoutComments = test child)
    (noComment : ∀ child ∈ node.children, child.isComment = true → test child = false) :
    node.withoutComments.children.filter test =
      (node.children.filter test).map withoutComments := by
  have tested : test ∘ withoutComments = test := funext sameTest
  rw [children_withoutComments, List.filter_map, tested, List.filter_filter]
  congr 1
  refine List.filter_congr fun child isChild => ?_
  cases comment : child.isComment with
  | true => simp [noComment child isChild comment]
  | false => simp

theorem operands_withoutComments (node : Cst) :
    node.withoutComments.operands = node.operands.map withoutComments :=
  filter_children_withoutComments isOperand_withoutComments fun child _ comment => by
    simp [isOperand, comment]

theorem operandsOfKind_withoutComments (node : Cst) (kind : String) :
    node.withoutComments.operands.filter (·.kind == kind) =
      (node.operands.filter (·.kind == kind)).map withoutComments := by
  rw [operands_withoutComments, List.filter_map]
  simp only [Function.comp_def, kind_withoutComments]

theorem field_ne_of_isComment (plain : node.PlainComments) (field : Field) {child : Cst}
    (isChild : child ∈ node.children) (comment : child.isComment = true) :
    (child.label.field == some field) = false := by
  simp [(plain.child isChild).unplaced child child.mem_nodes_self comment]

theorem find?_children_withoutComments {test : Cst → Bool}
    (sameTest : ∀ child, test child.withoutComments = test child)
    (noComment : ∀ child ∈ node.children, child.isComment = true → test child = false) :
    node.withoutComments.children.find? test = (node.children.find? test).map withoutComments := by
  rw [← List.head?_filter, ← List.head?_filter, ← List.head?_map,
    filter_children_withoutComments sameTest noComment]

theorem field?_withoutComments (plain : node.PlainComments) (field : Field) :
    node.withoutComments.field? field = (node.field? field).map withoutComments :=
  find?_children_withoutComments (fun child => by simp)
    fun _ => field_ne_of_isComment plain field

theorem hasChild_withoutComments (node : Cst) {kind : String} (other : kind ≠ "comment") :
    node.withoutComments.hasChild kind = node.hasChild kind := by
  have unlike : ∀ child ∈ node.children, child.isComment = true → (child.kind == kind) = false := by
    intro child _ comment
    have isKind : child.kind = "comment" := by simpa [isComment] using comment
    simp [isKind, Ne.symm other]
  rw [hasChild, hasChild, ← List.isSome_find?, ← List.isSome_find?,
    find?_children_withoutComments (fun child => by simp) unlike, Option.isSome_map]

private theorem eraseP_congr {α : Type} {p q : α → Bool} {items : List α}
    (same : ∀ item ∈ items, p item = q item) : items.eraseP p = items.eraseP q := by
  induction items with
  | nil => rfl
  | cons item rest ih =>
    rw [List.eraseP_cons, List.eraseP_cons, same item (by simp),
      ih fun other member => same other (by simp [member])]

/-- Taking out the child of a field leaves the same operands. -/
theorem filter_eraseP_withoutComments (plain : node.PlainComments) (field : Field) :
    (node.withoutComments.children.eraseP (·.label.field == some field)).filter isOperand =
      ((node.children.eraseP (·.label.field == some field)).filter isOperand).map
        withoutComments := by
  have erased : (node.children.eraseP fun child =>
      child.withoutComments.label.field == some field && !child.isComment) =
        node.children.eraseP (·.label.field == some field) := by
    refine eraseP_congr fun child isChild => ?_
    cases comment : child.isComment with
    | true => simp [field_ne_of_isComment plain field isChild comment]
    | false => simp
  rw [children_withoutComments, List.eraseP_map, List.eraseP_filter]
  simp only [Function.comp_apply, erased, List.filter_map, List.filter_filter]
  congr 1
  refine List.filter_congr fun child _ => ?_
  cases comment : child.isComment <;> simp [isOperand, comment]

theorem sequenceOperands_withoutComments (node : Cst) :
    node.withoutComments.sequenceOperands = node.sequenceOperands.map withoutComments := by
  induction node using childInduction with
  | step node ih =>
    rw [sequenceOperands_eq, sequenceOperands_eq, operands_withoutComments, List.flatMap_map,
      List.map_flatMap]
    refine List.flatMap_congr fun child operand => ?_
    have isChild : child ∈ node.children := (List.mem_filter.mp operand).1
    rw [kind_withoutComments, ih child isChild]
    split <;> rfl

theorem comments_withoutComments (source : Bytes) (node : Cst) :
    node.withoutComments.comments source = [] := by
  induction node using childInduction with
  | step node ih =>
    rw [comments_eq, children_withoutComments, List.flatMap_eq_nil_iff]
    intro part member
    obtain ⟨child, kept, rfl⟩ := List.mem_map.mp member
    obtain ⟨isChild, noComment⟩ := List.mem_filter.mp kept
    rw [isComment_withoutComments, if_neg (by simpa using noComment)]
    exact ih child isChild

theorem head?_children_withoutComments (noComment : node.children.head?.any isComment = false) :
    node.withoutComments.children.head? = node.children.head?.map withoutComments := by
  rw [children_withoutComments]
  cases known : node.children with
  | nil => rfl
  | cons first rest =>
    have plain : first.isComment = false := by simpa [known] using noComment
    simp [plain]

/-- No node of a comment is a fault, so none is found there. -/
theorem firstFault?_eq_none (faultless : ∀ inner ∈ node.nodes,
    inner.label.isError = false ∧ inner.label.isMissing = false) : node.firstFault? = none := by
  induction node using childInduction with
  | step node ih =>
    have below : ∀ child ∈ node.children, child.firstFault? = none := fun child isChild =>
      ih child isChild fun inner member => faultless inner (mem_nodes_of_child isChild member)
    have self := faultless node node.mem_nodes_self
    rw [firstFault?_eq]
    simpa [self, List.findSome?_eq_none_iff] using fun _ => below

theorem firstFault?_withoutComments (plain : node.PlainComments) :
    node.withoutComments.firstFault? = node.firstFault?.map withoutComments := by
  induction node using childInduction with
  | step node ih =>
    have hidden : ∀ child ∈ node.children, child.isComment = true → child.firstFault? = none :=
      fun child isChild comment => firstFault?_eq_none
        ((plain.child isChild).faultless child child.mem_nodes_self comment)
    have each : ∀ child ∈ node.children,
        child.withoutComments.firstFault? = child.firstFault?.map withoutComments :=
      fun child isChild => ih child isChild (plain.child isChild)
    have below : node.withoutComments.children.findSome? firstFault? =
        (node.children.findSome? firstFault?).map withoutComments := by
      rw [children_withoutComments]
      generalize node.children = children at hidden each
      induction children with
      | nil => rfl
      | cons child rest ih =>
        have later := ih (fun other member => hidden other (by simp [member]))
          fun other member => each other (by simp [member])
        cases comment : child.isComment with
        | true => simpa [comment, hidden child (by simp) comment] using later
        | false =>
          rw [List.filter_cons_of_pos (by simp [comment]), List.map_cons, List.findSome?_cons,
            List.findSome?_cons, later, each child (by simp)]
          cases child.firstFault? <;> rfl
    rw [firstFault?_eq, firstFault?_eq, label_withoutComments, below]
    repeat' split
    all_goals rfl

end Parts

/-- The comments below a node that are not inside another one, in document order. -/
def outermostComments (node : Cst) : List Cst :=
  (node.descents.filter fun descent =>
    descent.2.isComment && descent.1.all (!·.isComment)).map Prod.snd

/-- A comment as the root of a tree lists it. -/
def commentRecord (source : Bytes) (node : Cst) : Comment :=
  { text := node.text source
    block := decide (['/', '*'] <+: (node.text source).toList)
    span := node.span source }

theorem outermostComments_eq (node : Cst) :
    node.outermostComments = node.children.flatMap fun child =>
      if child.isComment then [child] else child.outermostComments := by
  rw [outermostComments, descents_eq, List.filter_flatMap, List.map_flatMap]
  refine List.flatMap_congr fun child _ => ?_
  cases comment : child.isComment with
  | true => simp [comment, List.filter_map, Function.comp_def]
  | false => simp [comment, outermostComments, List.filter_map, Function.comp_def]

theorem comments_eq_outermostComments (source : Bytes) (node : Cst) :
    node.comments source = node.outermostComments.map (commentRecord source) := by
  induction node using childInduction with
  | step node ih =>
    rw [comments_eq, outermostComments_eq, List.map_flatMap]
    refine List.flatMap_congr fun child isChild => ?_
    split
    · simp [commentRecord, ← List.isPrefixOf_iff_prefix]
    · exact ih child isChild

end Cst

end ScriptLint
