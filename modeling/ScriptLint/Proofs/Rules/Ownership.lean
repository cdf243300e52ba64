import Mathlib.Algebra.GroupWithZero.Nat
import Mathlib.Data.List.Perm.Basic
import ScriptLint.Proofs.Rules.OwnBody
import ScriptLint.Proofs.Tree.Nodes

/-!
# Owners of return statements

Functions and methods cut a tree into bodies. What is shown below a node is shared out between the
node's own body and the bodies that start below it, so every return statement has exactly one owner.
What stands inside a body that starts further down does not matter to the bodies around it.
-/

namespace ScriptLint

namespace Form

variable {α β : Type}

theorem shape_map (form : Form α) (f : α → β) : (form.map f).shape = form.shape := by
  have covered : hole ∘ f = hole := rfl
  cases form <;> simp [shape, map, covered, hole]

/-- What is made of the shown sub-nodes is determined by the shape and by what is made of all. -/
theorem map_children_congr {form other : Form α} (f : α → β) (sameShape : form.shape = other.shape)
    (sameFields : form.fields.map f = other.fields.map f) :
    form.children.map f = other.children.map f := by
  have same : form.map f = other.map f := by
    apply eq_of_shape_fields
    · rw [shape_map, shape_map, sameShape]
    · rw [fields_map, fields_map, sameFields]
  rw [← children_map, same, children_map]

/-- The name of a form: that of its kind, or the grammar's own. -/
def grammarName : Form α → String
  | .other grammarKind _ => grammarKind
  | form => form.kind.name

end Form

namespace Node

/-! ## Bodies -/

/-- Everything shown below a node, in document order. -/
def descendants (node : Node) : List Node :=
  node.preorder.tail

theorem descendants_eq (node : Node) :
    node.descendants = node.children.flatMap fun child => child :: child.descendants := by
  have preorder_eq : ∀ node : Node, node.preorder = node :: node.descendants := by
    intro node
    rw [descendants, preorder]
    rfl
  rw [descendants, preorder]
  simp [preorder_eq]

/-- The functions and methods below a node. -/
def owners (node : Node) : List Node :=
  node.descendants.filter startsBody

theorem owners_eq (node : Node) :
    node.owners = node.children.flatMap fun child =>
      (if child.startsBody then [child] else []) ++ child.owners := by
  rw [owners, descendants_eq, List.filter_flatMap]
  refine List.flatMap_congr fun child _ => ?_
  rw [List.filter_cons, owners]
  split <;> rfl

/-- What is shown below a node belongs to the node's own body, or starts a body below it, or belongs
to such a body. -/
theorem descendants_perm_bodies (node : Node) :
    node.descendants.Perm
      (node.ownBody ++ node.owners.flatMap fun owner => owner :: owner.ownBody) := by
  induction node using childInduction with
  | step node ih =>
    let inBodies (child : Node) := child.owners.flatMap fun owner => owner :: owner.ownBody
    -- A child's own body goes to the node or, if the child starts one, to the child.
    have shared : ∀ child ∈ node.children, (child :: child.descendants).Perm
        ((if child.startsBody then [] else child :: child.ownBody) ++
          ((if child.startsBody then child :: child.ownBody else []) ++ inBodies child)) := by
      intro child member
      split
      · exact (ih child member).cons child
      · exact (ih child member).cons child
    rw [descendants_eq, ownBody_eq, owners_eq, List.flatMap_assoc]
    refine (List.Perm.flatMap_left _ shared).trans ((List.flatMap_append_perm _ _ _).symm.trans ?_)
    refine List.Perm.append_left _ (.of_eq (List.flatMap_congr fun child _ => ?_))
    rw [List.flatMap_append]
    split <;> simp [inBodies]

/-- The return statements of a function itself. -/
def ownReturns (node : Node) : List Node :=
  node.ownBody.filter (·.kind = .returnStatement)

theorem countReturns_eq_length (node : Node) : node.countReturns = node.ownReturns.length :=
  List.countP_eq_length_filter

theorem startsBody_of_return {node : Node} (isReturn : node.kind = .returnStatement) :
    node.startsBody = false :=
  startsBody_eq_false (isReturn ▸ by decide) (isReturn ▸ by decide)

/-- Every return statement below a node is one of the node itself or of one function or method
below it. -/
theorem returns_perm_owners (root : Node) :
    (root.descendants.filter (·.kind = .returnStatement)).Perm
      ((root :: root.owners).flatMap ownReturns) := by
  refine ((descendants_perm_bodies root).filter _).trans (.of_eq ?_)
  rw [List.filter_append, List.filter_flatMap, List.flatMap_cons]
  refine congrArg _ (List.flatMap_congr fun owner member => ?_)
  have starts : owner.startsBody = true := (List.mem_filter.mp member).2
  have other : owner.kind ≠ .returnStatement := by
    intro isReturn
    rw [startsBody_of_return isReturn] at starts
    cases starts
  rw [List.filter_cons_of_neg (by simpa using other), ownReturns]

/-! ## Replacing what a body has in it -/

/-- `after` is `before` with one of its direct sub-nodes, `old`, replaced by `new`. -/
structure ReplacesField (old new before after : Node) : Prop where
  span : before.span = after.span
  shape : before.form.shape = after.form.shape
  fields : ∃ first rest, before.fields = first ++ old :: rest ∧ after.fields = first ++ new :: rest

/-- `after` is `before` with `old`, which stands somewhere below it, replaced by `new`. -/
inductive Replaces (old new : Node) : Node → Node → Prop where
  | direct {before after : Node} (replaced : ReplacesField old new before after) :
      Replaces old new before after
  | deeper {before after inner inner' : Node} (inside : Replaces old new inner inner')
      (replaced : ReplacesField inner inner' before after) : Replaces old new before after

variable {old new before after inner inner' : Node}

theorem Replaces.shape (replaces : Replaces old new before after) :
    before.form.shape = after.form.shape := by
  cases replaces with
  | direct replaced => exact replaced.shape
  | deeper _ replaced => exact replaced.shape

theorem kind_congr (sameShape : before.form.shape = after.form.shape) :
    before.kind = after.kind := by
  have shapeKind : ∀ node : Node, node.kind = node.form.shape.kind := fun node =>
    (Form.kind_map node.form Form.hole).symm
  rw [shapeKind, shapeKind, sameShape]

theorem startsBody_congr (sameShape : before.form.shape = after.form.shape) :
    before.startsBody = after.startsBody := by
  have shapeName : ∀ node : Node, node.kindName = node.form.shape.grammarName := by
    rintro ⟨span, form⟩
    cases form <;> rfl
  rw [startsBody, isFunction, shapeName, kind_congr sameShape, sameShape, ← shapeName]
  rfl

/-- What a shown child adds to the return statements of its parent. -/
def returnShare (child : Node) : Nat :=
  if child.startsBody then 0
  else (if child.kind = .returnStatement then 1 else 0) + child.countReturns

theorem countReturns_eq (node : Node) :
    node.countReturns = (node.children.map returnShare).sum := by
  rw [countReturns, countOwn, ownBody_eq, List.countP_flatMap]
  refine congrArg _ (List.map_congr_left fun child _ => ?_)
  rw [Function.comp_apply, returnShare]
  split
  · rfl
  · simp only [List.countP_cons, countReturns, countOwn, decide_eq_true_eq, Nat.add_comm]

/-- Only what a sub-node adds matters to the count of the node around it. -/
theorem ReplacesField.countReturns_eq (replaced : ReplacesField old new before after)
    (sameShare : old.returnShare = new.returnShare) : before.countReturns = after.countReturns := by
  obtain ⟨first, rest, isBefore, isAfter⟩ := replaced.fields
  have sameFields : before.fields.map returnShare = after.fields.map returnShare := by
    rw [isBefore, isAfter]
    simp [sameShare]
  rw [Node.countReturns_eq, Node.countReturns_eq]
  exact congrArg List.sum (Form.map_children_congr _ replaced.shape sameFields)

theorem Replaces.countReturns_eq (replaces : Replaces old new before after)
    (oldStarts : old.startsBody = true) (newStarts : new.startsBody = true) :
    before.countReturns = after.countReturns := by
  induction replaces with
  | direct replaced =>
    refine replaced.countReturns_eq ?_
    simp [returnShare, oldStarts, newStarts]
  | deeper inside replaced ih =>
    refine replaced.countReturns_eq ?_
    simp only [returnShare, startsBody_congr inside.shape, kind_congr inside.shape, ih]

end Node

/-- Every return statement has exactly one owner. Those below a node are, as a whole and in number,
those of the node itself and those of the functions and methods below it; and a function or method
below a node may be replaced by any other without a change to the node's own count. -/
theorem Node.returns_owned_once (root : Node) :
    (root.preorder.tail.filter (·.kind = .returnStatement)).Perm
      ((root :: root.preorder.tail.filter startsBody).flatMap ownReturns) ∧
    root.preorder.tail.countP (·.kind = .returnStatement) =
      root.countReturns + ((root.preorder.tail.filter startsBody).map countReturns).sum ∧
    ∀ old new after, old.startsBody = true → new.startsBody = true →
      Replaces old new root after → after.countReturns = root.countReturns := by
  have owned := returns_perm_owners root
  refine ⟨owned, ?_, ?_⟩
  · have inNumber := owned.length_eq
    rw [← List.countP_eq_length_filter, List.length_flatMap, List.map_cons, List.sum_cons,
      ← countReturns_eq_length, ← funext countReturns_eq_length] at inNumber
    exact inNumber
  · intro old new after oldStarts newStarts replaces
    exact (replaces.countReturns_eq oldStarts newStarts).symm

/-- A block with some node ahead of its only return statement. -/
def Node.returningBlock (inner : Node) : Node :=
  ⟨default, .blockStatement [inner, ⟨default, .returnStatement none⟩]⟩

def Node.returnAfter (inner : Node) : Node :=
  ⟨default, .functionDeclaration none [] (returningBlock inner) false false⟩

/-- A function with a return statement may stand there as well as an empty method. -/
theorem Node.returns_owned_once_returnAfter :
    (returnAfter ⟨default, .other "method_definition" []⟩).countReturns =
      (returnAfter (returnAfter ⟨default, .thisExpression⟩)).countReturns := by
  have inBlock : ∀ old new, ReplacesField old new (returningBlock old) (returningBlock new) :=
    fun old new => ⟨rfl, rfl, [], [⟨default, .returnStatement none⟩], rfl, rfl⟩
  exact (returns_owned_once (returnAfter (returnAfter ⟨default, .thisExpression⟩))).2.2
    (returnAfter ⟨default, .thisExpression⟩) ⟨default, .other "method_definition" []⟩ _ rfl rfl
    (.deeper (.direct (inBlock _ _)) ⟨rfl, rfl, [], [], rfl, rfl⟩)

end ScriptLint
