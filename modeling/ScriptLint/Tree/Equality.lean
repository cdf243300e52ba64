import ScriptLint.Tree.Outline

/-!
# Equality of trees

Two nodes are equal when their spans agree, their forms agree with the sub-nodes left out, and
their sub-nodes are equal one by one.
-/

namespace ScriptLint

namespace Form

variable {α β : Type}

/-- The same form with every sub-node replaced by its image. -/
def map (f : α → β) : Form α → Form β
  | .program body comments => .program (body.map f) comments
  | .expressionStatement expression => .expressionStatement (f expression)
  | .blockStatement body => .blockStatement (body.map f)
  | .ifStatement test consequent alternate => .ifStatement (f test) (f consequent) (alternate.map f)
  | .switchStatement discriminant cases => .switchStatement (f discriminant) (cases.map f)
  | .switchCase test consequent => .switchCase (test.map f) (consequent.map f)
  | .variableDeclaration keyword declarations => .variableDeclaration keyword (declarations.map f)
  | .variableDeclarator id init => .variableDeclarator (f id) (init.map f)
  | .returnStatement argument => .returnStatement (argument.map f)
  | .forStatement init test update body =>
    .forStatement (init.map f) (test.map f) (update.map f) (f body)
  | .forInStatement left right body => .forInStatement (f left) (f right) (f body)
  | .forOfStatement left right body => .forOfStatement (f left) (f right) (f body)
  | .whileStatement test body => .whileStatement (f test) (f body)
  | .doWhileStatement body test => .doWhileStatement (f body) (f test)
  | .tryStatement block handler finalizer =>
    .tryStatement (f block) (handler.map f) (finalizer.map f)
  | .catchClause param body => .catchClause (param.map f) (f body)
  | .functionDeclaration id params body isAsync generator =>
    .functionDeclaration (id.map f) (params.map f) (f body) isAsync generator
  | .functionExpression id params body isAsync generator =>
    .functionExpression (id.map f) (params.map f) (f body) isAsync generator
  | .arrowFunctionExpression params body isAsync =>
    .arrowFunctionExpression (params.map f) (f body) isAsync
  | .arrayExpression elements => .arrayExpression (elements.map f)
  | .objectExpression properties => .objectExpression (properties.map f)
  | .property key value computed shorthand => .property (f key) (f value) computed shorthand
  | .callExpression callee arguments optional =>
    .callExpression (f callee) (arguments.map f) optional
  | .newExpression callee arguments => .newExpression (f callee) (arguments.map f)
  | .assignmentExpression operator left right => .assignmentExpression operator (f left) (f right)
  | .binaryExpression operator left right => .binaryExpression operator (f left) (f right)
  | .logicalExpression operator left right => .logicalExpression operator (f left) (f right)
  | .unaryExpression operator argument leading => .unaryExpression operator (f argument) leading
  | .updateExpression operator argument leading => .updateExpression operator (f argument) leading
  | .memberExpression object name computed optional =>
    .memberExpression (f object) (f name) computed optional
  | .conditionalExpression test consequent alternate =>
    .conditionalExpression (f test) (f consequent) (f alternate)
  | .sequenceExpression expressions => .sequenceExpression (expressions.map f)
  | .templateLiteral quasis expressions => .templateLiteral (quasis.map f) (expressions.map f)
  | .templateElement raw => .templateElement raw
  | .thisExpression => .thisExpression
  | .identifier name => .identifier name
  | .literal raw category => .literal raw category
  | .other grammarKind parts => .other grammarKind (parts.map f)

/-- What is left of a sub-node in a shape. -/
def hole (_ : α) : Unit := ()

/-- The form with its sub-nodes left out. -/
def shape (form : Form α) : Form Unit :=
  form.map hole

private theorem toList_map (value : Option α) (f : α → β) :
    (value.map f).toList = value.toList.map f := by
  cases value <;> rfl

/-- Replacing sub-nodes replaces them among the fields. -/
theorem fields_map (form : Form α) (f : α → β) : (form.map f).fields = form.fields.map f := by
  cases form <;> simp [map, fields, toList_map]

theorem length_fields_eq {form : Form α} {other : Form β} (sameShape : form.shape = other.shape) :
    form.fields.length = other.fields.length := by
  have sameLength := congrArg (fun shape => shape.fields.length) sameShape
  simpa [shape, fields_map] using sameLength

private theorem splitList {first first' rest rest' : List α}
    (sameShape : first.map hole = first'.map hole)
    (sameNodes : first ++ rest = first' ++ rest') : first = first' ∧ rest = rest' :=
  List.append_inj sameNodes (by simpa using congrArg List.length sameShape)

private theorem splitOption {first first' : Option α} {rest rest' : List α}
    (sameShape : first.map hole = first'.map hole)
    (sameNodes : first.toList ++ rest = first'.toList ++ rest') :
    first = first' ∧ rest = rest' := by
  cases first <;> cases first' <;> simp_all

private theorem toList_inj {first first' : Option α} (sameNodes : first.toList = first'.toList) :
    first = first' := by
  cases first <;> cases first' <;> simp_all

/-- A form is its shape together with its sub-nodes. -/
theorem eq_of_shape_fields {form other : Form α} (sameShape : form.shape = other.shape)
    (sameFields : form.fields = other.fields) : form = other := by
  cases form <;> cases other <;> simp [shape, map, fields] at sameShape sameFields ⊢ <;>
    grind [→ splitList, → splitOption, → toList_inj]

end Form

namespace Node

/-- Whether two trees agree in every span and every form. -/
def same (node other : Node) : Bool :=
  node.span == other.span && node.form.shape == other.form.shape &&
    (node.fields.attach.zip other.fields).all fun pair => pair.1.1.same pair.2
termination_by sizeOf node
decreasing_by exact sizeOf_lt_of_mem_fields pair.1.2

theorem same_eq (node other : Node) :
    node.same other = (node.span == other.span && node.form.shape == other.form.shape &&
      (node.fields.zip other.fields).all fun pair => pair.1.same pair.2) := by
  rw [same]
  congr 1
  conv => rhs; rw [← List.attach_map_subtype_val node.fields, List.zip_map_left, List.all_map]
  rfl

private theorem all_zip_iff {test : Node → Node → Bool} {nodes others : List Node}
    (sameLength : nodes.length = others.length)
    (decides : ∀ node ∈ nodes, ∀ other, test node other = true ↔ node = other) :
    ((nodes.zip others).all fun pair => test pair.1 pair.2) = true ↔ nodes = others := by
  induction nodes generalizing others with
  | nil => cases others <;> simp_all
  | cons node nodes ih =>
    cases others with
    | nil => simp at sameLength
    | cons other others =>
      simp only [List.zip_cons_cons, List.all_cons, Bool.and_eq_true, List.cons.injEq]
      rw [decides node (by simp) other, ih (by simpa using sameLength) (by grind)]

theorem same_iff (node other : Node) : node.same other = true ↔ node = other := by
  induction node using fieldInduction generalizing other with
  | step node ih =>
    rw [same_eq]
    simp only [Bool.and_eq_true, beq_iff_eq]
    constructor
    · rintro ⟨⟨sameSpan, sameShape⟩, below⟩
      have sameFields := (all_zip_iff (Form.length_fields_eq sameShape) ih).1 below
      have sameForm := Form.eq_of_shape_fields sameShape sameFields
      cases node
      cases other
      simp_all
    · rintro rfl
      exact ⟨⟨rfl, rfl⟩, (all_zip_iff rfl ih).2 rfl⟩

instance : DecidableEq Node := fun node other =>
  decidable_of_iff _ (same_iff node other)

end Node

end ScriptLint
