import ScriptLint.Tree.Equality

/-!
# Trees without comments

Emptying the comment lists of all programs in a tree, and nothing else. It is the map on trees that
tells two parse results apart from their comments.
-/

namespace ScriptLint

namespace Form

variable {α β : Type}

theorem map_congr {form : Form α} {f g : α → β} (same : ∀ field ∈ form.fields, f field = g field) :
    form.map f = form.map g := by
  have inOption : ∀ {value : Option α}, (∀ field, value = some field → f field = g field) →
      value.map f = value.map g := Option.map_congr
  cases form <;> simp_all [map, fields]

/-- The form with no comments. Only a program has any. -/
def dropComments : Form α → Form α
  | .program body _ => .program body []
  | form => form

end Form

namespace Node

/-- The tree with the comments of every program in it removed. -/
def withoutComments (node : Node) : Node :=
  { span := node.span
    form := (node.form.map fun field =>
      if _ : field ∈ node.fields then field.withoutComments else field).dropComments }
termination_by sizeOf node
decreasing_by exact sizeOf_lt_of_mem_fields (by assumption)

/-- What is left of a form when the trees in it lose their comments and so does the form. -/
def formWithoutComments (form : Form Node) : Form Node :=
  (form.map withoutComments).dropComments

theorem withoutComments_mk (span : Span) (form : Form Node) :
    withoutComments ⟨span, form⟩ = ⟨span, formWithoutComments form⟩ := by
  rw [withoutComments, formWithoutComments]
  congr 2
  exact Form.map_congr fun field member => dif_pos member

end Node

end ScriptLint
