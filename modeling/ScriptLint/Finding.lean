import ScriptLint.Tree.Equality

/-!
# Findings

A finding points at a node and says under which tag it was found. The findings of a run are a list
in the order in which they were reported.

Covers a finding's `new`, `tagged`, `with_description` and `span`, and `with_tag`. The container of
findings has nothing to it but their order, so it is a list.
-/

namespace ScriptLint

/-- A reported node. -/
structure Finding where
  node : Node
  tag : String
  description : Option String := none
  deriving DecidableEq, Repr

namespace Finding

/-- A finding tagged with the name of the node's kind. -/
def ofNode (node : Node) : Finding :=
  { node, tag := node.kindName }

/-- A finding with a tag of its own; an empty tag falls back to the name of the node's kind. -/
def tagged (node : Node) (tag : String) : Finding :=
  if tag = "" then ofNode node else { node, tag }

def withDescription (finding : Finding) (description : String) : Finding :=
  { finding with description := some description }

def span (finding : Finding) : Span :=
  finding.node.span

end Finding

/-- The findings that carry a tag, in order. -/
def withTag (tag : String) (findings : List Finding) : List Finding :=
  findings.filter (·.tag = tag)

end ScriptLint
