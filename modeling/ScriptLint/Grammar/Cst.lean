import ScriptLint.Text.Bytes
import ScriptLint.Tree.Node

/-!
# Concrete syntax trees

What the grammar front end hands over: every token and construct with its grammar kind, its byte
range and the field it fills in its parent. Positions are not stored, since a byte offset and the
source determine them.

Covers what lowering asks of the grammar's nodes: `named`, `has_child`, `collect_comments`, and the
order of `flatten_sequence`. How the grammar makes such a tree of a text is left out.
-/

namespace ScriptLint

/-- The named places of a construct that lowering asks for. -/
inductive Field where
  | alternative
  | argument
  | arguments
  | body
  | condition
  | consequence
  | constructor
  | finalizer
  | function
  | handler
  | increment
  | index
  | initializer
  | key
  | kind
  | left
  | name
  | object
  | operator
  | parameter
  | parameters
  | pattern
  | property
  | right
  | value
  deriving DecidableEq, Repr

namespace Field

def all : List Field :=
  [.alternative, .argument, .arguments, .body, .condition, .consequence, .constructor,
   .finalizer, .function, .handler, .increment, .index, .initializer, .key, .kind, .left, .name,
   .object, .operator, .parameter, .parameters, .pattern, .property, .right, .value]

/-- The grammar's word for a field. -/
def word : Field → String
  | .alternative => "alternative"
  | .argument => "argument"
  | .arguments => "arguments"
  | .body => "body"
  | .condition => "condition"
  | .consequence => "consequence"
  | .constructor => "constructor"
  | .finalizer => "finalizer"
  | .function => "function"
  | .handler => "handler"
  | .increment => "increment"
  | .index => "index"
  | .initializer => "initializer"
  | .key => "key"
  | .kind => "kind"
  | .left => "left"
  | .name => "name"
  | .object => "object"
  | .operator => "operator"
  | .parameter => "parameter"
  | .parameters => "parameters"
  | .pattern => "pattern"
  | .property => "property"
  | .right => "right"
  | .value => "value"

def ofWord? (text : String) : Option Field :=
  all.find? (·.word == text)

end Field

/-- Everything known of a concrete node except its children. -/
structure Label where
  kind : String
  /-- Constructs are named; punctuation, keywords and operators are not. -/
  named : Bool := true
  /-- The field of the parent that this node is the first to fill. -/
  field : Option Field := none
  startByte : Nat
  endByte : Nat
  isError : Bool := false
  isMissing : Bool := false
  hasError : Bool := false
  deriving DecidableEq, Repr

/-- A node of the concrete tree. -/
structure Cst where
  label : Label
  children : List Cst
  deriving Repr

namespace Cst

def kind (node : Cst) : String :=
  node.label.kind

def startByte (node : Cst) : Nat :=
  node.label.startByte

def endByte (node : Cst) : Nat :=
  node.label.endByte

def isComment (node : Cst) : Bool :=
  node.kind == "comment"

/-- Something the grammar could not read, or that it had to make up. -/
def isFault (node : Cst) : Bool :=
  node.label.isError || node.label.isMissing

/-- A child that lowering looks at when it goes through the children in order. -/
def isOperand (node : Cst) : Bool :=
  node.label.named && !node.isComment

/-- The named children, without comments. -/
def operands (node : Cst) : List Cst :=
  node.children.filter isOperand

/-- The child that fills a field. -/
def field? (node : Cst) (field : Field) : Option Cst :=
  node.children.find? (·.label.field == some field)

def hasChild (node : Cst) (kind : String) : Bool :=
  node.children.any (·.kind == kind)

/-- The source text of a node. -/
def text (source : Bytes) (node : Cst) : String :=
  source.textBetween node.startByte node.endByte

def span (source : Bytes) (node : Cst) : Span :=
  Span.ofBytes source node.startByte node.endByte

def start (source : Bytes) (node : Cst) : Position :=
  Position.ofOffset source node.startByte

mutual

/-- The comments of a tree in document order. A comment inside another is part of its text. -/
def comments (source : Bytes) : Cst → List Comment
  | ⟨_, children⟩ => commentsAmong source children

def commentsAmong (source : Bytes) : List Cst → List Comment
  | [] => []
  | node :: rest =>
    (if node.isComment then
      let text := node.text source
      [{ text, block := ['/', '*'].isPrefixOf text.toList, span := node.span source }]
    else node.comments source) ++ commentsAmong source rest

end

mutual

/-- The expressions of a comma sequence, with nested sequences spread out. -/
def sequenceOperands : Cst → List Cst
  | ⟨_, children⟩ => sequenceOperandsAmong children

def sequenceOperandsAmong : List Cst → List Cst
  | [] => []
  | node :: rest =>
    (if node.isOperand then
      if node.kind == "sequence_expression" then node.sequenceOperands else [node]
    else []) ++ sequenceOperandsAmong rest

end

/-- A node as a flat listing gives it: its depth and its label. -/
structure Row where
  depth : Nat
  label : Label
  deriving Repr

/-- The trees of a preorder listing, each with the depth of its root. The children of a row are
the deeper rows that directly follow it. -/
def forestOfRows (rows : List Row) : List (Nat × Cst) :=
  rows.foldr (fun row later =>
    let below := later.takeWhile fun tree => row.depth < tree.1
    (row.depth, ⟨row.label, below.map (·.2)⟩) :: later.drop below.length) []

/-- The tree that a preorder listing describes. -/
def ofRows? (rows : List Row) : Option Cst :=
  match forestOfRows rows with
  | [(_, tree)] => some tree
  | _ => none

end Cst

end ScriptLint
