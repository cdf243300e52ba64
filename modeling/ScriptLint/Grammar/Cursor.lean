import ScriptLint.Grammar.Cst

/-!
# Walking a concrete tree

A cursor stands at a node and remembers the way down to it, so it can go on to the first child, to
the next sibling and back to the parent. The first error or missing node of a tree is searched for
by such moves alone, without recursion over the tree, and subtrees that are not flagged are passed
by. The search ends since no tree that is still ahead of it ever comes back.

Covers `first_error`, with one turn of its loop as `step`.
-/

namespace ScriptLint

/-- A place in a concrete tree. -/
structure Cursor where
  node : Cst
  /-- The siblings after the node. -/
  later : List Cst
  /-- The nodes above, the nearest first, each with the siblings after it. -/
  above : List (Cst × List Cst)
  deriving Repr

namespace Cursor

variable {cursor next : Cursor}

/-- A cursor that cannot leave the tree below this node. -/
def atRoot (root : Cst) : Cursor :=
  { node := root, later := [], above := [] }

def firstChild? (cursor : Cursor) : Option Cursor :=
  match cursor.node.children with
  | [] => none
  | child :: rest =>
    some { node := child, later := rest, above := (cursor.node, cursor.later) :: cursor.above }

def nextSibling? (cursor : Cursor) : Option Cursor :=
  match cursor.later with
  | [] => none
  | sibling :: rest => some { cursor with node := sibling, later := rest }

def parent? (cursor : Cursor) : Option Cursor :=
  match cursor.above with
  | [] => none
  | (parent, later) :: above => some { node := parent, later, above }

theorem firstChild?_eq_none (missing : cursor.firstChild? = none) : cursor.node.children = [] := by
  unfold firstChild? at missing
  split at missing
  · assumption
  · cases missing

theorem nextSibling?_eq_none (missing : cursor.nextSibling? = none) : cursor.later = [] := by
  unfold nextSibling? at missing
  split at missing
  · assumption
  · cases missing

theorem parent?_eq_none (missing : cursor.parent? = none) : cursor.above = [] := by
  unfold parent? at missing
  split at missing
  · assumption
  · cases missing

theorem above_of_parent? (found : cursor.parent? = some next) :
    cursor.above = (next.node, next.later) :: next.above := by
  unfold parent? at found
  split at found
  · cases found
  case h_2 parent later above known =>
    cases found
    exact known

/-- The next sibling of the node, or of the nearest node above it that has one. -/
def climb? (cursor : Cursor) : Option Cursor :=
  match cursor.nextSibling? with
  | some sibling => some sibling
  | none =>
    match _found : cursor.parent? with
    | some parent => parent.climb?
    | none => none
termination_by cursor.above.length
decreasing_by simp [above_of_parent? _found]

/-- The trees after the one that the cursor stands at, in document order. -/
def pending (cursor : Cursor) : List Cst :=
  cursor.later ++ cursor.above.flatMap Prod.snd

theorem pending_firstChild? (found : cursor.firstChild? = some next) :
    next.node :: next.pending = cursor.node.children ++ cursor.pending := by
  unfold firstChild? at found
  split at found
  · cases found
  case h_2 child rest known =>
    cases found
    simp [pending, known]

theorem pending_nextSibling? (found : cursor.nextSibling? = some next) :
    cursor.pending = next.node :: next.pending := by
  unfold nextSibling? at found
  split at found
  · cases found
  case h_2 sibling rest known =>
    cases found
    simp [pending, known]

/-- A node without siblings leaves the same trees ahead as its parent. -/
theorem pending_parent? (last : cursor.later = []) (found : cursor.parent? = some next) :
    cursor.pending = next.pending := by
  simp [pending, last, above_of_parent? found]

/-- Climbing goes on to the next tree ahead, and fails only if there is none. -/
theorem pending_climb? (cursor : Cursor) :
    cursor.pending = cursor.climb?.elim [] fun next => next.node :: next.pending := by
  fun_induction climb? cursor with
  | case1 cursor sibling found => exact pending_nextSibling? found
  | case2 cursor missing parent found ih =>
    rw [pending_parent? (nextSibling?_eq_none missing) found, ih]
  | case3 cursor missing top =>
    simp [pending, nextSibling?_eq_none missing, parent?_eq_none top]

/-- Where a search is: at a node, or at its end with what it has found. -/
inductive Search where
  | looking (cursor : Cursor)
  | ended (found : Option Cst)
  deriving Repr

/-- Looks at one node and goes on, down if the node is flagged and has children. -/
def step (cursor : Cursor) : Search :=
  if cursor.node.isFault then .ended (some cursor.node)
  else
    match if cursor.node.label.hasError then cursor.firstChild? else none with
    | some child => .looking child
    | none =>
      match cursor.climb? with
      | some next => .looking next
      | none => .ended none

/-- A search goes on from a node that is no fault, either to its children or past them; the node
itself is never looked at again. -/
theorem pending_step (moved : cursor.step = .looking next) :
    cursor.node.isFault = false ∧ next.node :: next.pending =
      (if cursor.node.label.hasError then cursor.node.children else []) ++ cursor.pending := by
  unfold step at moved
  split at moved
  · cases moved
  case isFalse sound =>
    refine ⟨by simpa using sound, ?_⟩
    split at moved
    case h_1 child descended =>
      cases moved
      split at descended
      case isTrue flagged => simp [flagged, pending_firstChild? descended]
      case isFalse => cases descended
    case h_2 stays =>
      have childless : (if cursor.node.label.hasError then cursor.node.children else []) = [] := by
        split at stays
        · simp [firstChild?_eq_none stays]
        · simp_all
      split at moved
      case h_1 found =>
        cases moved
        simp [childless, pending_climb? cursor, found]
      case h_2 => cases moved

/-- A search ends at a fault, or where nothing is left to look at. -/
theorem found_of_step {found : Option Cst} (ended : cursor.step = .ended found) :
    (cursor.node.isFault = true ∧ found = some cursor.node) ∨
      (cursor.node.isFault = false ∧ found = none ∧
        (if cursor.node.label.hasError then cursor.node.children else []) ++
          cursor.pending = []) := by
  unfold step at ended
  split at ended
  case isTrue fault =>
    cases ended
    exact .inl ⟨fault, rfl⟩
  case isFalse sound =>
    split at ended
    · cases ended
    case h_2 stays =>
      split at ended
      · cases ended
      case h_2 top =>
        cases ended
        refine .inr ⟨by simpa using sound, rfl, ?_⟩
        rw [pending_climb? cursor, top]
        split at stays
        · simp [firstChild?_eq_none stays]
        · simp_all

theorem sizeOf_append (trees later : List Cst) :
    sizeOf (trees ++ later) + 1 = sizeOf trees + sizeOf later := by
  induction trees with
  | nil =>
    simp only [List.nil_append, List.nil.sizeOf_spec]
    omega
  | cons tree rest ih =>
    simp only [List.cons_append, List.cons.sizeOf_spec]
    omega

/-- Each step leaves less to look at. -/
theorem pending_decreases (moved : cursor.step = .looking next) :
    sizeOf (next.node :: next.pending) < sizeOf (cursor.node :: cursor.pending) := by
  obtain ⟨⟨label, children⟩, later, above⟩ := cursor
  rw [(pending_step moved).2]
  have joined := sizeOf_append children (pending ⟨⟨label, children⟩, later, above⟩)
  split
  · simp only [List.cons.sizeOf_spec, Cst.mk.sizeOf_spec]
    omega
  · simp only [List.nil_append, List.cons.sizeOf_spec]
    omega

/-- What a search that stands at a cursor finds in the end. -/
def search (cursor : Cursor) : Option Cst :=
  match _moved : cursor.step with
  | .looking next => next.search
  | .ended found => found
termination_by sizeOf (cursor.node :: cursor.pending)
decreasing_by exact pending_decreases _moved

end Cursor

/-- The first error or missing node of a tree, looking only below nodes that are flagged as
containing one. -/
def Cst.firstFault? (root : Cst) : Option Cst :=
  (Cursor.atRoot root).search

end ScriptLint
