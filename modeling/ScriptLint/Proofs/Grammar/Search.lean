import Mathlib.Data.List.Basic
import Mathlib.Logic.Function.Iterate
import ScriptLint.Grammar.Cursor
import ScriptLint.Proofs.Grammar.Descents

/-!
# The search for the first fault

A search reaches exactly the nodes with nothing but flagged nodes above them, in document order and
each once. So it ends after at most one step for each node of the tree, and what it finds is the
first fault among them. If the flags tell the truth, that is the first fault of the whole tree.
-/

namespace ScriptLint

theorem findSome?_congr {α β : Type} {items : List α} {f g : α → Option β}
    (same : ∀ item ∈ items, f item = g item) : items.findSome? f = items.findSome? g := by
  rw [← List.head?_filterMap, ← List.head?_filterMap, List.filterMap_congr same]

namespace Cst

/-- A node and everything below it in document order, each with all nodes above it. -/
def lineages (node : Cst) : List (List Cst × Cst) :=
  ([], node) :: node.descents.map fun descent => (node :: descent.1, descent.2)

/-- The nodes that have nothing but flagged nodes above them, in document order. -/
def exposed (node : Cst) : List Cst :=
  (node.lineages.filter fun lineage => lineage.1.all (·.label.hasError)).map Prod.snd

theorem lineages_eq (node : Cst) :
    node.lineages = ([], node) :: node.children.flatMap fun child =>
      child.lineages.map fun lineage => (node :: lineage.1, lineage.2) := by
  rw [lineages, descents_eq, List.map_flatMap]
  rfl

theorem exposed_sublist_nodes (node : Cst) : node.exposed.Sublist node.nodes := by
  have same : node.nodes = node.lineages.map Prod.snd := by simp [nodes, lineages]
  rw [same]
  exact List.filter_sublist.map Prod.snd

theorem exposed_eq (node : Cst) :
    node.exposed =
      node :: (if node.label.hasError then node.children else []).flatMap exposed := by
  rw [exposed, lineages_eq]
  simp only [List.filter_cons, List.all_nil, if_true, List.map_cons, List.filter_flatMap,
    List.map_flatMap, List.filter_map, Function.comp_def, List.all_cons, List.map_map]
  cases node.label.hasError with
  | true =>
    simp only [Bool.true_and, if_true]
    rfl
  | false => simp

/-- The flag is set on exactly the nodes that are a fault or contain one. -/
def Flagged (root : Cst) : Prop :=
  ∀ node ∈ root.nodes, node.label.hasError = true ↔ ∃ inner ∈ node.nodes, inner.isFault = true

theorem Flagged.child {node child : Cst} (flagged : node.Flagged)
    (isChild : child ∈ node.children) : child.Flagged :=
  fun inner member => flagged inner (mem_nodes_of_child isChild member)

/-- With true flags no fault is hidden. -/
theorem Flagged.find?_exposed {node : Cst} (flagged : node.Flagged) :
    node.exposed.find? isFault = node.nodes.find? isFault := by
  induction node using childInduction with
  | step node ih =>
    cases known : node.label.hasError with
    | true =>
      have below : node.children.findSome? (fun child => child.exposed.find? isFault) =
          node.children.findSome? fun child => child.nodes.find? isFault :=
        findSome?_congr fun child isChild => ih child isChild (flagged.child isChild)
      rw [exposed_eq, nodes_eq, if_pos known, List.find?_cons, List.find?_cons, List.find?_flatMap,
        List.find?_flatMap, below]
    | false =>
      have sound : node.nodes.find? isFault = none := by
        rw [List.find?_eq_none]
        intro inner member fault
        rw [(flagged node node.mem_nodes_self).mpr ⟨inner, member, fault⟩] at known
        cases known
      rw [sound, node.exposed_sublist_nodes.find?_eq_none sound]

end Cst

namespace Cursor

variable {cursor : Cursor}

/-- The nodes that a search at a cursor has still to look at. -/
def ahead (cursor : Cursor) : List Cst :=
  (cursor.node :: cursor.pending).flatMap Cst.exposed

theorem ahead_eq (cursor : Cursor) :
    cursor.ahead = cursor.node ::
      ((if cursor.node.label.hasError then cursor.node.children else []) ++
        cursor.pending).flatMap Cst.exposed := by
  rw [ahead, List.flatMap_cons, Cst.exposed_eq, List.flatMap_append, List.cons_append]

theorem ahead_of_step {next : Cursor} (moved : cursor.step = .looking next) :
    cursor.node.isFault = false ∧ cursor.ahead = cursor.node :: next.ahead := by
  obtain ⟨sound, left⟩ := pending_step moved
  exact ⟨sound, by rw [ahead_eq, ← left, ahead]⟩

/-- A search finds the first fault of what is ahead of it. -/
theorem search_eq (cursor : Cursor) : cursor.search = cursor.ahead.find? Cst.isFault := by
  fun_induction search cursor with
  | case1 cursor next moved ih =>
    obtain ⟨sound, seen⟩ := ahead_of_step moved
    rw [ih, seen, List.find?_cons_of_neg (by simp [sound])]
  | case2 cursor found ended =>
    obtain ⟨fault, rfl⟩ | ⟨sound, rfl, nothing⟩ := found_of_step ended
    · rw [ahead_eq, List.find?_cons_of_pos fault]
    · rw [ahead_eq, nothing]
      simp [sound]

/-- One turn of the search; a search that has ended stays as it is. -/
def Search.next : Search → Search
  | .looking cursor => cursor.step
  | .ended found => .ended found

/-- A search ends after at most as many turns as nodes are ahead of it. -/
theorem exists_turns (cursor : Cursor) :
    ∃ turns ≤ cursor.ahead.length,
      Search.next^[turns] (.looking cursor) = .ended cursor.search := by
  fun_induction search cursor with
  | case1 cursor next moved ih =>
    obtain ⟨turns, few, ended⟩ := ih
    refine ⟨turns + 1, ?_, ?_⟩
    · rw [(ahead_of_step moved).2, List.length_cons]
      omega
    · rw [Function.iterate_succ_apply, Search.next, moved, ended]
  | case2 cursor found ended =>
    refine ⟨1, ?_, ?_⟩
    · rw [ahead_eq, List.length_cons]
      omega
    · exact ended

end Cursor

namespace Cst

theorem ahead_atRoot (root : Cst) : (Cursor.atRoot root).ahead = root.exposed := by
  simp [Cursor.ahead, Cursor.atRoot, Cursor.pending]

theorem firstFault?_eq_find? (root : Cst) : root.firstFault? = root.exposed.find? isFault := by
  rw [firstFault?, Cursor.search_eq, ahead_atRoot]

theorem firstFault?_eq (node : Cst) :
    node.firstFault? =
      if node.label.isError || node.label.isMissing then some node
      else if node.label.hasError then node.children.findSome? firstFault?
      else none := by
  have each : firstFault? = fun child : Cst => child.exposed.find? isFault :=
    funext firstFault?_eq_find?
  rw [each]
  dsimp only
  rw [exposed_eq, List.find?_cons, List.find?_flatMap, isFault]
  cases node.label.isError || node.label.isMissing <;> cases node.label.hasError <;> rfl

end Cst

end ScriptLint
