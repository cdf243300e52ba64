import Mathlib.Data.List.Nodup
import ScriptLint.Proofs.Rules.Trace

/-!
# Rules do not interfere

Every finding of a rule carries the rule's tag, and a trace asks of the rules only whether one of
them goes into loops. Leaving rules out therefore filters the findings, unless it is the loop rule
that is left out: then whole subtrees drop out as well. The order of installation only decides how
the findings of different rules at one node follow each other.
-/

namespace ScriptLint

/-- A trace that stays out of loops meets part of what one that goes into them meets. -/
theorem Node.trace_false_sublist_trace_true (node : Node) :
    (node.trace false).Sublist (node.trace true) := by
  induction node using Node.traceInduction false with
  | step node ih =>
    have fewer : (node.traceSteps false).Sublist (node.traceSteps true) := by
      rw [traceSteps_eq, traceSteps_eq]
      split
      · exact List.nil_sublist _
      · exact List.Sublist.refl _
    rw [trace_eq, trace_eq]
    refine List.Sublist.cons_cons node ?_
    exact (List.Sublist.flatMap_right _ ih).trans (fewer.flatMap _)

namespace Rule

variable {rules part : List Rule}

theorem tag_of_mem_findingsAt {rule : Rule} {node : Node} {finding : Finding}
    (reported : finding ∈ rule.findingsAt node) : finding.tag = rule.tag := by
  have tagged := rule.tag_ne_empty
  unfold findingsAt at reported
  split at reported
  · simp only [Option.mem_toList, finding?, Option.map_eq_some_iff] at reported
    obtain ⟨text, -, rfl⟩ := reported
    simp [Finding.tagged, tagged, Finding.withDescription]
  · simp at reported

/-- Choosing findings by their tags is choosing the rules. -/
theorem filter_flatMap_findingsAt (rules : List Rule) (node : Node) (chosen : String → Bool) :
    (rules.flatMap fun rule => rule.findingsAt node).filter (fun finding => chosen finding.tag) =
      (rules.filter fun rule => chosen rule.tag).flatMap fun rule => rule.findingsAt node := by
  induction rules with
  | nil => rfl
  | cons rule rules ih =>
    rw [List.flatMap_cons, List.filter_append, ih]
    by_cases picked : chosen rule.tag
    · have kept : (rule.findingsAt node).filter (fun finding => chosen finding.tag) =
          rule.findingsAt node :=
        List.filter_eq_self.mpr fun finding reported => by
          rwa [tag_of_mem_findingsAt reported]
      simp [kept, picked]
    · have dropped : (rule.findingsAt node).filter (fun finding => chosen finding.tag) = [] :=
        List.filter_eq_nil_iff.mpr fun finding reported => by
          rwa [tag_of_mem_findingsAt reported]
      simp [dropped, picked]

theorem count_imperativeLoop_le_one (distinct : (rules.map tag).Nodup) :
    rules.count .imperativeLoop ≤ 1 :=
  List.nodup_iff_count_le_one.mp distinct.of_map _

/-- The rules of a part are found again by their tags. -/
theorem filter_tag_mem_of_sublist (sub : part.Sublist rules) (distinct : (rules.map tag).Nodup) :
    (rules.filter fun rule => rule.tag ∈ part.map tag) = part := by
  induction sub with
  | slnil => rfl
  | @cons part rules rule sub ih =>
    obtain ⟨fresh, distinct⟩ := List.nodup_cons.mp distinct
    have outside : rule.tag ∉ part.map tag := fun inside => fresh ((sub.map tag).subset inside)
    rw [List.filter_cons_of_neg (by simpa using outside), ih distinct]
  | @cons_cons part rules rule sub ih =>
    obtain ⟨fresh, distinct⟩ := List.nodup_cons.mp distinct
    rw [List.filter_cons_of_pos (by simp)]
    congr 1
    refine (List.filter_congr fun other member => ?_).trans (ih distinct)
    have different : other.tag ≠ rule.tag := fun same =>
      fresh (same ▸ List.mem_map_of_mem member)
    simp [different]

/-- The findings under chosen tags are those of the chosen rules, along the trace of all of
them. -/
theorem filter_run_registry (distinct : (rules.map tag).Nodup) (root : Node)
    (chosen : String → Bool) :
    ((registry rules).run root).filter (fun finding => chosen finding.tag) =
      (root.trace (.imperativeLoop ∈ rules)).flatMap fun reached =>
        (rules.filter fun rule => chosen rule.tag).reverse.flatMap fun rule =>
          rule.findingsAt reached := by
  rw [Registry.run, visit_registry_eq_trace (count_imperativeLoop_le_one distinct),
    List.filter_flatMap]
  refine List.flatMap_congr fun reached _ => ?_
  rw [filter_flatMap_findingsAt, List.filter_reverse]

/-- Rules with different tags are told apart by any one tag, so how they are ordered does not
matter for its findings. -/
theorem filter_tag_eq_of_perm {others : List Rule} (same : others.Perm rules)
    (distinct : (rules.map tag).Nodup) (chosen : String) :
    (others.filter fun rule => rule.tag = chosen) = rules.filter fun rule => rule.tag = chosen := by
  have permuted := same.filter fun rule => rule.tag = chosen
  have alone : (rules.filter fun rule => rule.tag = chosen).length ≤ 1 := by
    have counted := List.nodup_iff_count_le_one.mp distinct chosen
    rwa [List.count_eq_countP, List.countP_map, List.countP_eq_length_filter] at counted
  generalize (rules.filter fun rule => rule.tag = chosen) = found at permuted alone ⊢
  match found with
  | [] => exact List.perm_nil.mp permuted
  | [rule] => exact List.perm_singleton.mp permuted
  | _ :: _ :: _ => simp at alone

/-- Rules left out besides the loop rule take their own findings with them and no others. -/
theorem run_registry_of_sublist (sub : part.Sublist rules) (distinct : (rules.map tag).Nodup)
    (sameLoops : .imperativeLoop ∈ part ↔ .imperativeLoop ∈ rules) (root : Node) :
    (registry part).run root =
      ((registry rules).run root).filter fun finding => finding.tag ∈ part.map tag := by
  have distinctPart : (part.map tag).Nodup := distinct.sublist (sub.map tag)
  rw [filter_run_registry distinct root fun chosen => chosen ∈ part.map tag,
    filter_tag_mem_of_sublist sub distinct, Registry.run,
    visit_registry_eq_trace (count_imperativeLoop_le_one distinctPart)]
  simp only [sameLoops]

/-- Installing the loop rule besides others can only add findings. -/
theorem run_registry_sublist (sub : part.Sublist rules) (distinct : (rules.map tag).Nodup)
    (noLoops : .imperativeLoop ∉ part) (loops : .imperativeLoop ∈ rules) (root : Node) :
    ((registry part).run root).Sublist ((registry rules).run root) := by
  have distinctPart : (part.map tag).Nodup := distinct.sublist (sub.map tag)
  rw [Registry.run, Registry.run,
    visit_registry_eq_trace (count_imperativeLoop_le_one distinctPart),
    visit_registry_eq_trace (count_imperativeLoop_le_one distinct)]
  simp only [noLoops, loops, decide_false, decide_true]
  have fewerRules : ∀ reached ∈ root.trace false,
      (part.reverse.flatMap fun rule => rule.findingsAt reached).Sublist
        (rules.reverse.flatMap fun rule => rule.findingsAt reached) :=
    fun reached _ => sub.reverse.flatMap _
  have fewerNodes := root.trace_false_sublist_trace_true
  exact (List.Sublist.flatMap_right _ fewerRules).trans (fewerNodes.flatMap _)

/-- The findings under one tag do not depend on the order of installation. -/
theorem withTag_run_registry_of_perm {others : List Rule} (same : others.Perm rules)
    (distinct : (rules.map tag).Nodup) (root : Node) (chosen : String) :
    withTag chosen ((registry others).run root) = withTag chosen ((registry rules).run root) := by
  have distinctOthers : (others.map tag).Nodup := (same.map tag).nodup_iff.mpr distinct
  rw [withTag, withTag, filter_run_registry distinctOthers root fun tag => tag = chosen,
    filter_run_registry distinct root fun tag => tag = chosen,
    filter_tag_eq_of_perm same distinct chosen]
  simp only [same.mem_iff]

/-- Stock rules, each installed at most once, do not interfere. Leaving out rules other than the
loop rule filters the findings by tag, leaving out the loop rule as well only takes findings away,
and no order of installation changes what is found under a tag. -/
theorem run_registry_independent (distinct : (rules.map tag).Nodup) (root : Node) :
    (∀ part, part.Sublist rules → (.imperativeLoop ∈ part ↔ .imperativeLoop ∈ rules) →
      (registry part).run root =
        ((registry rules).run root).filter fun finding => finding.tag ∈ part.map tag) ∧
    (∀ part, part.Sublist rules → .imperativeLoop ∉ part → .imperativeLoop ∈ rules →
      ((registry part).run root).Sublist ((registry rules).run root)) ∧
    (∀ others, others.Perm rules → ∀ chosen,
      withTag chosen ((registry rules).run root) =
        withTag chosen ((registry others).run root)) := by
  refine ⟨fun part sub sameLoops => ?_, fun part sub noLoops loops => ?_,
    fun others same chosen => ?_⟩
  · exact run_registry_of_sublist sub distinct sameLoops root
  · exact run_registry_sublist sub distinct noLoops loops root
  · exact (withTag_run_registry_of_perm same distinct root chosen).symm

/-- A loop around a function with four parameters and two returns. -/
def busyLoop : Node :=
  let name (text : String) : Node := { span := default, form := .identifier text }
  let leave : Node := { span := default, form := .returnStatement none }
  let body : Node := { span := default, form := .blockStatement [leave, leave] }
  let function : Node :=
    { span := default
      form := .functionDeclaration none (["a", "b", "c", "d"].map name) body false false }
  { span := default
    form := .program [{ span := default, form := .whileStatement (name "busy") function }] [] }

/-- All four rules at once, out of catalog order, against the loop rule with one other, two rules
without the loop rule, and the opposite order. -/
theorem run_registry_independent_busyLoop :
    let all := [imperativeLoop, tooManyReturns 1, nestedConditional, tooManyParams 3]
    (all.map tag).Nodup ∧
    (registry [imperativeLoop, tooManyParams 3]).run busyLoop =
      ((registry all).run busyLoop).filter (fun finding =>
        finding.tag ∈ [imperativeLoop, tooManyParams 3].map tag) ∧
    ((registry [tooManyReturns 1, tooManyParams 3]).run busyLoop).Sublist
      ((registry all).run busyLoop) ∧
    withTag "TooManyReturns" ((registry all).run busyLoop) =
      withTag "TooManyReturns" ((registry all.reverse).run busyLoop) := by
  intro all
  have distinct : (all.map tag).Nodup := by decide
  obtain ⟨filtered, added, reordered⟩ := run_registry_independent distinct busyLoop
  refine ⟨distinct, ?_, ?_, ?_⟩
  · exact filtered _ (by decide) (by decide)
  · exact added _ (by decide) (by decide) (by decide)
  · exact reordered _ all.reverse_perm _

end Rule

end ScriptLint
