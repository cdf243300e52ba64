import Mathlib.Tactic.MkIffOfInductiveProp
import ScriptLint.Proofs.Grammar.Induction
import ScriptLint.Proofs.Text.Ranges

/-!
# Parts of a construct in source order

A grammar leaves the children of a node inside it, one after the other, and fills the places of a
construct in the order in which its form lists them. Then the origins of a plan are in order too:
what a builder drops, unwraps, spreads out or cuts from a template stays where it was.
-/

namespace ScriptLint

namespace Cst

def range (node : Cst) : Nat × Nat :=
  (node.startByte, node.endByte)

/-- Where the child that fills a place stands among the children. -/
def position? (node : Cst) (place : Field) : Option Nat :=
  node.children.findIdx? (·.label.field == some place)

/-- The places of a construct that hold its sub-nodes, in the order in which its form has them. -/
def places (node : Cst) : List Field :=
  match Construct.ofKind node.kind with
  | .ifStatement | .ternary => [.condition, .consequence, .alternative]
  | .switchStatement => [.value, .body]
  | .declarator => [.name, .value]
  | .forStatement => [.initializer, .condition, .increment, .body]
  | .forEach => [.left, .right, .body]
  | .whileStatement => [.condition, .body]
  | .doStatement => [.body, .condition]
  | .tryStatement => [.body, .handler, .finalizer]
  | .catchClause => [.parameter, .body]
  | .functionDeclaration _ | .functionExpression _ => [.name, .parameters, .body]
  | .arrowFunction =>
    if (node.field? .parameter).isSome then [.parameter, .body] else [.parameters, .body]
  | .pair => [.key, .value]
  | .call => [.function, .arguments]
  | .construction => [.constructor, .arguments]
  | .assignment | .binary => [.left, .right]
  | .member => [.object, .property]
  | .subscript => [.object, .index]
  | _ => []

/-- The range of the node lies in the source and holds those of its children, one after the other.
A template has room for its two backticks, and its substitutions lie between them. -/
@[mk_iff]
structure Placed (source : Bytes) (node : Cst) : Prop where
  forward : node.startByte ≤ node.endByte
  inside : node.endByte ≤ source.length
  contained : ∀ child ∈ node.children,
    node.startByte ≤ child.startByte ∧ child.endByte ≤ node.endByte
  ordered : node.children.Pairwise fun child next => child.endByte ≤ next.startByte
  template : node.kind = "template_string" → node.startByte + 2 ≤ node.endByte ∧
    ∀ child ∈ node.children, child.kind = "template_substitution" →
      node.startByte < child.startByte ∧ child.endByte < node.endByte

/-- The places of the construct are filled in their order, and the value of a case stands before
its statements. -/
@[mk_iff]
structure Arranged (node : Cst) : Prop where
  places : node.places.Pairwise fun earlier later =>
    ∀ i ∈ node.position? earlier, ∀ j ∈ node.position? later, i < j
  caseValue : Construct.ofKind node.kind = .switchCase → ∀ i ∈ node.position? .value,
    ∀ child ∈ node.children.take i, child.isOperand = false

instance (source : Bytes) (node : Cst) : Decidable (node.Placed source) :=
  decidable_of_iff _ (placed_iff source node).symm

instance (node : Cst) : Decidable node.Arranged :=
  decidable_of_iff _ (arranged_iff node).symm

theorem exists_position? {node child : Cst} {place : Field}
    (filled : node.field? place = some child) :
    ∃ i, node.position? place = some i ∧ node.children[i]? = some child := by
  obtain ⟨holds, i, inside, rfl, before⟩ := List.find?_eq_some_iff_getElem.mp filled
  exact ⟨i, List.findIdx?_eq_some_iff_getElem.mpr ⟨inside, holds, by simpa using before⟩,
    List.getElem?_eq_getElem inside⟩

/-- The node and everything below it is placed and arranged. -/
structure Laid (source : Bytes) (node : Cst) : Prop where
  placed : ∀ inner ∈ node.nodes, inner.Placed source
  arranged : ∀ inner ∈ node.nodes, inner.Arranged

namespace Laid

variable {source : Bytes} {node inner : Cst}

theorem of_mem (laid : node.Laid source) (member : inner ∈ node.nodes) : inner.Laid source :=
  ⟨fun other below => laid.placed other (mem_nodes_trans member below),
    fun other below => laid.arranged other (mem_nodes_trans member below)⟩

theorem field? {place : Field} (laid : node.Laid source) (filled : node.field? place = some inner) :
    inner.Laid source :=
  laid.of_mem (mem_nodes_of_field? filled)

theorem operand (laid : node.Laid source) (member : inner ∈ node.operands) : inner.Laid source :=
  laid.of_mem (mem_nodes_of_operand member)

theorem own (laid : node.Laid source) : node.Placed source :=
  laid.placed node node.mem_nodes_self

theorem inOrder_self (laid : node.Laid source) : InOrder node.startByte node.endByte [node.range] :=
  ⟨Nat.le_refl _, laid.own.forward, Nat.le_refl _⟩

theorem inOrder_child (laid : node.Laid source) (isChild : inner ∈ node.children) :
    InOrder node.startByte node.endByte [inner.range] := by
  have below := laid.placed inner (mem_nodes_of_child isChild inner.mem_nodes_self)
  exact ⟨(laid.own.contained inner isChild).1, below.forward, (laid.own.contained inner isChild).2⟩

/-- Children that stand one after the other are in order. -/
theorem inOrder_of_pairwise (laid : node.Laid source) {parts : List Cst}
    (among : ∀ part ∈ parts, part ∈ node.children)
    (disjoint : parts.Pairwise fun part next => part.endByte ≤ next.startByte) :
    InOrder node.startByte node.endByte (parts.map range) := by
  refine .of_pairwise laid.own.forward ?_ (List.pairwise_map.mpr disjoint)
  simp only [List.forall_mem_map]
  exact fun part member => laid.inOrder_child (among part member)

theorem inOrder_of_sublist (laid : node.Laid source) {parts : List Cst}
    (part : parts.Sublist node.children) :
    InOrder node.startByte node.endByte (parts.map range) :=
  laid.inOrder_of_pairwise (fun _ member => part.subset member) (laid.own.ordered.sublist part)

theorem inOrder_operands (laid : node.Laid source) :
    InOrder node.startByte node.endByte (node.operands.map range) :=
  laid.inOrder_of_sublist List.filter_sublist

/-- What fills the places of a construct is in the order of the places. -/
theorem inOrder_places (laid : node.Laid source) :
    InOrder node.startByte node.endByte
      ((node.places.flatMap fun place => (node.field? place).toList).map range) := by
  rw [← List.filterMap_eq_flatMap_toList]
  refine laid.inOrder_of_pairwise ?_ (List.pairwise_filterMap.mpr ?_)
  · intro part member
    obtain ⟨place, -, filled⟩ := List.mem_filterMap.mp member
    exact mem_children_of_field? filled
  · refine (laid.arranged node node.mem_nodes_self).places.imp ?_
    intro earlier later before first isFirst second isSecond
    obtain ⟨i, atFirst, isFirst⟩ := exists_position? isFirst
    obtain ⟨j, atSecond, isSecond⟩ := exists_position? isSecond
    obtain ⟨insideFirst, rfl⟩ := List.getElem?_eq_some_iff.mp isFirst
    obtain ⟨insideSecond, rfl⟩ := List.getElem?_eq_some_iff.mp isSecond
    exact List.pairwise_iff_getElem.mp laid.own.ordered i j insideFirst insideSecond
      (before i atFirst j atSecond)

theorem inOrder_sequenceOperands (laid : node.Laid source) :
    InOrder node.startByte node.endByte (node.sequenceOperands.map range) := by
  induction node using childInduction with
  | step node ih =>
    rw [sequenceOperands_eq, List.map_flatMap]
    refine laid.inOrder_operands.flatMap fun operand member => ?_
    have below := laid.operand member
    split
    · exact ih operand (mem_children_of_operand member) below
    · exact below.inOrder_self

end Laid

end Cst

namespace Lowering

open Cst (Laid)

/-- The bytes that an origin stands for. -/
def Origin.range : Origin → Nat × Nat
  | .part inner => inner.range
  | .target _ inner => inner.range
  | .name inner => inner.range
  | .piece range => range

@[simp]
theorem Origin.range_part (inner : Cst) : (Origin.part inner).range = inner.range := rfl

@[simp]
theorem Origin.range_comp_part : Origin.range ∘ Origin.part = Cst.range := rfl

section Order

variable {source : Bytes} {node : Cst} {plan : Form Origin} {start stop : Nat}

/-- Whatever is in order inside a slot may stand for it. -/
theorem inOrder_of_slot {slot : Option Cst} {inner : List (Nat × Nat)}
    (ordered : InOrder start stop (slot.toList.map Cst.range)) (empty : slot = none → inner = [])
    (within : ∀ child ∈ slot, InOrder child.startByte child.endByte inner) :
    InOrder start stop inner := by
  cases slot with
  | none => simpa [empty rfl] using ordered
  | some child => exact ordered.within (within child rfl)

theorem inOrder_params (laid : node.Laid source) {parts : List Cst}
    (planned : paramParts node = some parts)
    (ordered : InOrder start stop ((node.field? .parameters).toList.map Cst.range)) :
    InOrder start stop (parts.map Cst.range) := by
  unfold paramParts at planned
  refine inOrder_of_slot ordered ?_ ?_
  · intro missing
    simp only [missing, Option.some.injEq] at planned
    simp [← planned]
  · intro list filled
    simp only [Option.mem_def.mp filled] at planned
    have laidList := laid.field? filled
    have picked := (List.forall₂_and_left _ _).mpr
      ⟨fun item => laidList.operand, forall₂_of_mapM planned⟩
    refine laidList.inOrder_operands.narrow (picked.imp ?_)
    rintro param part ⟨laidParam, isPart⟩ -
    split at isPart
    · exact laidParam.inOrder_child (Cst.mem_children_of_field? isPart)
    · cases isPart
      exact laidParam.inOrder_self

theorem inOrder_function (laid : node.Laid source) {params : List Cst}
    (planned : paramParts node = some params) {name body : List (Nat × Nat)}
    (ordered : InOrder start stop
      (name ++ ((node.field? .parameters).toList.map Cst.range ++ body))) :
    InOrder start stop (name ++ (params.map Cst.range ++ body)) := by
  obtain ⟨_, atName, later⟩ := ordered.of_append
  obtain ⟨_, atParams, atBody⟩ := later.of_append
  exact atName.append ((inOrder_params laid planned atParams).append atBody)

theorem inOrder_clause (laid : node.Laid source) {place : Field} {part : Option Cst}
    (planned : clausePart (node.field? place) = some part)
    (ordered : InOrder start stop ((node.field? place).toList.map Cst.range)) :
    InOrder start stop (part.toList.map Cst.range) := by
  unfold clausePart at planned
  refine inOrder_of_slot ordered ?_ ?_
  · intro missing
    simp only [missing, Option.some.injEq] at planned
    simp [← planned]
  · intro clause filled
    have laidClause := laid.field? filled
    simp only [Option.mem_def.mp filled] at planned
    split at planned
    · cases planned
      exact laidClause.own.forward
    · split at planned
      · obtain ⟨inner, first, rfl⟩ := Option.map_eq_some_iff.mp planned
        exact laidClause.inOrder_child
          (Cst.mem_children_of_operand (List.mem_of_mem_head? first))
      · cases planned
        exact laidClause.inOrder_self

theorem inOrder_finalizer (laid : node.Laid source) {part : Option Cst}
    (planned : finalizerPart node = some part)
    (ordered : InOrder start stop ((node.field? .finalizer).toList.map Cst.range)) :
    InOrder start stop (part.toList.map Cst.range) := by
  unfold finalizerPart at planned
  refine inOrder_of_slot ordered ?_ ?_
  · intro missing
    simp only [missing, Option.some.injEq] at planned
    simp [← planned]
  · intro clause filled
    simp only [Option.mem_def.mp filled] at planned
    obtain ⟨body, hasBody, rfl⟩ := Option.map_eq_some_iff.mp planned
    exact (laid.field? filled).inOrder_child (Cst.mem_children_of_field? hasBody)

theorem inOrder_arguments {list : Cst} (laid : list.Laid source) :
    InOrder list.startByte list.endByte ((argumentParts list).map Cst.range) := by
  unfold argumentParts
  split
  · exact laid.inOrder_operands
  · exact laid.inOrder_self

theorem inOrder_key {key part : Cst} (laid : key.Laid source) (planned : keyPart key = some part) :
    InOrder key.startByte key.endByte [part.range] := by
  unfold keyPart at planned
  split at planned
  · exact laid.inOrder_child (Cst.mem_children_of_operand (List.mem_of_mem_head? planned))
  · cases planned
    exact laid.inOrder_self

/-- The value of a case stands before its statements. -/
theorem inOrder_case (laid : node.Laid source)
    (known : Construct.ofKind node.kind = .switchCase) :
    InOrder node.startByte node.endByte
      (((node.field? .value).toList ++ caseStatements node).map Cst.range) := by
  refine laid.inOrder_of_sublist ?_
  cases filled : node.field? .value with
  | none => exact List.filter_sublist.trans List.eraseP_sublist
  | some value =>
    obtain ⟨holds, before, after, split, others⟩ := List.find?_eq_some_iff_append.mp filled
    have found : node.position? .value = some before.length := by
      rw [Cst.position?, split, List.findIdx?_append,
        List.findIdx?_eq_none_iff.mpr (by simpa using others)]
      simp [List.findIdx?_cons, holds]
    have none := (laid.arranged node node.mem_nodes_self).caseValue known _ found
    have erased : node.children.eraseP (·.label.field == some .value) = before ++ after := by
      rw [split, List.eraseP_append_right _ (by simpa using others)]
      simp [holds]
    have nothing : before.filter Cst.isOperand = [] :=
      List.filter_eq_nil_iff.mpr (by simpa [split] using none)
    rw [caseStatements, erased, List.filter_append, nothing, List.nil_append, split]
    exact ((List.filter_sublist).cons_cons value).trans (List.sublist_append_right before _)

/-- Text pieces and substitutions take turns. -/
theorem inOrder_template {cursor close : Nat} {substitutions parts : List Cst}
    (ordered : InOrder cursor close (substitutions.map Cst.range))
    (within : List.Forall₂ (fun substitution part =>
      InOrder substitution.startByte substitution.endByte [part.range]) substitutions parts) :
    InOrder cursor close
      (Form.interleave (quasiRanges cursor close substitutions) (parts.map Cst.range)) := by
  induction within generalizing cursor with
  | nil => exact ⟨Nat.le_refl _, Nat.le_max_right .., Nat.max_le.mpr ⟨Nat.le_refl _, ordered⟩⟩
  | cons inside _ ih =>
    obtain ⟨starts, -, later⟩ := ordered
    obtain ⟨before, forward, after⟩ := inside
    exact ⟨Nat.le_refl _, starts, before, forward, (ih later).widen after (Nat.le_refl _)⟩

/-- The text pieces and expressions of a template take turns between its backticks. -/
theorem inOrder_pieces (laid : node.Laid source) (known : Construct.ofKind node.kind = .template)
    {parts : List Cst} (picked : (substitutions node).mapM (·.operands.head?) = some parts) :
    InOrder node.startByte node.endByte
      (Form.interleave (pieceRanges node) (parts.map Cst.range)) := by
  obtain ⟨room, between⟩ := laid.own.template (kind_of_template known)
  have among : (substitutions node).Sublist node.children :=
    List.filter_sublist.trans List.filter_sublist
  have ordered : InOrder (node.startByte + 1) (node.endByte - 1)
      ((substitutions node).map Cst.range) := by
    refine .of_pairwise (by omega) ?_ (laid.inOrder_of_sublist among).pairwise
    simp only [List.forall_mem_map]
    intro substitution member
    have inside := between substitution (among.subset member)
      (by simpa using (List.mem_filter.mp member).2)
    obtain ⟨-, forward, -⟩ := laid.inOrder_child (among.subset member)
    simp only [Cst.range] at forward ⊢
    omega
  have within : List.Forall₂ (fun substitution part =>
      InOrder substitution.startByte substitution.endByte [part.range])
      (substitutions node) parts := by
    have laidEach : ∀ substitution ∈ substitutions node, substitution.Laid source :=
      fun _ member => laid.operand (List.mem_filter.mp member).1
    refine ((List.forall₂_and_left _ _).mpr ⟨laidEach, forall₂_of_mapM picked⟩).imp ?_
    rintro substitution part ⟨laidSubstitution, first⟩
    exact laidSubstitution.inOrder_child
      (Cst.mem_children_of_operand (List.mem_of_mem_head? first))
  have close : max (node.endByte - 1) (node.startByte + 1) = node.endByte - 1 := by omega
  rw [pieceRanges, close]
  exact (inOrder_template ordered within).widen (Nat.le_succ _) (Nat.sub_le _ _)

/-- The origins that a plan shows are in order between the ends of the construct. -/
theorem inOrder_of_plan (laid : node.Laid source) : ∀ plan, plan? source node = some plan →
    InOrder node.startByte node.endByte (plan.children.map Origin.range) := by
  have slots := laid.inOrder_places
  cases known : Construct.ofKind node.kind <;>
    simp only [plan?, known, programPlan, Option.bind_eq_bind, forall_bind_eq_some_iff,
      Option.pure_def, Option.some.injEq, reduceCtorEq, forall_eq', false_imp_iff, implies_true,
      Cst.places, List.flatMap_cons, List.flatMap_nil, List.append_nil,
      List.map_append] at slots ⊢
  case program => simpa [Form.children, Form.fields] using laid.inOrder_operands
  case block => simpa [Form.children, Form.fields] using laid.inOrder_operands
  case array => simpa [Form.children, Form.fields] using laid.inOrder_operands
  case object => simpa [Form.children, Form.fields] using laid.inOrder_operands
  case other => simpa [Form.children, Form.fields] using laid.inOrder_operands
  case expressionStatement =>
    intro inner first
    exact laid.inOrder_child (Cst.mem_children_of_operand (List.mem_of_mem_head? first))
  case returnStatement =>
    cases first : node.operands.head? with
    | none => exact laid.own.forward
    | some inner =>
      exact laid.inOrder_child (Cst.mem_children_of_operand (List.mem_of_mem_head? first))
  case switchStatement =>
    intro value hasValue body hasBody
    simp only [hasValue, hasBody, Option.toList_some, List.map_cons, List.map_nil] at slots
    obtain ⟨_, atValue, atBody⟩ := slots.of_append
    simpa [Form.children, Form.fields] using
      atValue.append (atBody.within (laid.field? hasBody).inOrder_operands)
  case switchCase =>
    simpa [Form.children, Form.fields, Option.toList_map] using inOrder_case laid known
  case declaration =>
    intro keyword _
    have among : (declarators node).Sublist node.children :=
      List.filter_sublist.trans List.filter_sublist
    simpa [Form.children, Form.fields] using laid.inOrder_of_sublist among
  case forStatement =>
    intro init hasInit test hasTest body hasBody
    obtain ⟨_, atInit, slots⟩ := slots.of_append
    obtain ⟨_, atTest, slots⟩ := slots.of_append
    have clauses := (inOrder_clause laid hasInit atInit).append
      ((inOrder_clause laid hasTest atTest).append slots)
    simpa [Form.children, Form.fields, hasBody, Option.toList_map] using clauses
  case forEach =>
    intro target hasTarget left isLeft right hasRight body hasBody
    have same : left.range = target.range := by
      obtain rfl | ⟨keyword, rfl⟩ := eq_of_targetPart isLeft <;> rfl
    split <;>
      simpa [Form.children, Form.fields, same, hasTarget, hasRight, hasBody] using slots
  case tryStatement =>
    intro body hasBody finalizer hasFinalizer
    obtain ⟨_, atBody, slots⟩ := slots.of_append
    obtain ⟨_, atHandler, atFinalizer⟩ := slots.of_append
    have parts := atBody.append (atHandler.append (inOrder_finalizer laid hasFinalizer atFinalizer))
    simpa [Form.children, Form.fields, hasBody, Option.toList_map] using parts
  case functionDeclaration =>
    intro params hasParams body hasBody
    simpa [Form.children, Form.fields, hasBody, Option.toList_map] using
      inOrder_function laid hasParams slots
  case functionExpression =>
    intro params hasParams body hasBody
    simpa [Form.children, Form.fields, hasBody, Option.toList_map] using
      inOrder_function laid hasParams slots
  case arrowFunction =>
    intro params hasParams body hasBody
    unfold arrowParts at hasParams
    cases single : node.field? .parameter with
    | some param =>
      simp only [single, Option.some.injEq] at hasParams
      subst hasParams
      simpa [Form.children, Form.fields, single, hasBody] using slots
    | none =>
      simp only [single] at hasParams
      simp only [single, Option.isSome_none, Bool.false_eq_true, if_false, List.flatMap_cons,
        List.flatMap_nil, List.append_nil, List.map_append] at slots
      obtain ⟨_, atParams, atBody⟩ := slots.of_append
      simpa [Form.children, Form.fields, hasBody] using
        (inOrder_params laid hasParams atParams).append atBody
  case pair =>
    intro key hasKey part hasPart value hasValue
    simp only [hasKey, hasValue, Option.toList_some, List.map_cons, List.map_nil] at slots
    obtain ⟨_, atKey, atValue⟩ := slots.of_append
    simpa [Form.children, Form.fields] using
      (atKey.within (inOrder_key (laid.field? hasKey) hasPart)).append atValue
  case shorthand => exact laid.inOrder_self
  case call =>
    intro list hasList callee hasCallee
    simp only [hasList, hasCallee, Option.toList_some, List.map_cons, List.map_nil] at slots
    obtain ⟨_, atCallee, atList⟩ := slots.of_append
    simpa [Form.children, Form.fields] using
      atCallee.append (atList.within (inOrder_arguments (laid.field? hasList)))
  case construction =>
    intro callee hasCallee
    obtain ⟨middle, atCallee, atList⟩ := slots.of_append
    have atArguments : InOrder middle node.endByte
        (((node.field? .arguments).elim [] Cst.operands).map Cst.range) := by
      refine inOrder_of_slot atList (fun missing => by simp [missing]) fun list filled => ?_
      rw [Option.mem_def.mp filled]
      exact (laid.field? filled).inOrder_operands
    simpa [Form.children, Form.fields, hasCallee] using atCallee.append atArguments
  case unary =>
    intro operator _ argument hasArgument
    exact laid.inOrder_child (Cst.mem_children_of_field? hasArgument)
  case update =>
    intro operator _ argument hasArgument
    exact laid.inOrder_child (Cst.mem_children_of_field? hasArgument)
  case binary =>
    intro operator _ left hasLeft right hasRight
    split <;> simpa [Form.children, Form.fields, hasLeft, hasRight] using slots
  case sequence => simpa [Form.children, Form.fields] using laid.inOrder_sequenceOperands
  case template =>
    intro expressions picked
    have whole : Origin.range ∘ Origin.piece = id := rfl
    simpa only [Form.children, ← Form.interleave_map, List.map_map, Origin.range_comp_part, whole,
      List.map_id] using inOrder_pieces laid known picked
  case this => exact laid.own.forward
  case identifier => exact laid.own.forward
  case literal => exact laid.own.forward
  -- The other constructs show what fills their places.
  all_goals
    intros
    simp_all [Form.children, Form.fields, Option.toList_map]

end Order

end Lowering

end ScriptLint
