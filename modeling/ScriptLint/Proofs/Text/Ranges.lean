import Mathlib.Data.List.Forall2

/-!
# Byte ranges in order

A list of ranges is in order between two offsets if each range starts where the one before it ends,
or later. The definition moves a cursor along the list, so lists are put together at an offset
that the first ends before and the second starts after, and a range may be replaced by anything
that is in order inside it. Ranges that also leave nothing out tile the space between the offsets.
-/

namespace ScriptLint

/-- The ranges lie between the two offsets, none reversed, each after the one before it. -/
def InOrder (start stop : Nat) : List (Nat × Nat) → Prop
  | [] => start ≤ stop
  | range :: rest => start ≤ range.1 ∧ range.1 ≤ range.2 ∧ InOrder range.2 stop rest

namespace InOrder

variable {start stop : Nat} {ranges first second : List (Nat × Nat)}

theorem le (ordered : InOrder start stop ranges) : start ≤ stop := by
  induction ranges generalizing start with
  | nil => exact ordered
  | cons range rest ih =>
    have later := ih ordered.2.2
    have := ordered.1
    have := ordered.2.1
    omega

theorem widen {start' stop' : Nat} (ordered : InOrder start stop ranges) (before : start' ≤ start)
    (after : stop ≤ stop') : InOrder start' stop' ranges := by
  induction ranges generalizing start start' with
  | nil =>
    simp only [InOrder] at ordered ⊢
    omega
  | cons range rest ih =>
    exact ⟨Nat.le_trans before ordered.1, ordered.2.1, ih ordered.2.2 (Nat.le_refl _)⟩

theorem append {middle : Nat} (before : InOrder start middle first)
    (after : InOrder middle stop second) : InOrder start stop (first ++ second) := by
  induction first generalizing start with
  | nil => exact after.widen before (Nat.le_refl _)
  | cons range rest ih => exact ⟨before.1, before.2.1, ih before.2.2⟩

theorem of_append (ordered : InOrder start stop (first ++ second)) :
    ∃ middle, InOrder start middle first ∧ InOrder middle stop second := by
  induction first generalizing start with
  | nil => exact ⟨start, Nat.le_refl _, ordered⟩
  | cons range rest ih =>
    obtain ⟨middle, before, after⟩ := ih ordered.2.2
    exact ⟨middle, ⟨ordered.1, ordered.2.1, before⟩, after⟩

theorem sublist (ordered : InOrder start stop second) (part : first.Sublist second) :
    InOrder start stop first := by
  induction part generalizing start with
  | slnil => exact ordered
  | cons range _ ih =>
    exact ih (ordered.2.2.widen (Nat.le_trans ordered.1 ordered.2.1) (Nat.le_refl _))
  | cons_cons range _ ih => exact ⟨ordered.1, ordered.2.1, ih ordered.2.2⟩

/-- What is in order inside a range may stand in its place. -/
theorem within {range : Nat × Nat} {inner : List (Nat × Nat)} (ordered : InOrder start stop [range])
    (inside : InOrder range.1 range.2 inner) : InOrder start stop inner :=
  inside.widen ordered.1 ordered.2.2

theorem of_mem (ordered : InOrder start stop ranges) {range : Nat × Nat} (member : range ∈ ranges) :
    start ≤ range.1 ∧ range.1 ≤ range.2 ∧ range.2 ≤ stop :=
  ordered.sublist (List.singleton_sublist.mpr member)

theorem pairwise (ordered : InOrder start stop ranges) :
    ranges.Pairwise fun range next => range.2 ≤ next.1 := by
  induction ranges generalizing start with
  | nil => exact .nil
  | cons range rest ih =>
    exact .cons (fun next member => (ordered.2.2.of_mem member).1) (ih ordered.2.2)

theorem of_pairwise (forward : start ≤ stop)
    (inside : ∀ range ∈ ranges, start ≤ range.1 ∧ range.1 ≤ range.2 ∧ range.2 ≤ stop)
    (disjoint : ranges.Pairwise fun range next => range.2 ≤ next.1) :
    InOrder start stop ranges := by
  induction disjoint generalizing start with
  | nil => exact forward
  | @cons range rest before _ ih =>
    simp only [List.forall_mem_cons] at inside
    obtain ⟨⟨after, along, within⟩, others⟩ := inside
    exact ⟨after, along, ih within fun next member => ⟨before next member, (others next member).2⟩⟩

/-- Replacing every range by one inside it keeps the order. -/
theorem narrow {α β : Type} {outer : α → Nat × Nat} {inner : β → Nat × Nat} {items : List α}
    {parts : List β} (ordered : InOrder start stop (items.map outer))
    (within : List.Forall₂ (fun item part => (outer item).1 ≤ (outer item).2 →
      InOrder (outer item).1 (outer item).2 [inner part]) items parts) :
    InOrder start stop (parts.map inner) := by
  induction within generalizing start with
  | nil => exact ordered
  | cons fits _ ih =>
    obtain ⟨after, along, rest⟩ := ordered
    obtain ⟨starts, forward, ends⟩ := fits along
    exact ⟨Nat.le_trans after starts, forward, (ih rest).widen ends (Nat.le_refl _)⟩

/-- Replacing every range by ranges that are in order inside it keeps the order. -/
theorem flatMap {α : Type} {outer : α → Nat × Nat} {inner : α → List (Nat × Nat)} {items : List α}
    (ordered : InOrder start stop (items.map outer))
    (within : ∀ item ∈ items, InOrder (outer item).1 (outer item).2 (inner item)) :
    InOrder start stop (items.flatMap inner) := by
  induction items generalizing start with
  | nil => exact ordered
  | cons item rest ih =>
    obtain ⟨after, -, later⟩ := ordered
    simp only [List.forall_mem_cons] at within
    rw [List.flatMap_cons]
    exact (within.1.widen after (Nat.le_refl _)).append (ih later within.2)

end InOrder

/-- The ranges fill the space between the two offsets, none reversed, each where the one before it
ends. -/
def Tiles (start stop : Nat) : List (Nat × Nat) → Prop
  | [] => start = stop
  | range :: rest => range.1 = start ∧ range.1 ≤ range.2 ∧ Tiles range.2 stop rest

theorem Tiles.inOrder {start stop : Nat} {ranges : List (Nat × Nat)}
    (tiles : Tiles start stop ranges) : InOrder start stop ranges := by
  induction ranges generalizing start with
  | nil => exact Nat.le_of_eq tiles
  | cons range rest ih => exact ⟨Nat.le_of_eq tiles.1.symm, tiles.2.1, ih tiles.2.2⟩

end ScriptLint
