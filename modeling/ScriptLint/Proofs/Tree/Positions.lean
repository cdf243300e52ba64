import ScriptLint.Text.Bytes
import ScriptLint.Tree.Span

/-!
# Positions grow with offsets

The line of an offset counts the line ends before it, and its column counts the bytes since the last
of them. From one offset to a later one the line grows by the line ends in between, and if there are
none the column grows by the bytes in between. So positions are in the order of their offsets, and
two offsets within a source never share one.
-/

namespace ScriptLint

variable {source : List UInt8} {start stop : Nat}

theorem Bytes.take_append_slice (source : Bytes) (ordered : start ≤ stop) :
    source.take start ++ source.slice start stop = source.take stop := by
  rw [slice, ← List.take_add, Nat.add_sub_cancel' ordered]

theorem Bytes.length_slice (inside : stop ≤ source.length) :
    (slice source start stop).length = stop - start := by
  rw [slice, List.length_take, List.length_drop]
  omega

namespace Position

/-! ## From one offset to another -/

theorem line_ofOffset_eq_add (source : List UInt8) (ordered : start ≤ stop) :
    (ofOffset source stop).line =
      (ofOffset source start).line + (Bytes.slice source start stop).count newlineByte := by
  simp only [ofOffset, ← Bytes.take_append_slice source ordered, List.count_append]
  omega

/-- On one line the column counts on. -/
theorem column_ofOffset_eq_add (ordered : start ≤ stop)
    (unbroken : newlineByte ∉ Bytes.slice source start stop) :
    (ofOffset source stop).column =
      (ofOffset source start).column + (Bytes.slice source start stop).length := by
  have counted : ∀ byte ∈ (Bytes.slice source start stop).reverse,
      (byte != newlineByte) = true := by
    intro byte member
    rw [List.mem_reverse] at member
    simp only [bne_iff_ne]
    rintro rfl
    exact unbroken member
  simp only [ofOffset, ← Bytes.take_append_slice source ordered, List.reverse_append]
  rw [List.takeWhile_append_of_pos counted, List.length_append, List.length_reverse]
  omega

theorem ofOffset_line_le (source : List UInt8) (ordered : start ≤ stop) :
    (ofOffset source start).line ≤ (ofOffset source stop).line := by
  rw [line_ofOffset_eq_add source ordered]
  exact Nat.le_add_right _ _

theorem ofOffset_column_le (ordered : start ≤ stop)
    (sameLine : (ofOffset source start).line = (ofOffset source stop).line) :
    (ofOffset source start).column ≤ (ofOffset source stop).column := by
  rw [line_ofOffset_eq_add source ordered] at sameLine
  have unbroken : newlineByte ∉ Bytes.slice source start stop :=
    List.count_eq_zero.mp (by omega)
  rw [column_ofOffset_eq_add ordered unbroken]
  exact Nat.le_add_right _ _

end Position

/-- A span that is not reversed ends on a later line than it starts on, or on the same line and no
earlier column. -/
theorem Span.ofBytes_forward (source : List UInt8) (ordered : start ≤ stop) :
    (ofBytes source start stop).startLine < (ofBytes source start stop).endLine ∨
      (ofBytes source start stop).startLine = (ofBytes source start stop).endLine ∧
        (ofBytes source start stop).startCol ≤ (ofBytes source start stop).endCol := by
  obtain later | sameLine := Nat.lt_or_eq_of_le (Position.ofOffset_line_le source ordered)
  · exact .inl later
  · exact .inr ⟨sameLine, Position.ofOffset_column_le ordered sameLine⟩

/-! ## Lines covered by a span -/

/-- A span of a source touches one line more than it has line ends, as far as 64 bits can tell. -/
theorem Span.lineCount_ofBytes (source : List UInt8) (ordered : start ≤ stop) :
    (ofBytes source start stop).lineCount =
      ((Bytes.slice source start stop).count newlineByte + 1) % 18446744073709551616 := by
  have grown := Position.line_ofOffset_eq_add source ordered
  simp only [lineCount, ofBytes, grown, Nat.add_sub_cancel_left]

namespace Position

/-! ## Starts of lines -/

/-- The line of an offset starts at the start of the source or behind a line end, and no line ends
between there and the offset. -/
structure IsLineStart (source : List UInt8) (offset start : Nat) : Prop where
  le : start ≤ offset
  behind : start = 0 ∨ source[start - 1]? = some newlineByte
  unbroken : newlineByte ∉ Bytes.slice source start offset

/-- Bytes end with an unfinished line, as long as one can go back without meeting a line end. -/
theorem exists_lastLine (before : Bytes) :
    ∃ front line, before = front ++ line ∧ newlineByte ∉ line ∧
      line.length = (before.reverse.takeWhile (· != newlineByte)).length ∧
      (front = [] ∨ ∃ earlier, front = earlier ++ [newlineByte]) := by
  refine ⟨(before.reverse.dropWhile (· != newlineByte)).reverse,
    (before.reverse.takeWhile (· != newlineByte)).reverse, ?_, ?_, List.length_reverse, ?_⟩
  · rw [← List.reverse_append, List.takeWhile_append_dropWhile, List.reverse_reverse]
  · intro member
    have passed := List.all_eq_true.mp
      (List.all_takeWhile (p := (· != newlineByte)) (l := before.reverse))
    simpa using passed _ (List.mem_reverse.mp member)
  · have stopped := List.head?_dropWhile_not (· != newlineByte) before.reverse
    cases known : before.reverse.dropWhile (· != newlineByte) with
    | nil => exact .inl rfl
    | cons byte earlier =>
      -- The search stopped at this byte.
      obtain rfl : byte = newlineByte := by simpa [known] using stopped
      exact .inr ⟨earlier.reverse, List.reverse_cons⟩

/-- The column of an offset counts from the start of its line. -/
theorem exists_isLineStart {offset : Nat} (inside : offset ≤ source.length) :
    ∃ start, IsLineStart source offset start ∧
      (ofOffset source offset).column = offset - start + 1 := by
  obtain ⟨front, line, split, unbroken, length, starts⟩ := exists_lastLine (source.take offset)
  have lengths : offset = front.length + line.length := by
    simpa [inside] using congrArg List.length split
  have cut : Bytes.slice source front.length offset = line := by
    rw [Bytes.slice, ← List.drop_take, split, List.drop_left]
  refine ⟨front.length, ⟨by omega, ?_, cut ▸ unbroken⟩, ?_⟩
  · obtain rfl | ⟨earlier, rfl⟩ := starts
    · exact .inl rfl
    · right
      rw [List.length_append, List.length_singleton] at lengths ⊢
      have there : (source.take offset)[earlier.length]? = some newlineByte := by
        simp [split]
      rw [Nat.add_sub_cancel, ← there, List.getElem?_take_of_lt (by omega)]
  · have column : (ofOffset source offset).column =
        ((source.take offset).reverse.takeWhile (· != newlineByte)).length + 1 := rfl
    omega

theorem ofOffset_of_length_le {offset : Nat} (outside : source.length ≤ offset) :
    ofOffset source offset = ofOffset source source.length := by
  simp only [ofOffset, List.take_of_length_le outside, List.take_length]

/-! ## Order -/

/-- On an earlier line, or on the same line at an earlier column. -/
def Before (position later : Position) : Prop :=
  position.line < later.line ∨ position.line = later.line ∧ position.column < later.column

theorem Before.asymm {position later : Position} (before : position.Before later) :
    ¬ later.Before position := by
  simp only [Before] at before ⊢
  omega

theorem Before.ne {position later : Position} (before : position.Before later) :
    position ≠ later := by
  rintro rfl
  exact before.asymm before

theorem before_of_lt (ordered : start < stop) (inside : stop ≤ source.length) :
    (ofOffset source start).Before (ofOffset source stop) := by
  have forward := Nat.le_of_lt ordered
  by_cases broken : newlineByte ∈ Bytes.slice source start stop
  · left
    have positive := List.count_pos_iff.mpr broken
    rw [line_ofOffset_eq_add source forward]
    omega
  · right
    rw [line_ofOffset_eq_add source forward, column_ofOffset_eq_add forward broken,
      List.count_eq_zero.mpr broken, Bytes.length_slice inside]
    omega

theorem eq_of_ofOffset_eq {first second : Nat} (firstInside : first ≤ source.length)
    (secondInside : second ≤ source.length)
    (same : ofOffset source first = ofOffset source second) : first = second := by
  obtain less | equal | greater := Nat.lt_trichotomy first second
  · exact absurd same (before_of_lt less secondInside).ne
  · exact equal
  · exact absurd same.symm (before_of_lt greater firstInside).ne

theorem before_ofOffset_iff {first second : Nat} (firstInside : first ≤ source.length)
    (secondInside : second ≤ source.length) :
    (ofOffset source first).Before (ofOffset source second) ↔ first < second := by
  refine ⟨fun before => ?_, fun less => before_of_lt less secondInside⟩
  obtain less | equal | greater := Nat.lt_trichotomy first second
  · exact less
  · exact absurd (congrArg (ofOffset source) equal) before.ne
  · exact absurd (before_of_lt greater firstInside) before.asymm

/-- Positions within a source come in the order of their offsets, and none is shared. Lines and
columns count from one, the column from the start of the line; an offset past the end stands for the
end. A span touches one line more than it has line ends, and its 64 bits can count them unless the
source is of the largest length that 64 bits can tell, or longer. -/
theorem ofOffset_tells_offset (source : Bytes) :
    (∀ first second, first ≤ source.length → second ≤ source.length →
      ((ofOffset source first).Before (ofOffset source second) ↔ first < second) ∧
      (ofOffset source first = ofOffset source second → first = second)) ∧
    (∀ offset, 1 ≤ (ofOffset source offset).line ∧ 1 ≤ (ofOffset source offset).column ∧
      ∃ start, IsLineStart source (min offset source.length) start ∧
        (ofOffset source offset).column = min offset source.length - start + 1) ∧
    (∀ offset, source.length ≤ offset →
      ofOffset source offset = ofOffset source source.length) ∧
    ∀ start stop, start ≤ stop → stop ≤ source.length →
      (Span.ofBytes source start stop).lineCount =
        ((source.slice start stop).count newlineByte + 1) % 18446744073709551616 ∧
      (source.length + 1 < 18446744073709551616 →
        (Span.ofBytes source start stop).lineCount =
          (source.slice start stop).count newlineByte + 1) := by
  refine ⟨?_, ?_, fun offset => ofOffset_of_length_le, ?_⟩
  · intro first second firstInside secondInside
    exact ⟨before_ofOffset_iff firstInside secondInside,
      eq_of_ofOffset_eq firstInside secondInside⟩
  · intro offset
    refine ⟨Nat.le_add_left _ _, Nat.le_add_left _ _, ?_⟩
    have clamped : ofOffset source offset = ofOffset source (min offset source.length) := by
      obtain inside | outside := Nat.le_total offset source.length
      · rw [Nat.min_eq_left inside]
      · rw [Nat.min_eq_right outside, ofOffset_of_length_le outside]
    rw [clamped]
    exact exists_isLineStart (Nat.min_le_right _ _)
  · intro start stop ordered inside
    have counted := Span.lineCount_ofBytes source ordered
    refine ⟨counted, fun fits => ?_⟩
    have few : (source.slice start stop).count newlineByte ≤ stop - start :=
      Bytes.length_slice inside ▸ List.count_le_length
    rw [counted, Nat.mod_eq_of_lt (by omega)]

/-- Two line ends in a row, with a byte behind them. -/
theorem ofOffset_tells_offset_emptyLine :
    (ofOffset [10, 10, 97] 1).Before (ofOffset [10, 10, 97] 2) ∧
      (ofOffset [10, 10, 97] 2).Before (ofOffset [10, 10, 97] 3) ∧
      ofOffset [10, 10, 97] 7 = ⟨3, 2⟩ ∧ (Span.ofBytes [10, 10, 97] 0 2).lineCount = 3 := by
  obtain ⟨order, -, past, lines⟩ := ofOffset_tells_offset [10, 10, 97]
  refine ⟨?_, ?_, ?_, ?_⟩
  · exact (order 1 2 (by decide) (by decide)).1.mpr (by decide)
  · exact (order 2 3 (by decide) (by decide)).1.mpr (by decide)
  · exact past 7 (by decide)
  · exact (lines 0 2 (by decide) (by decide)).2 (by decide)

end Position

end ScriptLint
