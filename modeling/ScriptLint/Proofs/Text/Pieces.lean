import ScriptLint.Text.Lines
import ScriptLint.Text.Pieces

/-!
# Cutting texts into pieces

No piece holds a separator, a text without separators is one piece, and a text is cut at one of its
separators by cutting both sides. So lines that are joined are cut where they were joined.
-/

namespace ScriptLint

variable {separator : Char}

theorem pieces_cons_of_ne {c : Char} (ne : c ≠ separator) (text : List Char) :
    ∃ piece later, pieces separator text = piece :: later ∧
      pieces separator (c :: text) = (c :: piece) :: later := by
  cases split : pieces separator text with
  | nil => exact absurd split (pieces_ne_nil separator text)
  | cons piece later => exact ⟨piece, later, rfl, by simp [pieces, ne, split]⟩

theorem notMem_of_mem_pieces {text piece : List Char} (member : piece ∈ pieces separator text) :
    separator ∉ piece := by
  induction text generalizing piece with
  | nil => simp_all [pieces]
  | cons c text ih =>
    by_cases same : c = separator
    · rcases List.mem_cons.mp (by simpa [pieces, same] using member) with rfl | later
      · simp
      · exact ih later
    · obtain ⟨first, later, split, taken⟩ := pieces_cons_of_ne same text
      rw [taken, List.mem_cons] at member
      rcases member with rfl | other
      · simp only [List.mem_cons, not_or]
        exact ⟨Ne.symm same, ih (by simp [split])⟩
      · exact ih (by simp [split, other])

theorem pieces_of_notMem {text : List Char} (whole : separator ∉ text) :
    pieces separator text = [text] := by
  induction text with
  | nil => rfl
  | cons c text ih =>
    rw [List.mem_cons, not_or] at whole
    simp [pieces, Ne.symm whole.1, ih whole.2]

theorem pieces_append_cons (front back : List Char) :
    pieces separator (front ++ separator :: back) =
      pieces separator front ++ pieces separator back := by
  induction front with
  | nil => simp [pieces]
  | cons c front ih =>
    by_cases same : c = separator
    · simp [pieces, same, ih]
    · obtain ⟨piece, later, split, taken⟩ := pieces_cons_of_ne same front
      rw [taken, List.cons_append, pieces, ih, split]
      simp [same]

/-- The lines of joined rows are the lines of the rows, one after the other. -/
theorem pieces_joinLines {rows : List String} (nonempty : rows ≠ []) :
    pieces '\n' (joinLines rows).toList = rows.flatMap (pieces '\n' ·.toList) := by
  induction rows with
  | nil => exact absurd rfl nonempty
  | cons row later ih =>
    cases later with
    | nil => simp [joinLines]
    | cons next later =>
      have split : (joinLines (row :: next :: later)).toList =
          row.toList ++ '\n' :: (joinLines (next :: later)).toList := by
        simp [joinLines]
      rw [split, pieces_append_cons, ih (List.cons_ne_nil _ _)]
      simp only [List.flatMap_cons]

end ScriptLint
