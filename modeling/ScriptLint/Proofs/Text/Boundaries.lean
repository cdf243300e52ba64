import ScriptLint.Text.Bytes

/-!
# Character boundaries

A range of bytes that starts and ends at a character boundary is the encoding of a text, and that
text is what cutting the range out gives. A character of one byte has a boundary on either side.
-/

namespace ScriptLint.Bytes

/-- The offset lies in the text or at its end and cuts no character apart. -/
def Boundary (text : String) (offset : Nat) : Prop :=
  String.Pos.Raw.IsValid text ⟨offset⟩

instance (text : String) (offset : Nat) : Decidable (Boundary text offset) :=
  inferInstanceAs (Decidable (String.Pos.Raw.IsValid text ⟨offset⟩))

variable {text first second : String} {offset start stop : Nat}

theorem ofText_append (first second : String) :
    ofText (first ++ second) = ofText first ++ ofText second := by
  simp [ofText]

theorem length_ofText (text : String) : (ofText text).length = text.utf8ByteSize := by
  simp [ofText]

theorem boundary_iff_exists_append :
    Boundary text offset ↔
      ∃ before after, text = before ++ after ∧ (ofText before).length = offset := by
  simp only [Boundary, String.Pos.Raw.isValid_iff_exists_append, length_ofText,
    String.Pos.Raw.ext_iff, String.byteIdx_rawEndPos, eq_comm (a := offset)]

/-- A boundary of a joined text is one of the second part, as far as it lies behind the first. -/
theorem Boundary.of_append (boundary : Boundary (first ++ second) offset) :
    Boundary second (offset - (ofText first).length) := by
  rw [length_ofText]
  obtain inFirst | ⟨-, inSecond⟩ := String.Pos.Raw.isValid_append.mp boundary
  · have before : offset ≤ first.utf8ByteSize := inFirst.le_utf8ByteSize
    rw [Nat.sub_eq_zero_of_le before]
    exact String.Pos.Raw.isValid_zero
  · exact inSecond

/-- The bytes between two boundaries encode what cutting them out gives. -/
theorem ofText_textBetween (starts : Boundary text start) (stops : Boundary text stop) :
    ofText ((ofText text).textBetween start stop) = (ofText text).slice start stop := by
  suffices encoded : ∃ middle, (ofText text).slice start stop = ofText middle by
    obtain ⟨middle, same⟩ := encoded
    rw [textBetween, same, text?_ofText, Option.getD_some]
  obtain ordered | reversed := Nat.le_total start stop
  · obtain ⟨before, rest, rfl, rfl⟩ := boundary_iff_exists_append.mp starts
    obtain ⟨middle, after, rfl, length⟩ := boundary_iff_exists_append.mp stops.of_append
    exact ⟨middle, by simp [slice, ofText_append, ← length]⟩
  · exact ⟨"", by simp [slice, Nat.sub_eq_zero_of_le reversed, ofText]⟩

theorem ofText_injective (same : ofText first = ofText second) : first = second := by
  have read := congrArg text? same
  simpa only [text?_ofText, Option.some.injEq] using read

theorem slice_append_slice {bytes : Bytes} {middle : Nat} (before : start ≤ middle)
    (after : middle ≤ stop) :
    bytes.slice start middle ++ bytes.slice middle stop = bytes.slice start stop := by
  have parts : stop - start = (middle - start) + (stop - middle) := by omega
  have rest : start + (middle - start) = middle := by omega
  rw [slice, slice, slice, parts, List.take_add, List.drop_drop, rest]

/-- Cutting a text at a boundary loses nothing. -/
theorem textBetween_append {middle : Nat} (starts : Boundary text start)
    (cut : Boundary text middle) (stops : Boundary text stop) (before : start ≤ middle)
    (after : middle ≤ stop) :
    (ofText text).textBetween start middle ++ (ofText text).textBetween middle stop =
      (ofText text).textBetween start stop := by
  apply ofText_injective
  rw [ofText_append, ofText_textBetween starts cut, ofText_textBetween cut stops,
    ofText_textBetween starts stops, slice_append_slice before after]

/-- Cutting a part out of a text gives the part back. -/
theorem textBetween_middle (before middle after : String) :
    (ofText (before ++ middle ++ after)).textBetween (ofText before).length
      ((ofText before).length + (ofText middle).length) = middle := by
  rw [textBetween, slice, ofText_append, ofText_append, List.append_assoc, List.drop_left,
    Nat.add_sub_cancel_left, List.take_left, text?_ofText, Option.getD_some]

theorem textBetween_self (bytes : Bytes) (offset : Nat) : bytes.textBetween offset offset = "" := by
  have empty : bytes.slice offset offset = ofText "" := by simp [slice, ofText]
  rw [textBetween, empty, text?_ofText, Option.getD_some]

/-- A character whose first byte is below 128 is that one byte. -/
theorem utf8Size_eq_one_of_head {char : Char} {byte : UInt8} {later : List UInt8}
    (encoded : String.utf8EncodeChar char = byte :: later) (ascii : byte < 128) :
    char.utf8Size = 1 := by
  -- The first byte of a longer character has its highest bit set.
  have marked : ∀ low mark : UInt8, 128 ≤ mark → ¬ (low ||| mark) < 128 := by
    intro low mark high
    rw [UInt8.not_lt, UInt8.le_iff_toNat_le, UInt8.toNat_or]
    exact Nat.le_trans (UInt8.le_iff_toNat_le.mp high) Nat.right_le_or
  obtain one | two | three | four := char.utf8Size_eq
  · exact one
  · rw [String.utf8EncodeChar_eq_cons_cons two] at encoded
    obtain ⟨rfl, -⟩ := List.cons.inj encoded
    exact absurd ascii (marked _ _ (by decide))
  · rw [String.utf8EncodeChar_eq_cons_cons_cons three] at encoded
    obtain ⟨rfl, -⟩ := List.cons.inj encoded
    exact absurd ascii (marked _ _ (by decide))
  · rw [String.utf8EncodeChar_eq_cons_cons_cons_cons four] at encoded
    obtain ⟨rfl, -⟩ := List.cons.inj encoded
    exact absurd ascii (marked _ _ (by decide))

theorem ofText_singleton (char : Char) :
    ofText (String.singleton char) = String.utf8EncodeChar char := by
  simp [ofText, List.utf8Encode_singleton]

/-- A byte below 128 that follows a boundary is a character, so there is a boundary after it. -/
theorem Boundary.succ {byte : UInt8} (boundary : Boundary text offset)
    (found : (ofText text)[offset]? = some byte) (ascii : byte < 128) :
    Boundary text (offset + 1) := by
  obtain ⟨before, after, rfl, rfl⟩ := boundary_iff_exists_append.mp boundary
  cases known : after.toList with
  | nil =>
    obtain rfl : after = "" := String.toList_eq_nil_iff.mp known
    simp [ofText] at found
  | cons char rest =>
    obtain rfl : after = String.singleton char ++ String.ofList rest := by
      rw [← String.toList_inj]
      simp [known]
    cases encoded : String.utf8EncodeChar char with
    | nil =>
      have positive := char.utf8Size_pos
      rw [← String.length_utf8EncodeChar, encoded] at positive
      cases positive
    | cons head later =>
      obtain rfl : head = byte := by
        simpa [ofText_append, ofText_singleton, encoded] using found
      refine boundary_iff_exists_append.mpr ⟨before ++ String.singleton char, String.ofList rest,
        (String.append_assoc ..).symm, ?_⟩
      rw [ofText_append, ofText_singleton, List.length_append, String.length_utf8EncodeChar,
        utf8Size_eq_one_of_head encoded ascii]

/-- A byte below 128 is a character wherever it stands, so there is a boundary before it. -/
theorem boundary_of_ascii {byte : UInt8} (found : (ofText text)[offset]? = some byte)
    (ascii : byte < 128) : Boundary text offset := by
  obtain ⟨inside, same⟩ := List.getElem?_eq_some_iff.mp found
  have first : byte.IsUTF8FirstByte := by
    refine .inl (UInt8.toNat_inj.mp ?_)
    have unmarked : ∀ value < 128, value &&& 128 = 0 := by decide
    rw [UInt8.toNat_and]
    exact unmarked byte.toNat (UInt8.lt_iff_toNat_lt.mp ascii)
  rw [Boundary, String.Pos.Raw.isValid_iff_isUTF8FirstByte]
  rw [length_ofText] at inside
  refine .inr ⟨String.Pos.Raw.lt_iff.mpr inside, ?_⟩
  rw [← same] at first
  exact first

end ScriptLint.Bytes
