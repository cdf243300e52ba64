/-!
# Text as bytes

Offsets into a source count UTF-8 bytes. This module cuts byte ranges out of a text and reads
bytes back as text.
-/

namespace ScriptLint

/-- Raw content, as a file or a standard stream holds it. -/
abbrev Bytes := List UInt8

namespace Bytes

/-- The UTF-8 encoding of a text. -/
def ofText (text : String) : Bytes :=
  text.toUTF8.data.toList

/-- The text that these bytes encode, if they are well-formed UTF-8. -/
def text? (bytes : Bytes) : Option String :=
  String.fromUTF8? ⟨bytes.toArray⟩

/-- The bytes from `start` up to, but not including, `stop`. -/
def slice (bytes : Bytes) (start stop : Nat) : Bytes :=
  (bytes.drop start).take (stop - start)

/-- The text of a byte range; a range that cuts a character apart has none. -/
def textBetween (bytes : Bytes) (start stop : Nat) : String :=
  (bytes.slice start stop).text?.getD ""

theorem text?_ofText (text : String) : (ofText text).text? = some text := by
  simp only [ofText, text?, Array.toArray_toList, String.toUTF8_eq_toByteArray, String.fromUTF8?]
  exact dif_pos text.isValidUTF8

end Bytes

end ScriptLint
