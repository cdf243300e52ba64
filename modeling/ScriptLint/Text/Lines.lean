/-!
# Lines

Joining rows of text and padding them to a width.
-/

namespace ScriptLint

/-- The rows with a line break between each two. -/
def joinLines : List String → String
  | [] => ""
  | [row] => row
  | row :: rest => row ++ "\n" ++ joinLines rest

/-- The text with spaces behind it, so that it fills at least `width` characters. -/
def padded (width : Nat) (text : String) : String :=
  text ++ String.ofList (List.replicate (width - text.length) ' ')

end ScriptLint
