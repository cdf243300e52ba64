/-!
# Writing JSON

Values and their pretty form: two spaces for each level, one element a line, and an empty list on
one line.
-/

namespace ScriptLint.Json

/-- The values that reports are made of. -/
inductive Value where
  | text (content : String)
  | number (value : Nat)
  | list (items : List Value)
  | record (fields : List (String × Value))
  deriving Repr

/-- A character as it stands in a string. Only quotes, backslashes and controls are escaped. -/
def escapeChar (c : Char) : List Char :=
  if c = '\x22' then ['\\', '\x22']
  else if c = '\\' then ['\\', '\\']
  else if c = '\x08' then ['\\', 'b']
  else if c = '\x0c' then ['\\', 'f']
  else if c = '\n' then ['\\', 'n']
  else if c = '\r' then ['\\', 'r']
  else if c = '\t' then ['\\', 't']
  else if c.toNat < 0x20 then
    ['\\', 'u', '0', '0', Nat.digitChar (c.toNat / 16), Nat.digitChar (c.toNat % 16)]
  else [c]

def string (text : String) : List Char :=
  '\x22' :: text.toList.flatMap escapeChar ++ ['\x22']

/-- The start of a line at a level. -/
def lineStart (level : Nat) : List Char :=
  '\n' :: List.replicate (2 * level) ' '

mutual

/-- The pretty form of a value whose first line stands at a level. -/
def Value.pretty (level : Nat) : Value → List Char
  | .text content => string content
  | .number value => (toString value).toList
  | .list [] => ['[', ']']
  | .list (item :: rest) =>
    '[' :: lineStart (level + 1) ++ item.pretty (level + 1) ++ Value.prettyItems (level + 1) rest ++
      lineStart level ++ [']']
  | .record [] => ['\x7b', '\x7d']
  | .record (field :: rest) =>
    '\x7b' :: Value.prettyField (level + 1) field ++ Value.prettyFields (level + 1) rest ++
      lineStart level ++ ['\x7d']

/-- Further items of a list, each after a comma and on a line of its own. -/
def Value.prettyItems (level : Nat) : List Value → List Char
  | [] => []
  | item :: rest => ',' :: lineStart level ++ item.pretty level ++ Value.prettyItems level rest

def Value.prettyField (level : Nat) : String × Value → List Char
  | (name, value) => lineStart level ++ string name ++ [':', ' '] ++ value.pretty level

/-- Further fields of a record. -/
def Value.prettyFields (level : Nat) : List (String × Value) → List Char
  | [] => []
  | field :: rest => ',' :: Value.prettyField level field ++ Value.prettyFields level rest

end

end ScriptLint.Json
