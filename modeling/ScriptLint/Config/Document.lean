import ScriptLint.Text.Digits

/-!
# Configuration documents

A configuration is written as a document of scalars, lists and mappings. Plain scalars may stand
for a number, a truth value or nothing at all; quoted ones are always text. A record is read from a
mapping by key: keys it does not know are skipped, and a key it knows may stand there once.

Stands for what is asked of a document in reading a configuration. How a text is taken apart into a
document is left out: a front end hands the document over.
-/

namespace ScriptLint

/-- A document. -/
inductive Document where
  | plain (text : String)
  | quoted (text : String)
  | list (items : List Document)
  | mapping (entries : List (Document × Document))
  deriving Repr

namespace Document

/-- The text of a scalar, however it is written. -/
def text? : Document → Option String
  | .plain text | .quoted text => some text
  | _ => none

def bool? : Document → Option Bool
  | .plain text =>
    if text ∈ ["true", "True", "TRUE"] then some true
    else if text ∈ ["false", "False", "FALSE"] then some false
    else none
  | _ => none

/-- A number without its sign: in base sixteen, eight or two behind a marker, or in base ten without
leading zeros. -/
def magnitude? : List Char → Option Nat
  | '0' :: 'x' :: digits => Digits.number? 16 digits
  | '0' :: 'o' :: digits => Digits.number? 8 digits
  | '0' :: 'b' :: digits => Digits.number? 2 digits
  | ['0'] => some 0
  | '0' :: _ => none
  | digits => Digits.number? 10 digits

/-- A plain number of at most `limit`. One plus sign may stand in front. -/
def natural? (limit : Nat) : Document → Option Nat
  | .plain text =>
    let unsigned := match text.toList with
      | '+' :: rest => rest
      | chars => chars
    (magnitude? unsigned).filter (· ≤ limit)
  | _ => none

/-- A number that may be left out or written as nothing. -/
def optionalNatural? (limit : Nat) (document : Document) : Option (Option Nat) :=
  match document with
  | .plain text =>
    if text ∈ ["", "~", "null", "Null", "NULL"] then some none
    else some <$> natural? limit document
  | _ => none

/-- The entries of a record by the text of their keys. A place left empty is a record without
entries. -/
def record? : Document → Option (List (String × Document))
  | .plain "" => some []
  | .mapping entries => entries.mapM fun entry => entry.1.text?.map (·, entry.2)
  | _ => none

/-- Reads the value of a key, or takes `absent` if the key is missing. A repeated key is refused. -/
def readKey {α : Type} (entries : List (String × Document)) (key : String)
    (read : Document → Option α) (absent : α) : Option α :=
  match entries.filter (·.1 = key) with
  | [] => some absent
  | [entry] => read entry.2
  | _ => none

end Document

end ScriptLint
