import ScriptLint.Json.Double
import ScriptLint.Text.Digits

/-!
# Reading JSON

Readers go through a text from left to right and stop at the first thing that is wrong. A fault is
one of three: the text breaks the rules of JSON, the text ends too early, or a value is well formed
but not the one that is asked for.
-/

namespace ScriptLint.Json

/-- Why a text cannot be read. -/
inductive Fault where
  | malformed
  | ended
  | mismatch
  deriving DecidableEq, Repr

/-- A value and the text behind it. -/
abbrev Parsed (α : Type) := α × List Char

def isSpace (c : Char) : Bool :=
  c = ' ' || c = '\n' || c = '\t' || c = '\r'

def skipSpace (text : List Char) : List Char :=
  text.dropWhile isSpace

def isDigit (c : Char) : Bool :=
  '0' ≤ c && c ≤ '9'

/-- Reads the rest of a word. -/
def readWord : (word : List Char) → (text : List Char) → Except Fault (Parsed Unit)
  | [], text => .ok ((), text)
  | _ :: _, [] => .error .ended
  | expected :: word, c :: text =>
    if c = expected then readWord word text else .error .malformed

/-- Reads four hexadecimal digits. A text with fewer than four bytes left ends too early. -/
def readHex4 (text : List Char) : Except Fault (Parsed Nat) :=
  if (String.ofList text).utf8ByteSize < 4 then .error .ended
  else match text with
    | a :: b :: c :: d :: rest =>
      match Digits.number? 16 [a, b, c, d] with
      | some unit => .ok (unit, rest)
      | none => .error .malformed
    | _ => .error .malformed

def isHighSurrogate (unit : Nat) : Bool :=
  0xd800 ≤ unit && unit ≤ 0xdbff

def isLowSurrogate (unit : Nat) : Bool :=
  0xdc00 ≤ unit && unit ≤ 0xdfff

/-- Reads the code unit of an escape and, if it is the first of a pair, the second one. -/
def readUnicode (text : List Char) : Except Fault (Parsed Char) := do
  let (unit, rest) ← readHex4 text
  if isLowSurrogate unit then .error .malformed
  else if !isHighSurrogate unit then .ok (Char.ofNat unit, rest)
  else match rest with
    | [] => .error .ended
    | '\\' :: [] => .error .ended
    | '\\' :: 'u' :: rest =>
      let (low, rest) ← readHex4 rest
      if isLowSurrogate low then
        .ok (Char.ofNat ((unit - 0xd800) * 0x400 + (low - 0xdc00) + 0x10000), rest)
      else .error .malformed
    | _ => .error .malformed

/-- The character that a one-letter escape stands for. -/
def simpleEscape? (c : Char) : Option Char :=
  if c = '\x22' then some '\x22'
  else if c = '\\' then some '\\'
  else if c = '/' then some '/'
  else if c = 'b' then some '\x08'
  else if c = 'f' then some '\x0c'
  else if c = 'n' then some '\n'
  else if c = 'r' then some '\r'
  else if c = 't' then some '\t'
  else none

/-- Reads an escape, after its backslash. -/
def readEscape : List Char → Except Fault (Parsed Char)
  | [] => .error .ended
  | c :: rest =>
    match simpleEscape? c with
    | some meant => .ok (meant, rest)
    | none => if c = 'u' then readUnicode rest else .error .malformed

/-- Passes over an escape, after its backslash. The code unit may be half of a pair. -/
def skipEscape : List Char → Except Fault (Parsed Unit)
  | [] => .error .ended
  | c :: rest =>
    if (simpleEscape? c).isSome then .ok ((), rest)
    else if c = 'u' then do
      let (_, rest) ← readHex4 rest
      .ok ((), rest)
    else .error .malformed

/-- Reads the rest of a string, after its opening quote, with `escape` for its escapes. Each round
reads at least one character, so `fuel` need not be more than the length of the text. -/
def readString {α : Type} (escape : List Char → Except Fault (Parsed α)) (plain : Char → α) :
    (fuel : Nat) → List Char → Except Fault (Parsed (List α))
  | 0, _ => .error .ended
  | _, [] => .error .ended
  | fuel + 1, c :: rest =>
    if c = '\x22' then .ok ([], rest)
    else if c = '\\' then do
      let (meant, rest) ← escape rest
      let (more, rest) ← readString escape plain fuel rest
      .ok (meant :: more, rest)
    else if c.toNat < 0x20 then .error .malformed
    else do
      let (more, rest) ← readString escape plain fuel rest
      .ok (plain c :: more, rest)

/-- Reads the rest of a string, after its opening quote. -/
def stringBody (text : List Char) : Except Fault (Parsed String) := do
  let (chars, rest) ← readString readEscape id text.length text
  .ok (String.ofList chars, rest)

/-- Passes over the rest of a string, after its opening quote. -/
def skipStringBody (text : List Char) : Except Fault (Parsed Unit) := do
  let (_, rest) ← readString skipEscape (fun _ => ()) text.length text
  .ok ((), rest)

/-- A number that was read: an integer, or the outcome of a number that is none. -/
inductive Number where
  | natural (value : Nat)
  | negative
  | fraction
  deriving DecidableEq, Repr

/-- The largest integer that is kept exactly: the largest of 64 bits. -/
def maxInteger : Nat := 18446744073709551615

/-- The largest exponent that is read digit by digit. -/
def maxExponent : Nat := 2147483647

def digitValue (c : Char) : Nat :=
  c.toNat - '0'.toNat

/-- Adds digits to a number as long as it stays within `limit`, and returns how many digits it took
and what follows. -/
def takeDigits (limit : Nat) (number : Nat) : List Char → Nat × Nat × List Char
  | [] => (number, 0, [])
  | c :: rest =>
    if isDigit c ∧ number * 10 + digitValue c ≤ limit then
      let (number, count, rest) := takeDigits limit (number * 10 + digitValue c) rest
      (number, count + 1, rest)
    else (number, 0, c :: rest)

/-- The outcome of a number with digits and an exponent. -/
def scaled (digits : Nat) (exponent : Int) (rest : List Char) : Except Fault (Parsed Number) :=
  if outOfRange digits exponent then .error .malformed else .ok (.fraction, rest)

/-- Reads an exponent, after its letter. -/
def readExponent (digits : Nat) (exponent : Int) (text : List Char) :
    Except Fault (Parsed Number) :=
  let (up, text) := match text with
    | '+' :: rest => (true, rest)
    | '-' :: rest => (false, rest)
    | text => (true, text)
  match text with
  | [] => .error .ended
  | c :: rest =>
    if !isDigit c then .error .malformed
    else
      let (power, _, rest) := takeDigits maxExponent (digitValue c) rest
      if (rest.head?.map isDigit).getD false then
        if digits ≠ 0 && up then .error .malformed
        else .ok (.fraction, rest.dropWhile isDigit)
      else scaled digits (if up then exponent + power else exponent - power) rest

/-- What may follow the digits of a number with a fraction. -/
def afterFraction (digits : Nat) (exponent : Int) (text : List Char) :
    Except Fault (Parsed Number) :=
  match text with
  | 'e' :: rest | 'E' :: rest => readExponent digits exponent rest
  | text => scaled digits exponent text

/-- Reads a fraction, after its point. Digits that no longer fit are passed over. -/
def readFraction (digits : Nat) (exponent : Int) (text : List Char) :
    Except Fault (Parsed Number) :=
  let (digits, count, rest) := takeDigits maxInteger digits text
  if (rest.head?.map isDigit).getD false then
    afterFraction digits (exponent - count) (rest.dropWhile isDigit)
  else if count = 0 then
    if rest = [] then .error .ended else .error .malformed
  else afterFraction digits (exponent - count) rest

/-- What may follow the leading digits of a number. -/
def afterDigits (positive : Bool) (digits : Nat) (text : List Char) :
    Except Fault (Parsed Number) :=
  match text with
  | '.' :: rest => readFraction digits 0 rest
  | 'e' :: rest | 'E' :: rest => readExponent digits 0 rest
  | text => .ok (if positive then .natural digits else .negative, text)

/-- What may follow the leading digits of an integer that is too large to be kept exactly. -/
def afterLongDigits (digits : Nat) (exponent : Int) (text : List Char) :
    Except Fault (Parsed Number) :=
  match text with
  | '.' :: rest => readFraction digits exponent rest
  | 'e' :: rest | 'E' :: rest => readExponent digits exponent rest
  | text => scaled digits exponent text

/-- Reads a number, after its sign. -/
def readNumber (positive : Bool) (text : List Char) : Except Fault (Parsed Number) :=
  match text with
  | [] => .error .ended
  | '0' :: rest =>
    if (rest.head?.map isDigit).getD false then .error .malformed
    else afterDigits positive 0 rest
  | c :: rest =>
    if !isDigit c then .error .malformed
    else
      let (digits, _, rest) := takeDigits maxInteger (digitValue c) rest
      let more := rest.takeWhile isDigit
      if more = [] then afterDigits positive digits rest
      else afterLongDigits digits more.length (rest.dropWhile isDigit)

/-- Passes over an exponent, after its letter. -/
def skipExponent (text : List Char) : Except Fault (Parsed Unit) :=
  let text := match text with
    | '+' :: rest | '-' :: rest => rest
    | text => text
  match text with
  | c :: rest => if isDigit c then .ok ((), rest.dropWhile isDigit) else .error .malformed
  | [] => .error .malformed

/-- Passes over what may follow the leading digits of a number. -/
def skipAfterDigits (text : List Char) : Except Fault (Parsed Unit) :=
  match text with
  | '.' :: rest =>
    if rest.takeWhile isDigit = [] then .error .malformed
    else match rest.dropWhile isDigit with
      | 'e' :: rest | 'E' :: rest => skipExponent rest
      | rest => .ok ((), rest)
  | 'e' :: rest | 'E' :: rest => skipExponent rest
  | text => .ok ((), text)

/-- Passes over a number, after its sign. -/
def skipNumber (text : List Char) : Except Fault (Parsed Unit) :=
  match text with
  | '0' :: rest =>
    if (rest.head?.map isDigit).getD false then .error .malformed else skipAfterDigits rest
  | c :: rest =>
    if isDigit c then skipAfterDigits (rest.dropWhile isDigit) else .error .malformed
  | [] => .error .malformed

/-- The fault of a value that is not the one asked for: the value itself may be malformed. -/
def mismatchAt (text : List Char) : Fault :=
  let outcome : Except Fault Unit :=
    match text with
    | 'n' :: rest => (fun _ => ()) <$> readWord "ull".toList rest
    | 't' :: rest => (fun _ => ()) <$> readWord "rue".toList rest
    | 'f' :: rest => (fun _ => ()) <$> readWord "alse".toList rest
    | '-' :: rest => (fun _ => ()) <$> readNumber false rest
    | '\x22' :: rest => (fun _ => ()) <$> stringBody rest
    | '[' :: _ | '\x7b' :: _ => .ok ()
    | c :: _ =>
      if isDigit c then (fun _ => ()) <$> readNumber true text else .error .malformed
    | [] => .error .malformed
  match outcome with
  | .ok _ => .mismatch
  | .error fault => fault

/-- Reads a string. -/
def readText (text : List Char) : Except Fault (Parsed String) :=
  match skipSpace text with
  | [] => .error .ended
  | '\x22' :: rest => stringBody rest
  | text => .error (mismatchAt text)

/-- Reads a string or `null`. -/
def readOptionalText (text : List Char) : Except Fault (Parsed (Option String)) :=
  match skipSpace text with
  | 'n' :: rest => do
    let (_, rest) ← readWord "ull".toList rest
    .ok (none, rest)
  | text => do
    let (value, rest) ← readText text
    .ok (some value, rest)

/-- Reads a natural number that is kept exactly. -/
def readNatural (text : List Char) : Except Fault (Parsed Nat) :=
  let natural (reading : Except Fault (Parsed Number)) : Except Fault (Parsed Nat) := do
    match ← reading with
    | (.natural value, rest) => .ok (value, rest)
    | _ => .error .mismatch
  match skipSpace text with
  | [] => .error .ended
  | '-' :: rest => natural (readNumber false rest)
  | c :: rest =>
    if isDigit c then natural (readNumber true (c :: rest)) else .error (mismatchAt (c :: rest))

/-- A list or a record that a value stands in. -/
inductive Frame where
  | list
  | record
  deriving DecidableEq, Repr

/-- Passes over the key of a record and its colon. -/
def skipKey (text : List Char) : Except Fault (Parsed Unit) :=
  match skipSpace text with
  | [] => .error .ended
  | '\x22' :: rest => do
    let (_, rest) ← skipStringBody rest
    match skipSpace rest with
    | [] => .error .ended
    | ':' :: rest => .ok ((), rest)
    | _ => .error .malformed
  | _ => .error .malformed

/-- Passes over a value that opens no list and no record. -/
def skipLeaf (text : List Char) : Except Fault (Parsed Unit) :=
  match text with
  | 'n' :: rest => readWord "ull".toList rest
  | 't' :: rest => readWord "rue".toList rest
  | 'f' :: rest => readWord "alse".toList rest
  | '-' :: rest => skipNumber rest
  | '\x22' :: rest => skipStringBody rest
  | c :: _ => if isDigit c then skipNumber text else .error .malformed
  | [] => .error .ended

/-- Goes on inside the innermost open frame: closes frames that end here, and stops before the next
value. `afterValue` tells that a value has just been read there. An empty stack is returned when
the outermost value is complete. -/
def leaveFrames (afterValue : Bool) : (frames : List Frame) → List Char →
    Except Fault (Parsed (List Frame))
  | [], text => .ok ([], text)
  | frame :: outer, text =>
    match skipSpace text with
    | [] => .error .ended
    | c :: rest =>
      if c = ',' ∧ afterValue then enter frame outer rest
      else if (c = ']' ∧ frame = .list) ∨ (c = '\x7d' ∧ frame = .record) then
        leaveFrames true outer rest
      else if afterValue then .error .malformed
      else enter frame outer (c :: rest)
where
  enter (frame : Frame) (outer : List Frame) (text : List Char) :
      Except Fault (Parsed (List Frame)) :=
    match frame with
    | .list => .ok (frame :: outer, text)
    | .record => do
      let (_, rest) ← skipKey text
      .ok (frame :: outer, rest)

/-- Passes over a value of any kind inside open frames. -/
def skipValue (frames : List Frame) : (fuel : Nat) → List Char → Except Fault (Parsed Unit)
  | 0, _ => .error .ended
  | fuel + 1, text => do
    let text := skipSpace text
    let opened : Option (Frame × List Char) := match text with
      | '[' :: rest => some (.list, rest)
      | '\x7b' :: rest => some (.record, rest)
      | _ => none
    let (frames, rest) ← match opened with
      | some (frame, rest) => leaveFrames false (frame :: frames) rest
      | none => do
        let (_, rest) ← skipLeaf text
        leaveFrames true frames rest
    if frames = [] then .ok ((), rest) else skipValue frames fuel rest

/-- Passes over a value of any kind. -/
def skipAny (text : List Char) : Except Fault (Parsed Unit) :=
  skipValue [] text.length.succ text

/-- Whether another item follows in a list, and the text at it. `first` tells that none came yet. -/
def nextItem (first : Bool) (text : List Char) : Except Fault (Parsed Bool) :=
  match skipSpace text with
  | [] => .error .ended
  | c :: rest =>
    if c = ']' then .ok (false, c :: rest)
    else if first then .ok (true, c :: rest)
    else if c = ',' then
      match skipSpace rest with
      | [] => .error .ended
      | next :: rest => if next = ']' then .error .malformed else .ok (true, next :: rest)
    else .error .malformed

/-- The end of a list. -/
def endList (text : List Char) : Except Fault (Parsed Unit) :=
  match skipSpace text with
  | [] => .error .ended
  | c :: rest => if c = ']' then .ok ((), rest) else .error .malformed

/-- Reads the items of a list up to its end, which is left to be read. -/
def readItems {α : Type} (item : List Char → Except Fault (Parsed α)) (first : Bool) :
    (fuel : Nat) → List Char → Except Fault (Parsed (List α))
  | 0, _ => .error .ended
  | fuel + 1, text => do
    let (more, text) ← nextItem first text
    if more then
      let (value, text) ← item text
      let (values, text) ← readItems item false fuel text
      .ok (value :: values, text)
    else .ok ([], text)

/-- Reads a list. -/
def readList {α : Type} (item : List Char → Except Fault (Parsed α)) (text : List Char) :
    Except Fault (Parsed (List α)) :=
  match skipSpace text with
  | [] => .error .ended
  | '[' :: rest => do
    let (values, rest) ← readItems item true rest.length.succ rest
    let (_, rest) ← endList rest
    .ok (values, rest)
  | text => .error (mismatchAt text)

/-- The next key of a record, if another field follows. -/
def nextKey (first : Bool) (text : List Char) : Except Fault (Parsed (Option String)) :=
  let key (rest : List Char) : Except Fault (Parsed (Option String)) := do
    let (name, rest) ← stringBody rest
    .ok (some name, rest)
  match skipSpace text with
  | [] => .error .ended
  | c :: rest =>
    if c = '\x7d' then .ok (none, c :: rest)
    else if first then if c = '\x22' then key rest else .error .malformed
    else if c = ',' then
      match skipSpace rest with
      | [] => .error .ended
      | '\x22' :: rest => key rest
      | _ => .error .malformed
    else .error .malformed

/-- The colon between a key and its value. -/
def colon (text : List Char) : Except Fault (Parsed Unit) :=
  match skipSpace text with
  | [] => .error .ended
  | ':' :: rest => .ok ((), rest)
  | _ => .error .malformed

/-- The end of a record. -/
def endRecord (text : List Char) : Except Fault (Parsed Unit) :=
  match skipSpace text with
  | [] => .error .ended
  | c :: rest => if c = '\x7d' then .ok ((), rest) else .error .malformed

/-- Reads the fields of a record into a partial value up to its end, which is left to be read.
`field` reads the colon and the value of a known key, refuses a key that was read before, and
answers `none` for a key that is not known. -/
def readFields {α : Type}
    (field : α → String → Option (List Char → Except Fault (Parsed α))) (first : Bool) :
    (fuel : Nat) → α → List Char → Except Fault (Parsed α)
  | 0, _, _ => .error .ended
  | fuel + 1, sofar, text => do
    let (key, text) ← nextKey first text
    match key with
    | none => .ok (sofar, text)
    | some key =>
      let (grown, text) ← match field sofar key with
        | some read => read text
        | none => do
          let (_, text) ← colon text
          let (_, text) ← skipAny text
          .ok (sofar, text)
      readFields field false fuel grown text

/-- A whole text, with nothing but space behind the value. -/
def readWhole {α : Type} (read : List Char → Except Fault (Parsed α)) (text : String) :
    Except Fault α := do
  let (value, rest) ← read text.toList
  if skipSpace rest = [] then .ok value else .error .malformed

end ScriptLint.Json
