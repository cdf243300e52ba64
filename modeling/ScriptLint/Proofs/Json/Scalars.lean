import Mathlib.Data.String.Basic
import ScriptLint.Json.Reader
import ScriptLint.Json.Writer
import ScriptLint.Proofs.Success

/-!
# Reading strings and numbers back

A reader gives a value back from its written form if it does so behind any blank space and in front
of anything that cannot be taken for more of a number. Strings are read back escape by escape, and
numbers of 64 bits digit by digit.
-/

namespace ScriptLint.Json

/-- Nothing here continues a number. -/
def Ends (rest : List Char) : Prop :=
  ∀ c ∈ rest.head?, isDigit c = false ∧ c ≠ '.' ∧ c ≠ 'e' ∧ c ≠ 'E'

/-- The reader gives the value back from what is written, whatever blank space stands before it. -/
def Reads {α : Type} (read : List Char → Except Fault (Parsed α)) (written : List Char)
    (value : α) : Prop :=
  ∀ space rest, (∀ c ∈ space, isSpace c) → Ends rest →
    read (space ++ (written ++ rest)) = .ok (value, rest)

theorem skipSpace_append {space : List Char} (blank : ∀ c ∈ space, isSpace c) (text : List Char) :
    skipSpace (space ++ text) = skipSpace text :=
  List.dropWhile_append_of_pos blank

theorem skipSpace_cons {c : Char} (solid : isSpace c = false) (text : List Char) :
    skipSpace (c :: text) = c :: text := by
  simp [skipSpace, solid]

/-! ## Strings -/

/-- The characters that have an escape of one letter. -/
def lettered : List Char := ['\x22', '\\', '\x08', '\x0c', '\n', '\r', '\t']

theorem escapeChar_lettered : ∀ c ∈ lettered, ∃ letter ∈ ['\x22', '\\', 'b', 'f', 'n', 'r', 't'],
    escapeChar c = ['\\', letter] ∧ simpleEscape? letter = some c := by
  simp only [lettered, List.forall_mem_cons]
  refine ⟨⟨'\x22', ?_⟩, ⟨'\\', ?_⟩, ⟨'b', ?_⟩, ⟨'f', ?_⟩, ⟨'n', ?_⟩, ⟨'r', ?_⟩, ⟨'t', ?_⟩, ?_⟩
  all_goals simp [escapeChar, simpleEscape?]

theorem escapeChar_of_not_lettered {c : Char} (other : c ∉ lettered) :
    escapeChar c =
      if c.toNat < 0x20 then
        ['\\', 'u', '0', '0', Nat.digitChar (c.toNat / 16), Nat.digitChar (c.toNat % 16)]
      else [c] := by
  simp only [lettered, List.mem_cons, List.not_mem_nil, or_false, not_or] at other
  simp [escapeChar, other]

theorem length_escapeChar_pos (c : Char) : 0 < (escapeChar c).length := by
  by_cases named : c ∈ lettered
  · obtain ⟨letter, -, written, -⟩ := escapeChar_lettered c named
    simp [written]
  · rw [escapeChar_of_not_lettered named]
    split <;> simp

theorem readHex4_four (a b c d : Char) (rest : List Char) :
    readHex4 (a :: b :: c :: d :: rest) =
      match Digits.number? 16 [a, b, c, d] with
      | some unit => .ok (unit, rest)
      | none => .error .malformed := by
  have long : ¬ (String.ofList (a :: b :: c :: d :: rest)).utf8ByteSize < 4 := by
    have := a.utf8Size_pos
    have := b.utf8Size_pos
    have := c.utf8Size_pos
    have := d.utf8Size_pos
    simp only [String.utf8ByteSize_ofList, String.utf8Len_cons]
    omega
  unfold readHex4
  exact if_neg long

theorem number?_control : ∀ unit < 0x20,
    Digits.number? 16 ['0', '0', Nat.digitChar (unit / 16), Nat.digitChar (unit % 16)] =
      some unit := by
  decide

theorem readEscape_control {c : Char} (control : c.toNat < 0x20) (rest : List Char) :
    readEscape ('u' :: '0' :: '0' :: Nat.digitChar (c.toNat / 16) ::
      Nat.digitChar (c.toNat % 16) :: rest) = .ok (c, rest) := by
  have unnamed : simpleEscape? 'u' = none := by decide
  have low : isLowSurrogate c.toNat = false := by
    rw [isLowSurrogate, Bool.and_eq_false_iff, decide_eq_false_iff_not]
    omega
  have high : isHighSurrogate c.toNat = false := by
    rw [isHighSurrogate, Bool.and_eq_false_iff, decide_eq_false_iff_not]
    omega
  simp [readEscape, unnamed, readUnicode, readHex4_four, number?_control _ control, ok_bind, low,
    high]

theorem readString_escapeChar (c : Char) (fuel : Nat) (rest : List Char) :
    readString readEscape id (fuel + 1) (escapeChar c ++ rest) = (do
      let (more, rest) ← readString readEscape id fuel rest
      .ok (c :: more, rest)) := by
  by_cases named : c ∈ lettered
  · obtain ⟨letter, -, written, meant⟩ := escapeChar_lettered c named
    simp [written, readString, readEscape, meant, ok_bind]
  · rw [escapeChar_of_not_lettered named]
    by_cases control : c.toNat < 0x20
    · simp [control, readString, readEscape_control control, ok_bind]
    · have quote : c ≠ '\x22' := by
        rintro rfl
        exact named (by decide)
      have backslash : c ≠ '\\' := by
        rintro rfl
        exact named (by decide)
      simp [control, readString, quote, backslash]

theorem readString_escaped {chars : List Char} {fuel : Nat} (enough : chars.length < fuel)
    (rest : List Char) :
    readString readEscape id fuel (chars.flatMap escapeChar ++ '\x22' :: rest) =
      .ok (chars, rest) := by
  induction chars generalizing fuel with
  | nil =>
    obtain ⟨fuel, rfl⟩ := Nat.exists_eq_add_of_lt enough
    simp [readString]
  | cons c chars ih =>
    obtain ⟨fuel, rfl⟩ := Nat.exists_eq_add_of_lt enough
    rw [List.flatMap_cons, List.append_assoc, readString_escapeChar, ih (by simp; omega), ok_bind]

theorem length_le_flatMap_escapeChar (chars : List Char) :
    chars.length ≤ (chars.flatMap escapeChar).length := by
  induction chars with
  | nil => simp
  | cons c chars ih =>
    have := length_escapeChar_pos c
    simp only [List.length_cons, List.flatMap_cons, List.length_append]
    omega

/-- A string is read back, escapes and all, up to its closing quote. -/
theorem stringBody_string (text : String) (rest : List Char) :
    stringBody (text.toList.flatMap escapeChar ++ '\x22' :: rest) = .ok (text, rest) := by
  have short := length_le_flatMap_escapeChar text.toList
  have enough : text.toList.length <
      (text.toList.flatMap escapeChar ++ '\x22' :: rest).length := by
    simp only [List.length_append, List.length_cons]
    omega
  rw [stringBody, readString_escaped enough, ok_bind]
  simp only [String.ofList_toList]

theorem string_append (text : String) (rest : List Char) :
    string text ++ rest = '\x22' :: (text.toList.flatMap escapeChar ++ '\x22' :: rest) := by
  simp [string]

theorem reads_text (text : String) : Reads readText (string text) text := by
  intro space rest blank _
  rw [readText, skipSpace_append blank, string_append, skipSpace_cons (by decide)]
  exact stringBody_string text rest

theorem reads_optionalText (text : String) : Reads readOptionalText (string text) (some text) := by
  intro space rest blank ends
  have read := reads_text text [] rest (by simp) ends
  rw [List.nil_append] at read
  rw [string_append] at read ⊢
  rw [readOptionalText, skipSpace_append blank, skipSpace_cons (by decide)]
  simp [read, ok_bind]

/-! ## Numbers -/

theorem le_ofDigitChars (digits : List Char) (number : Nat) :
    number ≤ Nat.ofDigitChars 10 digits number := by
  induction digits generalizing number with
  | nil => exact Nat.le_refl number
  | cons c digits ih =>
    rw [Nat.ofDigitChars_cons]
    exact Nat.le_trans (by omega) (ih _)

theorem takeDigits_append {limit number : Nat} {digits rest : List Char}
    (areDigits : ∀ c ∈ digits, isDigit c) (fits : Nat.ofDigitChars 10 digits number ≤ limit)
    (ends : Ends rest) :
    takeDigits limit number (digits ++ rest) =
      (Nat.ofDigitChars 10 digits number, digits.length, rest) := by
  induction digits generalizing number with
  | nil =>
    cases rest with
    | nil => rfl
    | cons c rest => simp [takeDigits, (ends c rfl).1, Nat.ofDigitChars_nil]
  | cons c digits ih =>
    have digit : isDigit c := areDigits c List.mem_cons_self
    have step : 10 * number + (c.toNat - '0'.toNat) = number * 10 + digitValue c := by
      rw [digitValue, Nat.mul_comm]
    rw [Nat.ofDigitChars_cons, step] at fits ⊢
    have room := Nat.le_trans (le_ofDigitChars digits _) fits
    rw [List.cons_append, takeDigits, if_pos ⟨digit, room⟩,
      ih (fun d member => areDigits d (List.mem_cons_of_mem _ member)) fits]
    rfl

theorem takeWhile_isDigit_of_ends {rest : List Char} (ends : Ends rest) :
    rest.takeWhile isDigit = [] := by
  cases rest with
  | nil => rfl
  | cons c rest => simp [(ends c rfl).1]

theorem afterDigits_of_ends {number : Nat} {rest : List Char} (ends : Ends rest) :
    afterDigits true number rest = .ok (.natural number, rest) := by
  cases rest with
  | nil => rfl
  | cons c rest =>
    obtain ⟨-, point, small, large⟩ := ends c rfl
    unfold afterDigits
    split <;> simp_all

theorem digitChar_ne_zero : ∀ n < 10, 0 < n → Nat.digitChar n ≠ '0' := by
  decide

/-- Only zero is written with a zero in front. -/
theorem head?_toDigits_ne_zero {n : Nat} (positive : 0 < n) :
    (Nat.toDigits 10 n).head? ≠ some '0' := by
  induction n using Nat.strongRecOn with
  | ind n ih =>
    rw [Nat.toDigits_eq_if (by decide)]
    split
    · next small => simpa using digitChar_ne_zero n small positive
    · next large =>
      have front := ih (n / 10) (by omega) (by omega)
      obtain ⟨c, digits, written⟩ := List.exists_cons_of_ne_nil (@Nat.toDigits_ne_nil (n / 10) 10)
      simpa [written] using front

theorem isDigit_of_mem_toDigits {n : Nat} : ∀ c ∈ Nat.toDigits 10 n, isDigit c :=
  fun _ member => Nat.isDigit_of_mem_toDigits (by decide) (by decide) member

theorem readNumber_zero {rest : List Char} (ends : Ends rest) :
    readNumber true ('0' :: rest) = .ok (.natural 0, rest) := by
  have noDigit : (rest.head?.map isDigit).getD false = false := by
    cases rest with
    | nil => rfl
    | cons c rest => exact (ends c rfl).1
  simp [readNumber, noDigit, afterDigits_of_ends ends]

theorem readNumber_cons {c : Char} {digits rest : List Char}
    (areDigits : ∀ d ∈ c :: digits, isDigit d) (notZero : c ≠ '0')
    (fits : Nat.ofDigitChars 10 (c :: digits) 0 ≤ maxInteger) (ends : Ends rest) :
    readNumber true (c :: (digits ++ rest)) =
      .ok (.natural (Nat.ofDigitChars 10 (c :: digits) 0), rest) := by
  have digit : isDigit c := areDigits c List.mem_cons_self
  have front : 10 * 0 + (c.toNat - '0'.toNat) = digitValue c := by simp [digitValue]
  rw [Nat.ofDigitChars_cons, front] at fits ⊢
  have taken := takeDigits_append
    (fun d member => areDigits d (List.mem_cons_of_mem _ member)) fits ends
  unfold readNumber
  split
  · next impossible => cases impossible
  · next same => exact absurd (List.cons.inj same).1 notZero
  · next same =>
    obtain ⟨rfl, rfl⟩ := List.cons.inj same
    rw [if_neg (by simp [digit])]
    simp only [taken]
    rw [if_pos (takeWhile_isDigit_of_ends ends), afterDigits_of_ends ends]

theorem readNumber_toDigits {n : Nat} (fits : n ≤ maxInteger) {rest : List Char}
    (ends : Ends rest) :
    readNumber true (Nat.toDigits 10 n ++ rest) = .ok (.natural n, rest) := by
  have meant : Nat.ofDigitChars 10 (Nat.toDigits 10 n) 0 = n :=
    Nat.ofDigitChars_toDigits (by decide) (by decide)
  have areDigits := @isDigit_of_mem_toDigits n
  obtain rfl | positive := Nat.eq_zero_or_pos n
  · exact readNumber_zero ends
  · have front := head?_toDigits_ne_zero positive
    obtain ⟨c, digits, written⟩ := List.exists_cons_of_ne_nil (@Nat.toDigits_ne_nil n 10)
    rw [written] at meant areDigits front ⊢
    have notZero : c ≠ '0' := by simpa using front
    rw [List.cons_append, readNumber_cons areDigits notZero (by rwa [meant]) ends, meant]

theorem isSpace_of_isDigit {c : Char} (digit : isDigit c) : isSpace c = false := by
  by_contra space
  simp only [isSpace, Bool.not_eq_false, Bool.or_eq_true, decide_eq_true_eq] at space
  rcases space with ((rfl | rfl) | rfl) | rfl <;> simp [isDigit] at digit

/-- A number of 64 bits is read back from its digits. -/
theorem reads_number {n : Nat} (fits : n ≤ maxInteger) :
    Reads readNatural (toString n).toList n := by
  intro space rest blank ends
  have read := readNumber_toDigits fits ends
  obtain ⟨c, digits, written⟩ := List.exists_cons_of_ne_nil (@Nat.toDigits_ne_nil n 10)
  have digit : isDigit c := @isDigit_of_mem_toDigits n c (by simp [written])
  have unsigned : c ≠ '-' := by
    rintro rfl
    simp [isDigit] at digit
  rw [Nat.toString_eq_repr, Nat.toList_repr]
  rw [written, List.cons_append] at read ⊢
  rw [readNatural, skipSpace_append blank, skipSpace_cons (isSpace_of_isDigit digit)]
  simp [digit, read, ok_bind]

end ScriptLint.Json
