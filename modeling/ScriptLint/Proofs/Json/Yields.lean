import Mathlib.Logic.Basic
import ScriptLint.Proofs.Success
import ScriptLint.Report.Json

/-!
# What readers yield

A reader yields values with a property if all it ever reads has it. Lists and records pass such
properties on from their parts, and a natural number that is read has 64 bits, however it is
written: longer numbers, fractions and exponents are no natural numbers to the reader.
-/

namespace ScriptLint.Json

/-- Every value that is read has the property. -/
def Yields {α : Type} (read : List Char → Except Fault (Parsed α)) (property : α → Prop) : Prop :=
  ∀ ⦃text value rest⦄, read text = .ok (value, rest) → property value

theorem yields_any {α : Type} (read : List Char → Except Fault (Parsed α)) :
    Yields read fun _ => True :=
  fun _ _ _ _ => trivial

/-! ## Numbers -/

theorem takeDigits_le {limit number : Nat} (fits : number ≤ limit) (text : List Char) :
    (takeDigits limit number text).1 ≤ limit := by
  induction text generalizing number with
  | nil => exact fits
  | cons c rest ih =>
    unfold takeDigits
    split
    · next taken => exact ih taken.2
    · exact fits

/-- The reading gives no natural number. -/
def Unnatural (reading : Except Fault (Parsed Number)) : Prop :=
  ∀ value rest, reading ≠ .ok (.natural value, rest)

theorem unnatural_scaled (digits : Nat) (exponent : Int) (text : List Char) :
    Unnatural (scaled digits exponent text) := by
  intro value rest read
  unfold scaled at read
  split at read <;> simp at read

theorem unnatural_readExponent (digits : Nat) (exponent : Int) (text : List Char) :
    Unnatural (readExponent digits exponent text) := by
  intro value rest read
  unfold readExponent at read
  simp only at read
  split at read
  · simp at read
  · split at read
    · simp at read
    · split at read
      · obtain ⟨-, read⟩ | ⟨-, read⟩ := ite_eq_iff.mp read <;> simp at read
      · exact unnatural_scaled _ _ _ _ _ read

theorem unnatural_afterFraction (digits : Nat) (exponent : Int) (text : List Char) :
    Unnatural (afterFraction digits exponent text) := by
  unfold afterFraction
  split
  · exact unnatural_readExponent _ _ _
  · exact unnatural_readExponent _ _ _
  · exact unnatural_scaled _ _ _

theorem unnatural_readFraction (digits : Nat) (exponent : Int) (text : List Char) :
    Unnatural (readFraction digits exponent text) := by
  intro value rest read
  unfold readFraction at read
  simp only at read
  split at read
  · exact unnatural_afterFraction _ _ _ _ _ read
  · split at read
    · split at read <;> simp at read
    · exact unnatural_afterFraction _ _ _ _ _ read

theorem unnatural_afterLongDigits (digits : Nat) (exponent : Int) (text : List Char) :
    Unnatural (afterLongDigits digits exponent text) := by
  unfold afterLongDigits
  split
  · exact unnatural_readFraction _ _ _
  · exact unnatural_readExponent _ _ _
  · exact unnatural_readExponent _ _ _
  · exact unnatural_scaled _ _ _

theorem eq_of_afterDigits {positive : Bool} {digits value : Nat} {text rest : List Char}
    (read : afterDigits positive digits text = .ok (.natural value, rest)) : value = digits := by
  unfold afterDigits at read
  split at read
  · exact absurd read (unnatural_readFraction _ _ _ _ _)
  · exact absurd read (unnatural_readExponent _ _ _ _ _)
  · exact absurd read (unnatural_readExponent _ _ _ _ _)
  · cases positive <;> simp_all

theorem digitValue_le {c : Char} (digit : isDigit c) : digitValue c ≤ maxInteger := by
  have upper : c ≤ '9' := by
    simp only [isDigit, Bool.and_eq_true, decide_eq_true_eq] at digit
    exact digit.2
  have bound : c.toNat ≤ '9'.toNat := upper
  have small : '9'.toNat ≤ maxInteger := by decide
  unfold digitValue
  omega

theorem readNumber_le {positive : Bool} {value : Nat} {text rest : List Char}
    (read : readNumber positive text = .ok (.natural value, rest)) : value ≤ maxInteger := by
  unfold readNumber at read
  split at read
  · simp at read
  · split at read
    · simp at read
    · rw [eq_of_afterDigits read]
      exact Nat.zero_le _
  · next c _ _ =>
    split at read
    · simp at read
    · next digit =>
      have fits := digitValue_le (by simpa using digit)
      simp only at read
      split at read
      · rw [eq_of_afterDigits read]
        exact takeDigits_le fits _
      · exact absurd read (unnatural_afterLongDigits _ _ _ _ _)

/-- What is kept of a number is at most what the number's reading allows. -/
theorem natural_le {positive : Bool} {value : Nat} {text rest : List Char}
    (read : (readNumber positive text >>= fun reading =>
      match reading with
      | (.natural value, rest) => .ok (value, rest)
      | _ => .error .mismatch) = .ok (value, rest)) : value ≤ maxInteger := by
  obtain ⟨⟨number, behind⟩, found, read⟩ := bind_eq_ok_iff.mp read
  cases number with
  | natural kept =>
    obtain ⟨rfl, -⟩ : kept = value ∧ behind = rest := by simpa using read
    exact readNumber_le found
  | negative => simp at read
  | fraction => simp at read

theorem yields_natural : Yields readNatural (· ≤ maxInteger) := by
  intro text value rest read
  unfold readNatural at read
  simp only at read
  split at read
  · simp at read
  · exact natural_le read
  · split at read
    · exact natural_le read
    · simp at read

/-! ## Lists and records -/

section Parts

variable {α β δ : Type} {read : List Char → Except Fault (Parsed α)} {property : α → Prop}

theorem yields_readOnce (each : Yields read property) {seen : Option α} {store : α → β}
    {kept : β → Prop} (keeps : ∀ value, property value → kept (store value)) :
    Yields (readOnce seen read store) kept := by
  intro text stored rest done
  unfold readOnce at done
  split at done
  · simp at done
  · obtain ⟨⟨_, afterColon⟩, -, done⟩ := bind_eq_ok_iff.mp done
    obtain ⟨⟨value, behind⟩, found, done⟩ := bind_eq_ok_iff.mp done
    obtain ⟨rfl, -⟩ : store value = stored ∧ behind = rest := by simpa using done
    exact keeps value (each found)

theorem yields_readItem? (first : Bool) (each : Yields read property) :
    Yields (readItem? first read) fun item => ∀ value ∈ item, property value := by
  intro text item rest done
  obtain ⟨⟨more, behind⟩, -, done⟩ := bind_eq_ok_iff.mp done
  cases more with
  | false =>
    obtain ⟨rfl, -⟩ : none = item ∧ behind = rest := by simpa using done
    simp
  | true =>
    obtain ⟨⟨value, after⟩, found, done⟩ := bind_eq_ok_iff.mp done
    obtain ⟨rfl, -⟩ : some value = item ∧ after = rest := by simpa using done
    simpa using each found

theorem yields_readItem (first : Bool) (each : Yields read property) :
    Yields (readItem first read) property := by
  intro text value rest done
  obtain ⟨⟨item, behind⟩, found, done⟩ := bind_eq_ok_iff.mp done
  cases item with
  | none => simp at done
  | some item =>
    obtain ⟨rfl, -⟩ : item = value ∧ behind = rest := by simpa using done
    exact yields_readItem? first each found item rfl

theorem readItems_yields (each : Yields read property) {first : Bool} {fuel : Nat}
    {text rest : List Char} {values : List α}
    (done : readItems read first fuel text = .ok (values, rest)) :
    ∀ value ∈ values, property value := by
  induction fuel generalizing first text values rest with
  | zero => simp [readItems] at done
  | succ fuel ih =>
    obtain ⟨⟨more, behind⟩, -, done⟩ := bind_eq_ok_iff.mp done
    cases more with
    | false =>
      obtain ⟨rfl, -⟩ : [] = values ∧ behind = rest := by simpa using done
      simp
    | true =>
      obtain ⟨⟨value, after⟩, found, done⟩ := bind_eq_ok_iff.mp done
      obtain ⟨⟨others, last⟩, items, done⟩ := bind_eq_ok_iff.mp done
      obtain ⟨rfl, -⟩ : value :: others = values ∧ last = rest := by simpa using done
      rw [List.forall_mem_cons]
      exact ⟨each found, ih items⟩

theorem yields_list (each : Yields read property) :
    Yields (readList read) fun values => ∀ value ∈ values, property value := by
  intro text values rest done
  unfold readList at done
  split at done
  · simp at done
  · obtain ⟨⟨found, behind⟩, items, done⟩ := bind_eq_ok_iff.mp done
    obtain ⟨⟨_, after⟩, -, done⟩ := bind_eq_ok_iff.mp done
    obtain ⟨rfl, -⟩ : found = values ∧ after = rest := by simpa using done
    exact readItems_yields each items
  · simp at done

/-- Reading fields keeps what reading each known field keeps. -/
theorem readFields_yields {field : δ → String → Option (List Char → Except Fault (Parsed δ))}
    {kept : δ → Prop}
    (each : ∀ draft key read, kept draft → field draft key = some read → Yields read kept)
    {first : Bool} {fuel : Nat} {draft last : δ} {text rest : List Char} (start : kept draft)
    (done : readFields field first fuel draft text = .ok (last, rest)) : kept last := by
  induction fuel generalizing first draft text with
  | zero => simp [readFields] at done
  | succ fuel ih =>
    obtain ⟨⟨key, behind⟩, -, done⟩ := bind_eq_ok_iff.mp done
    cases key with
    | none =>
      obtain ⟨rfl, -⟩ : draft = last ∧ behind = rest := by simpa using done
      exact start
    | some key =>
      simp only at done
      split at done
      · next read known =>
        obtain ⟨⟨grown, after⟩, found, done⟩ := bind_eq_ok_iff.mp done
        exact ih (each draft key read start known found) done
      · obtain ⟨⟨_, afterColon⟩, -, done⟩ := bind_eq_ok_iff.mp done
        obtain ⟨⟨_, behindValue⟩, -, done⟩ := bind_eq_ok_iff.mp done
        exact ih start done

theorem yields_keyed {byKey : List Char → Except Fault (Parsed α)}
    {field : δ → String → Option (List Char → Except Fault (Parsed δ))}
    {finish : δ → Except Fault α} {kept : δ → Prop} {draft : δ}
    (keyed : ∀ text, byKey text = (do
      let (draft, text) ← readFields field true text.length.succ draft text
      .ok (← finish draft, text)))
    (each : ∀ draft key read, kept draft → field draft key = some read → Yields read kept)
    (start : kept draft)
    (finished : ∀ {draft value}, kept draft → finish draft = .ok value → property value) :
    Yields byKey property := by
  intro text value rest done
  rw [keyed] at done
  obtain ⟨⟨last, behind⟩, fields, done⟩ := bind_eq_ok_iff.mp done
  obtain ⟨whole, finish, done⟩ := bind_eq_ok_iff.mp done
  obtain ⟨rfl, -⟩ : whole = value ∧ behind = rest := by simpa using done
  exact finished (readFields_yields each start fields) finish

theorem yields_record {byKey asList : List Char → Except Fault (Parsed α)}
    (keyed : Yields byKey property) (listed : Yields asList property) :
    Yields (readRecord byKey asList) property := by
  intro text value rest done
  unfold readRecord at done
  split at done
  · simp at done
  · obtain ⟨⟨found, behind⟩, read, done⟩ := bind_eq_ok_iff.mp done
    obtain ⟨⟨_, after⟩, -, done⟩ := bind_eq_ok_iff.mp done
    obtain ⟨rfl, -⟩ : found = value ∧ after = rest := by simpa using done
    exact listed read
  · obtain ⟨⟨found, behind⟩, read, done⟩ := bind_eq_ok_iff.mp done
    obtain ⟨⟨_, after⟩, -, done⟩ := bind_eq_ok_iff.mp done
    obtain ⟨rfl, -⟩ : found = value ∧ after = rest := by simpa using done
    exact keyed read
  · simp at done

theorem required_eq_ok_iff {given : Option α} {value : α} :
    required given = .ok value ↔ given = some value := by
  cases given <;> simp [required]

end Parts

end ScriptLint.Json
