/-!
# Digits

Numbers as one or more digits in a base up to sixteen, without a sign and without separators.
-/

namespace ScriptLint.Digits

/-- The value of a digit in a base. -/
def value? (base : Nat) (c : Char) : Option Nat :=
  let value? :=
    if '0' ≤ c ∧ c ≤ '9' then some (c.toNat - '0'.toNat)
    else if 'a' ≤ c ∧ c ≤ 'f' then some (c.toNat - 'a'.toNat + 10)
    else if 'A' ≤ c ∧ c ≤ 'F' then some (c.toNat - 'A'.toNat + 10)
    else none
  value?.filter (· < base)

/-- The number that one or more digits write. -/
def number? (base : Nat) (digits : List Char) : Option Nat :=
  if digits = [] then none
  else do
    let values ← digits.mapM (value? base)
    return values.foldl (fun number value => number * base + value) 0

end ScriptLint.Digits
