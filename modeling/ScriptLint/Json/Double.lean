/-!
# Magnitudes of doubles

A number with a fraction or an exponent is kept as a double: its digits and the power of ten are
each rounded to a double, and so is their product. It is out of range if that product is no longer
finite.
-/

namespace ScriptLint.Json

/-- How many binary digits a double keeps. -/
def doubleDigits : Nat := 53

/-- The whole number rounded to a multiple of `unit`; halfway, to the even multiple. -/
def roundedTo (unit number : Nat) : Nat :=
  let lower := number / unit
  let rest := number % unit
  if 2 * rest > unit ∨ (2 * rest = unit ∧ lower % 2 = 1) then (lower + 1) * unit
  else lower * unit

/-- The double nearest to a whole number, where no exponent is too large. -/
def nearestDouble (number : Nat) : Nat :=
  roundedTo (Nat.pow 2 (number.log2 + 1 - doubleDigits)) number

/-- The least whole number whose nearest double would be infinite: halfway between the largest
double and the power of two above it. -/
def firstInfinite : Nat :=
  Nat.pow 2 1024 - Nat.pow 2 970

/-- The largest power of ten that is a finite double. -/
def maxScale : Int := 308

/-- Whether `digits * 10 ^ exponent` is too large for a double. -/
def outOfRange (digits : Nat) (exponent : Int) : Bool :=
  digits ≠ 0 && exponent ≥ 0 &&
    (exponent > maxScale ||
      nearestDouble digits * nearestDouble (Nat.pow 10 exponent.toNat) ≥ firstInfinite)

end ScriptLint.Json
