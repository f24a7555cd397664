import Entitlement.Text.Numeral

/-!
# Magnitudes

Decimal numbers without sign, and which of them are too great to be held in 64 bits as binary
fractions. A number is held as its digits, as far as they fit in 64 bits, times a power of ten; both
are rounded to 53 binary digits, and so is their product.
-/

namespace Entitlement.Text

/-- A decimal number without sign: its digits before and after the point, and its exponent. -/
structure Magnitude where
  whole : List Char
  fraction : List Char := []
  exponent : Int := 0
deriving DecidableEq

/-- A number with further decimal digits, as many as leave it within 64 bits, and how many of the
digits are left over. -/
def takeDigits (n : Nat) : List Char → Nat × Nat
  | [] => (n, 0)
  | digit :: rest =>
    let next := 10 * n + (digitsValue [digit]).getD 0
    if next ≤ maxWord then takeDigits next rest else (n, rest.length + 1)

/-- The nearest number of 53 significant binary digits; of two, the one whose last digit is zero. -/
def toSignificand (n : Nat) : Nat :=
  let unit := Nat.pow 2 (n.log2 - 52)
  let whole := n / unit
  let beyond := n % unit
  if unit < 2 * beyond || (unit = 2 * beyond && whole % 2 = 1) then (whole + 1) * unit
  else whole * unit

/-- Whether a number is too great: its product rounds to `2 ^ 1024`, or its power of ten is beyond
the greatest one below that. -/
def Magnitude.isTooGreat (m : Magnitude) : Bool :=
  let (digits, above) := takeDigits 0 m.whole
  let (digits, below) := takeDigits digits m.fraction
  let power := m.exponent + above + below - m.fraction.length
  if digits = 0 || power < 0 then false
  else if 308 < power then true
  else
    Nat.pow 2 1024 - Nat.pow 2 970 ≤ toSignificand digits * toSignificand (Nat.pow 10 power.toNat)

end Entitlement.Text
