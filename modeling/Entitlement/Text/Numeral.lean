/-!
# Unsigned numerals

Decimal numerals with a bound: an optional plus sign, then ASCII digits, leading zeros allowed.
Hexadecimal digits are read as the number that they are the last digits of (`hexValue?_hexDigits`).
-/

namespace Entitlement.Text

/-- The greatest number of 64 binary digits. -/
def maxWord : Nat := 0xFFFFFFFFFFFFFFFF

/-- The value of a run of ASCII digits; `none` if some other character is in it. -/
def digitsValue (cs : List Char) : Option Nat :=
  cs.foldlM (fun value c => if c.isDigit then some (10 * value + (c.toNat - 48)) else none) 0

/-- The number that a text denotes, unless it is no numeral or exceeds `bound`. -/
def unsigned? (bound : Nat) (s : String) : Option Nat :=
  let digits := match s.toList with
    | '+' :: rest => rest
    | cs => cs
  if digits = [] then none
  else (digitsValue digits).filter (· ≤ bound)

def hexDigit? (c : Char) : Option Nat :=
  if '0' ≤ c ∧ c ≤ '9' then some (c.toNat - 48)
  else if 'a' ≤ c ∧ c ≤ 'f' then some (c.toNat - 87)
  else if 'A' ≤ c ∧ c ≤ 'F' then some (c.toNat - 55)
  else none

/-- The value of a run of hexadecimal digits; `none` if some other character is in it. -/
def hexValue? (cs : List Char) : Option Nat :=
  cs.foldlM (fun value c => (hexDigit? c).map (16 * value + ·)) 0

/-- The small hexadecimal digit of a value below 16. -/
def hexChar (d : Nat) : Char := if d < 10 then Char.ofNat (48 + d) else Char.ofNat (87 + d)

/-- The `width` last hexadecimal digits of a number. -/
def hexDigits : (width : Nat) → Nat → List Char
  | 0, _ => []
  | width + 1, n => hexDigits width (n / 16) ++ [hexChar (n % 16)]

theorem hexDigit?_hexChar : ∀ d, d < 16 → hexDigit? (hexChar d) = some d := by decide

theorem length_hexDigits (width n : Nat) : (hexDigits width n).length = width := by
  induction width generalizing n with
  | zero => rfl
  | succ width ih => rw [hexDigits, List.length_append, ih, List.length_singleton]

theorem mem_hexDigits {width n : Nat} {c : Char} (mem : c ∈ hexDigits width n) :
    ∃ d, d < 16 ∧ hexChar d = c := by
  induction width generalizing n with
  | zero => cases mem
  | succ width ih =>
    rw [hexDigits, List.mem_append, List.mem_singleton] at mem
    rcases mem with earlier | rfl
    · exact ih earlier
    · exact ⟨n % 16, Nat.mod_lt _ (by decide), rfl⟩

theorem hexValue?_concat (cs : List Char) (c : Char) : hexValue? (cs ++ [c]) =
    (hexValue? cs).bind fun value => (hexDigit? c).map (16 * value + ·) := by
  rw [hexValue?, List.foldlM_append]
  refine Option.bind_congr fun value _ => ?_
  rw [List.foldlM_cons]
  cases hexDigit? c <;> rfl

theorem hexValue?_hexDigits (width n : Nat) :
    hexValue? (hexDigits width n) = some (n % Nat.pow 16 width) := by
  induction width generalizing n with
  | zero => exact congrArg some (Nat.mod_one n).symm
  | succ width ih =>
    have higher : hexValue? (hexDigits width (n / 16)) = some (n / 16 % Nat.pow 16 width) := ih _
    have place : Nat.pow 16 (width + 1) = 16 * Nat.pow 16 width := Nat.mul_comm ..
    have last : hexDigit? (hexChar (n % 16)) = some (n % 16) :=
      hexDigit?_hexChar _ (Nat.mod_lt _ (by decide))
    rw [hexDigits, hexValue?_concat, higher, Option.bind_some, last, Option.map_some, place, Nat.mod_mul,
      Nat.add_comm]

end Entitlement.Text
