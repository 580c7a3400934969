import TapeLang.Text.Basic

/-!
Hexadecimal digits, as escapes and reports write them: lower case, padded with zeros to a width.
-/
namespace TapeLang.Text

/-- The lower-case digit of a value below sixteen. -/
def hexDigit (v : Nat) : Nat := if v < 10 then 0x30 + v else 0x57 + v

/-- The value of a hexadecimal digit of either case. -/
def hexValue? (n : Nat) : Option Nat :=
  if 0x30 ≤ n ∧ n ≤ 0x39 then some (n - 0x30)
  else if 0x41 ≤ n ∧ n ≤ 0x46 then some (n - 0x37)
  else if 0x61 ≤ n ∧ n ≤ 0x66 then some (n - 0x57)
  else none

/-- The last `width` hexadecimal digits of a number. -/
def hex : (width : Nat) → Nat → Text
  | 0, _ => []
  | width + 1, n => hex width (n / 16) ++ [hexDigit (n % 16)]

theorem length_hex (width n : Nat) : (hex width n).length = width := by
  induction width generalizing n with
  | zero => rfl
  | succ width ih => simp [hex, ih]

/-- A written digit reads back. -/
theorem hexValue?_hexDigit {v : Nat} (below : v < 16) : hexValue? (hexDigit v) = some v := by
  have all : ∀ w < 16, hexValue? (hexDigit w) = some w := by decide
  exact all v below

end TapeLang.Text
