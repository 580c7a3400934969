import TapeLang.Text.Ranges

/-!
White space of every script, the four information separators included. The zero-width space and
the byte-order mark are not white space.
-/
namespace TapeLang.Text

/-- White space. -/
def blanks : Ranges :=
  [(0x9, 0xD), (0x1C, 0x20), (0x85, 0x85), (0xA0, 0xA0), (0x1680, 0x1680), (0x2000, 0x200A),
   (0x2028, 0x2029), (0x202F, 0x202F), (0x205F, 0x205F), (0x3000, 0x3000)]

/-- Whether a code point is white space. -/
def isBlank (n : Nat) : Bool := blanks.has n

/-- The white space of ASCII text: the tabs, line breaks and the space, without the information
separators. -/
def isAsciiBlank (n : Nat) : Bool := (0x9 ≤ n && n ≤ 0xD) || n == 0x20

/-- White space of ASCII text is white space. -/
theorem isBlank_of_isAsciiBlank {n : Nat} (blank : isAsciiBlank n = true) :
    isBlank n = true := by
  simp only [isAsciiBlank, Bool.or_eq_true, Bool.and_eq_true, decide_eq_true_eq, beq_iff_eq]
    at blank
  rcases blank with inRun | rfl
  · have below : ∀ k < 0xE, 0x9 ≤ k → isBlank k = true := by decide
    exact below n (by omega) inRun.1
  · decide

end TapeLang.Text
