/-!
Texts. A text is a sequence of code points; unlike a `String` it can also hold the unpaired halves
of a surrogate pair, which the escapes of a protocol line may spell out. Program sources, paths
and reports hold no such halves and are plain strings.
-/
namespace TapeLang

/-- A sequence of code points. -/
abbrev Text := List Nat

namespace Text

/-- The code points of a string. -/
def ofString (s : String) : Text := s.toList.map Char.toNat

/-- The string of a text; an unpaired half becomes the replacement character. -/
def toString (t : Text) : String :=
  String.ofList (t.map fun n => if n.isValidChar then Char.ofNat n else '\uFFFD')

/-- Whether a code point is half of a surrogate pair. -/
def isSurrogate (n : Nat) : Bool := 0xD800 ≤ n && n < 0xE000

/-- A text without unpaired halves, in the range of the code points. -/
def IsScalar (t : Text) : Prop := ∀ n ∈ t, n.isValidChar

/-- The text without the code points at either end that satisfy `drop`. -/
def trim (drop : Nat → Bool) (t : Text) : Text :=
  ((t.dropWhile drop).reverse.dropWhile drop).reverse

theorem ofString_isScalar (s : String) : IsScalar (ofString s) := by
  intro n mem
  simp only [ofString, List.mem_map] at mem
  obtain ⟨c, _, rfl⟩ := mem
  exact c.valid

/-- A string survives the way through its code points. -/
theorem toString_ofString (s : String) : toString (ofString s) = s := by
  have each : ∀ c : Char, (if c.toNat.isValidChar then c else '\uFFFD') = c := fun c =>
    if_pos c.valid
  simp [toString, ofString, Function.comp_def, each]

end Text
end TapeLang
