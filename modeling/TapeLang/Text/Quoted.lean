import TapeLang.Text.Hex
import TapeLang.Text.Printable

/-!
Quoted texts, as messages show a path, a literal or a word. A text stands in single quotes, or in
double quotes when it holds a single quote and no double one. The quote that is used, the backslash
and every code point without a visible form are escaped.
-/
namespace TapeLang.Text

/-- The escape of a code point that has no visible form, with two, four or eight digits. -/
def escapedPoint (n : Nat) : Text :=
  if n < 0x100 then ofString "\\x" ++ hex 2 n
  else if n < 0x10000 then ofString "\\u" ++ hex 4 n
  else ofString "\\U" ++ hex 8 n

/-- One code point between quotes. -/
def quotedPoint (quote n : Nat) : Text :=
  if n = quote ∨ n = 0x5C then [0x5C, n]
  else if n = 0x9 then ofString "\\t"
  else if n = 0xA then ofString "\\n"
  else if n = 0xD then ofString "\\r"
  else if isPrintable n then [n]
  else escapedPoint n

/-- The quote that surrounds a text. -/
def quoteFor (t : Text) : Nat := if 0x27 ∈ t ∧ 0x22 ∉ t then 0x22 else 0x27

/-- A text in quotes. -/
def quoted (t : Text) : Text :=
  let quote := quoteFor t
  [quote] ++ t.flatMap (quotedPoint quote) ++ [quote]

/-- A string in quotes. -/
def quotedString (s : String) : String := toString (quoted (ofString s))

end TapeLang.Text
