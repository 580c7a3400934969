import TapeLang.Text.Blank
import TapeLang.Text.Digit
import TapeLang.Text.Quoted

/-!
Integer literals. A literal is an optional sign and digits of any script, with single underscores
between them and white space around the whole. A prefixed literal may also be hexadecimal, octal or
binary, and in decimal then has no leading zeros. A decimal literal of more than 4300 digits is
refused whatever follows it; powers of two have no limit.
-/
namespace TapeLang.Text.Numeral

/-- The most digits that a decimal literal may have. -/
def digitLimit : Nat := 4300

/-- Why a text is no integer literal. -/
inductive Fault where
  | malformed (base : Nat) (text : Text)
  | tooLong (digits : Nat)
deriving DecidableEq, Repr

def Fault.message : Fault → String
  | .malformed base text =>
    s!"invalid literal for int() with base {base}: " ++ toString ((quoted text).take 200)
  | .tooLong digits =>
    s!"Exceeds the limit ({digitLimit} digits) for integer string conversion: value has {digits} " ++
      "digits; use sys.set_int_max_str_digits() to increase the limit"

/-- The ASCII form of a code point in a literal: white space becomes a space, a decimal digit the
digit of the same value, and what can be neither becomes a question mark. -/
def asciiForm (n : Nat) : Nat :=
  if n < 0x7F then n
  else if isBlank n then 0x20
  else
    match decimalValue? n with
    | some v => 0x30 + v
    | none => 0x3F

/-- The value of a digit or letter in a base of at most thirty-six. -/
def digitIn (base n : Nat) : Option Nat :=
  let value :=
    if 0x30 ≤ n ∧ n ≤ 0x39 then n - 0x30
    else if 0x41 ≤ n ∧ n ≤ 0x5A then n - 0x37
    else if 0x61 ≤ n ∧ n ≤ 0x7A then n - 0x57
    else base
  if value < base then some value else none

/-- Reads a run of digits with single underscores between them. `gap` says that no underscore may
stand next. The result holds the value, the number of digits and what follows the run. -/
def readDigits (base value count : Nat) (gap : Bool) : Text → Option (Nat × Nat × Text)
  | [] => if gap then none else some (value, count, [])
  | n :: rest =>
    if n = 0x5F then
      if gap then none else readDigits base value count true rest
    else
      match digitIn base n with
      | some d => readDigits base (value * base + d) (count + 1) false rest
      | none => if gap then none else some (value, count, n :: rest)

/-- How the digits of a literal are written: their base, whether the literal may have leading
zeros, and whether an underscore may stand before the first digit. -/
structure Form where
  base : Nat
  leadingZeros : Bool
  gap : Bool
deriving DecidableEq, Repr

/-- The form of a literal that may carry a prefix, and the text after the prefix. -/
def prefixedForm : Text → Form × Text
  | 0x30 :: n :: rest =>
    if n = 0x78 ∨ n = 0x58 then (⟨16, true, false⟩, rest)
    else if n = 0x6F ∨ n = 0x4F then (⟨8, true, false⟩, rest)
    else if n = 0x62 ∨ n = 0x42 then (⟨2, true, false⟩, rest)
    else (⟨10, false, true⟩, 0x30 :: n :: rest)
  | t => (⟨10, true, true⟩, t)

/-- The magnitude that an unsigned literal of a given form spells. `fault` is the refusal of the
whole literal. -/
def readForm (fault : Fault) (form : Form) (t : Text) : Except Fault Nat :=
  match readDigits form.base 0 0 form.gap t with
  | none => .error fault
  | some (value, count, rest) =>
    if form.base = 10 ∧ count > digitLimit then .error (.tooLong count)
    else if count = 0 ∨ (!form.leadingZeros ∧ value ≠ 0) ∨ !rest.all isAsciiBlank then .error fault
    else .ok value

/-- Splits a literal in ASCII form into its sign and what follows it. -/
def splitSign : Text → Bool × Text
  | 0x2D :: rest => (true, rest)
  | 0x2B :: rest => (false, rest)
  | t => (false, t)

/-- Gives a magnitude its sign. -/
def signed (negative : Bool) (n : Nat) : Int := if negative then -(n : Int) else n

/-- The integer that a decimal literal spells. -/
def read (t : Text) : Except Fault Int :=
  let (negative, digits) := splitSign ((t.map asciiForm).dropWhile isAsciiBlank)
  (readForm (.malformed 10 t) ⟨10, true, true⟩ digits).map (signed negative)

/-- The integer that a decimal, hexadecimal, octal or binary literal spells. -/
def readPrefixed (t : Text) : Except Fault Int :=
  let (negative, digits) := splitSign ((t.map asciiForm).dropWhile isAsciiBlank)
  let (form, digits) := prefixedForm digits
  (readForm (.malformed 0 t) form digits).map (signed negative)

end TapeLang.Text.Numeral
