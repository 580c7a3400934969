import TapeLang.Number.Double

/-!
Decimal notation of doubles with the fewest digits that identify them. The reals that round to a
number form an interval; of the decimal grids 10^k, from coarse to fine, the first that has a point
in it next to the value gives the digits. Between two such points the nearer one is taken, and the
even one in a tie.
-/
namespace TapeLang.Number

/-- The magnitude `digits * 10 ^ exponent`. -/
structure Decimal where
  digits : Nat
  exponent : Int
deriving DecidableEq, Repr

/-- Compares `a * 10 ^ i` with `b * 2 ^ j`. -/
def compareScaled (a : Nat) (i : Int) (b : Nat) (j : Int) : Ordering :=
  compare (a * power 10 i * power 2 (-j)) (b * power 2 j * power 10 (-i))

/-- Whether a decimal lies among the reals that round to `mantissa * 2 ^ exponent`. The ends of the
interval belong to it when the mantissa is even. -/
def identifies (mantissa : Nat) (exponent : Int) (narrow : Bool) (d : Decimal) : Bool :=
  let low := compareScaled d.digits d.exponent
    (if narrow then 4 * mantissa - 1 else 4 * mantissa - 2) (exponent - 2)
  let high := compareScaled d.digits d.exponent (4 * mantissa + 2) (exponent - 2)
  let ends := mantissa % 2 == 0
  (low == .gt || (ends && low == .eq)) && (high == .lt || (ends && high == .eq))

/-- The number of decimal digits of a natural number, one for zero. -/
def digitCount (n : Nat) : Nat := (Nat.toDigits 10 n).length

/-- The least `k` such that a positive magnitude is below `10 ^ k`. -/
def decimalScale (mantissa : Nat) (exponent : Int) : Int :=
  let whole := mantissa * power 2 exponent / power 2 (-exponent)
  if whole = 0 then 1 - (digitCount (power 2 (-exponent) / mantissa) : Int)
  else digitCount whole

/-- The point of a grid that identifies a magnitude, if one of its two neighbours there does. -/
def onGrid? (mantissa : Nat) (exponent : Int) (narrow : Bool) (grid : Int) : Option Decimal :=
  let scaled := mantissa * power 2 exponent * power 10 (-grid)
  let unit := power 2 (-exponent) * power 10 grid
  let below := scaled / unit
  let low : Decimal := ⟨below, grid⟩
  let high : Decimal := ⟨below + 1, grid⟩
  match identifies mantissa exponent narrow low, identifies mantissa exponent narrow high with
  | false, false => none
  | true, false => some low
  | false, true => some high
  | true, true =>
    match compare (2 * (scaled % unit)) unit with
    | .lt => some low
    | .gt => some high
    | .eq => some (if below % 2 = 0 then low else high)

/-- The shortest decimal that identifies a positive magnitude. Seventeen digits are always enough;
should they not be, all digits of the exact value are given. -/
def shortest (mantissa : Nat) (exponent : Int) (narrow : Bool) : Decimal :=
  let scale := decimalScale mantissa exponent
  let found := (List.range 17).findSome? fun k =>
    onGrid? mantissa exponent narrow (scale - (k + 1 : Nat))
  found.getD ⟨mantissa * power 2 exponent * power 5 (-exponent), min exponent 0⟩

/-- The texts of the values that have no digits. -/
structure Special where
  undefined : String
  infinite : String

/-- Digits with a point where the exponent of the first digit puts it: positional from 10^-4 up to
10^16, with an exponent of at least two digits and a sign otherwise. -/
def layOut (digits : List Char) (first : Int) : String :=
  if -4 ≤ first ∧ first < 16 then
    if first < 0 then
      "0." ++ String.ofList (List.replicate (-first - 1).toNat '0' ++ digits)
    else
      let whole := first.toNat + 1
      if digits.length ≤ whole then
        String.ofList (digits ++ List.replicate (whole - digits.length) '0') ++ ".0"
      else String.ofList (digits.take whole) ++ "." ++ String.ofList (digits.drop whole)
  else
    let fraction := if digits.length ≤ 1 then [] else '.' :: digits.drop 1
    let power := first.natAbs
    String.ofList (digits.take 1 ++ fraction) ++ (if first < 0 then "e-" else "e+") ++
      (if power < 10 then "0" else "") ++ toString power

/-- The text of an exact value. -/
def Exact.text (special : Special) : Exact → String
  | .undefined => special.undefined
  | .infinite negative => (if negative then "-" else "") ++ special.infinite
  | .finite negative mantissa exponent narrow =>
    let sign := if negative then "-" else ""
    if mantissa = 0 then sign ++ "0.0"
    else
      let d := shortest mantissa exponent narrow
      let written := Nat.toDigits 10 d.digits
      let digits := (written.reverse.dropWhile (· == '0')).reverse
      sign ++ layOut digits (d.exponent + written.length - 1)

end TapeLang.Number
