/-!
Double-precision numbers seen exactly: a finite one is a sign and a natural number times a power of
two. Truncation and decimal notation work on that value and never round on the way.
-/
namespace TapeLang.Number

/-- The exact value of a number. A finite magnitude is `mantissa * 2 ^ exponent`; `narrow` says that
the gap to the next smaller magnitude is half the gap to the next larger one. -/
inductive Exact where
  | undefined
  | infinite (negative : Bool)
  | finite (negative : Bool) (mantissa : Nat) (exponent : Int) (narrow : Bool)
deriving DecidableEq, Repr

/-- The exact value that a bit pattern stands for. -/
def Exact.ofBits (bits : UInt64) : Exact :=
  let negative := bits >>> 63 == 1
  let scale := ((bits >>> 52) &&& 0x7FF).toNat
  let fraction := (bits &&& 0xFFFFFFFFFFFFF).toNat
  if scale = 0x7FF then
    if fraction = 0 then .infinite negative else .undefined
  else if scale = 0 then .finite negative fraction (-1074) false
  else .finite negative (0x10000000000000 + fraction) ((scale : Int) - 1075) (fraction = 0 && scale > 1)

/-- The exact value of a number. -/
def exact (x : Float) : Exact := .ofBits x.toBits

/-- A power of a base, one where the exponent is negative. -/
def power (base : Nat) (exponent : Int) : Nat := base.pow exponent.toNat

/-- The integer part of a finite value, toward zero. -/
def truncated (negative : Bool) (mantissa : Nat) (exponent : Int) : Int :=
  let magnitude := mantissa * power 2 exponent / power 2 (-exponent)
  if negative then -(magnitude : Int) else magnitude

/-- The number nearest to `mantissa * 10 ^ exponent`. Exponents that no mantissa of this many digits
can bring back into range are settled before any power is taken. -/
def ofDecimal (negative : Bool) (mantissa : Nat) (digits : Nat) (exponent : Int) : Float :=
  let magnitude : Float :=
    if mantissa = 0 then 0
    else if exponent + digits > 400 then 1 / 0
    else if exponent + digits < -400 then 0
    else Float.ofScientific mantissa (exponent < 0) exponent.natAbs
  if negative then -magnitude else magnitude

end TapeLang.Number
