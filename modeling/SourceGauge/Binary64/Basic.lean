/-!
# Binary64 data

Floating-point data as exact numbers: a finite datum is a sign, a significand and a
power of two. Nothing here uses the machine's own floating-point unit.
-/

namespace SourceGauge

/-- A binary64 datum. The finite datum stands for `± significand * 2 ^ exponent`; its
significand is below `2 ^ 53`, and its exponent is the least one, `-1074`, unless the
significand has all 53 bits. -/
inductive Binary64 where
  | finite (negative : Bool) (significand : Nat) (exponent : Int)
  | infinity (negative : Bool)
  | nan
deriving DecidableEq, Repr, Inhabited

namespace Binary64

def minExponent : Int := -1074

def maxExponent : Int := 971

/-- The least significand that has all 53 bits. -/
def fullSignificand : Nat := Nat.pow 2 52

def zero (negative : Bool) : Binary64 := finite negative 0 minExponent

/-- The datum with the given bit pattern: sign, eleven bits of exponent, 52 bits of
fraction. -/
def ofBits (bits : UInt64) : Binary64 :=
  let n := bits.toNat
  let negative : Bool := n / Nat.pow 2 63 = 1
  let biased : Nat := n / Nat.pow 2 52 % Nat.pow 2 11
  let fraction : Nat := n % Nat.pow 2 52
  if biased = 2047 then
    if fraction = 0 then infinity negative else nan
  else if biased = 0 then finite negative fraction minExponent
  else finite negative (fullSignificand + fraction) ((biased : Int) - 1075)

/-- Numerator of `significand * 2 ^ exponent` over `denominator`. -/
def numerator (significand : Nat) (exponent : Int) : Nat :=
  significand * Nat.pow 2 exponent.toNat

/-- The power of two that `2 ^ exponent` has below its fraction bar. -/
def denominator (exponent : Int) : Nat := Nat.pow 2 (-exponent).toNat

end Binary64

end SourceGauge
