import SourceGauge.Binary64.Rounding
import SourceGauge.Text.Basic

/-!
# Numerals

A datum written with a fixed number of decimal places, with the two-place numeral of a
ratio as reports show it, and the shortest decimal of a datum: the one with the fewest
digits among those that read back, and of these the nearest. A decimal reads back when it
lies in the interval of numbers that round to the datum; the ends belong to it when the
significand is even.
-/

namespace SourceGauge.Binary64

def signText (negative : Bool) : List Char := if negative then ['-'] else []

/-- The exact value rounded to `places` decimal places, a tie going to the even
neighbour. A negative datum keeps its sign also when it rounds to zero. -/
def fixed (places : Nat) : Binary64 → List Char
  | finite s m e =>
      signText s ++
        Text.fixedPoint places
          (roundQuotient .toEven (numerator m e * Nat.pow 10 places) (denominator e))
  | infinity s => signText s ++ "inf".toList
  | nan => "NaN".toList

/-- A ratio with two places: its hundredths are rounded to an integer, a half away from
zero, before two places are written. -/
def ratioText (x : Binary64) : List Char := fixed 2 (divNat (roundAway (mulNat x 100)) 100)

/-! ## Shortest decimals -/

/-- The number `coefficient * 10 ^ exponent`. -/
structure Decimal where
  coefficient : Nat
  exponent : Int
deriving DecidableEq, Repr

namespace Decimal

def compareRatio (d : Decimal) (num den : Nat) : Ordering :=
  compare (d.coefficient * Nat.pow 10 d.exponent.toNat * den)
    (num * Nat.pow 10 (-d.exponent).toNat)

/-- The greatest multiple of `10 ^ exponent` that is not above `num / den`. -/
def below (num den : Nat) (exponent : Int) : Decimal where
  coefficient := num * Nat.pow 10 (-exponent).toNat / (den * Nat.pow 10 exponent.toNat)
  exponent := exponent

def next (d : Decimal) : Decimal := { d with coefficient := d.coefficient + 1 }

def dropZerosFuel : Nat → Decimal → Decimal
  | 0, d => d
  | fuel + 1, d =>
      if d.coefficient % 10 = 0 then
        dropZerosFuel fuel ⟨d.coefficient / 10, d.exponent + 1⟩
      else d

def dropZeros (d : Decimal) : Decimal :=
  if d.coefficient = 0 then ⟨0, 0⟩
  else dropZerosFuel (Text.decimal d.coefficient).length d

end Decimal

/-- The numbers that round to a positive datum, in quarters of its unit: the lower end,
the value and the upper end. Below a power of two the data lie twice as close. -/
def quarters (significand : Nat) (exponent : Int) : Nat × Nat × Nat :=
  let gap := if significand = fullSignificand ∧ exponent ≠ minExponent then 1 else 2
  (4 * significand - gap, 4 * significand, 4 * significand + 2)

/-- Whether a decimal reads back as the positive datum. -/
def readsBack (significand : Nat) (exponent : Int) (d : Decimal) : Bool :=
  let (lower, _, upper) := quarters significand exponent
  let unit := exponent - 2
  let low := d.compareRatio (numerator lower unit) (denominator unit)
  let high := d.compareRatio (numerator upper unit) (denominator unit)
  if significand % 2 = 0 then low != .lt && high != .gt
  else low == .gt && high == .lt

/-- Of a decimal and the next one, the one nearer to the value; a tie goes to the even
coefficient. -/
def nearer (significand : Nat) (exponent : Int) (d : Decimal) : Decimal :=
  let middle : Decimal := ⟨10 * d.coefficient + 5, d.exponent - 1⟩
  match middle.compareRatio (numerator significand exponent) (denominator exponent) with
  | .lt => d.next
  | .gt => d
  | .eq => if d.coefficient % 2 = 0 then d else d.next

/-- The hit on the grid of multiples of `10 ^ grid`, if there is one: one of the two
neighbours of the value. -/
def onGrid? (significand : Nat) (exponent grid : Int) : Option Decimal :=
  let d := Decimal.below (numerator significand exponent) (denominator exponent) grid
  match readsBack significand exponent d, readsBack significand exponent d.next with
  | true, true => some (nearer significand exponent d)
  | true, false => some d
  | false, true => some d.next
  | false, false => none

def leadingPower (num den : Nat) : Int :=
  let guess : Int := ((Text.decimal num).length : Int) - (Text.decimal den).length
  if den * Nat.pow 10 guess.toNat ≤ num * Nat.pow 10 (-guess).toNat then guess
  else guess - 1

def shortestFuel (significand : Nat) (exponent : Int) : Nat → Int → Decimal
  | 0, grid => Decimal.below (numerator significand exponent) (denominator exponent) grid
  | fuel + 1, grid =>
      match onGrid? significand exponent grid with
      | some d => d
      | none => shortestFuel significand exponent fuel (grid - 1)

/-- The shortest decimal that reads back as the positive datum
`significand * 2 ^ exponent`. Seventeen digits always suffice. -/
def shortest (significand : Nat) (exponent : Int) : Decimal :=
  let top := leadingPower (numerator significand exponent) (denominator exponent)
  (shortestFuel significand exponent 17 top).dropZeros

end SourceGauge.Binary64
