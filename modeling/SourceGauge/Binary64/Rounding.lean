import SourceGauge.Binary64.Basic

/-!
# Rounding to binary64

Every operation computes its exact rational result and rounds once, to the nearest
datum, a tie going to the even significand. A result too large for a finite datum
becomes an infinity.
-/

namespace SourceGauge

/-- Where a quotient halfway between two integers goes. -/
inductive Tie where
  | toEven
  | away
deriving DecidableEq, Repr

def roundQuotient (tie : Tie) (num den : Nat) : Nat :=
  let floor := num / den
  let twice := 2 * (num % den)
  if twice < den then floor
  else if den < twice then floor + 1
  else
    match tie with
    | .toEven => floor + floor % 2
    | .away => floor + 1

namespace Binary64

/-- The exponent of the unit to which `num / den` is rounded: the quotient counted in
that unit lies between `2 ^ 52` and `2 ^ 53`, or the exponent is the least one. -/
def unitExponent (num den : Nat) : Int :=
  let guess : Int := (num.log2 : Int) - den.log2 - 52
  let small := num * Nat.pow 2 (-guess).toNat < den * Nat.pow 2 guess.toNat * fullSignificand
  max (if small then guess - 1 else guess) minExponent

/-- The datum nearest to `± num / den`, for a positive `den`. -/
def ofRatio (negative : Bool) (num den : Nat) : Binary64 :=
  if num = 0 then zero negative
  else
    let e := unitExponent num den
    let m := roundQuotient .toEven (num * Nat.pow 2 (-e).toNat) (den * Nat.pow 2 e.toNat)
    let carried := m = 2 * fullSignificand
    let significand := if carried then fullSignificand else m
    let exponent := if carried then e + 1 else e
    if maxExponent < exponent then infinity negative
    else finite negative significand exponent

def ofNat (n : Nat) : Binary64 := ofRatio false n 1

def mulNat (x : Binary64) (k : Nat) : Binary64 :=
  match x with
  | finite s m e => ofRatio s (numerator m e * k) (denominator e)
  | infinity s => infinity s
  | nan => nan

def divNat (x : Binary64) (k : Nat) : Binary64 :=
  match x with
  | finite s m e => ofRatio s (numerator m e) (denominator e * k)
  | infinity s => infinity s
  | nan => nan

def div : Binary64 → Binary64 → Binary64
  | nan, _ | _, nan | infinity _, infinity _ => nan
  | infinity s, finite t _ _ => infinity (s != t)
  | finite s _ _, infinity t => zero (s != t)
  | finite s m e, finite t n f =>
      if n = 0 then if m = 0 then nan else infinity (s != t)
      else ofRatio (s != t) (numerator m e * denominator f) (denominator e * numerator n f)

/-- A finite datum counted in units of `2 ^ minExponent`. -/
def units (negative : Bool) (significand : Nat) (exponent : Int) : Int :=
  let n : Int := significand * Nat.pow 2 (exponent - minExponent).toNat
  if negative then -n else n

def add : Binary64 → Binary64 → Binary64
  | nan, _ | _, nan => nan
  | infinity s, infinity t => if s = t then infinity s else nan
  | infinity s, finite .. | finite .., infinity s => infinity s
  | finite s m e, finite t n f =>
      let sum := units s m e + units t n f
      if sum = 0 then zero (s && t)
      else ofRatio (sum < 0) sum.natAbs (denominator minExponent)

/-- Whether a datum is less than another; nothing compares with the datum that is not
a number. -/
def lt : Binary64 → Binary64 → Bool
  | nan, _ | _, nan => false
  | infinity s, infinity t => s && !t
  | infinity s, finite .. => s
  | finite .., infinity t => !t
  | finite s m e, finite t n f => units s m e < units t n f

/-- The nearest integral datum, a half going away from zero. -/
def roundAway (x : Binary64) : Binary64 :=
  match x with
  | finite s m e =>
      if 0 ≤ e then x
      else ofRatio s (roundQuotient .away (numerator m e) (denominator e)) 1
  | infinity _ | nan => x

/-- The quotient of two counts, each rounded to binary64 first; no part of nothing is
zero. -/
def ratio (part whole : Nat) : Binary64 :=
  if whole = 0 then zero false else div (ofNat part) (ofNat whole)

end Binary64

end SourceGauge
