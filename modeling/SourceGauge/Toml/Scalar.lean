import SourceGauge.Binary64.Rounding
import SourceGauge.Text.Basic
import SourceGauge.Text.Search

/-!
# TOML numbers and dates

Which words are numbers, dates and times. Their values are not kept, but a word whose
value has no place in its type is refused.
-/

namespace SourceGauge.Toml

/-! ## Numbers -/

/-- Characters with single underscores between them, without the underscores. -/
def grouped? (p : Char → Bool) (s : List Char) : Option (List Char) :=
  let groups := Text.splitOn '_' s
  if groups.all fun g => !g.isEmpty && g.all p then some groups.flatten else none

/-- The digits of a decimal integer, which has no needless leading zero. -/
def wholeDigits? (s : List Char) : Option (List Char) := do
  let digits ← grouped? Char.isDigit s
  if digits.head? = some '0' ∧ 1 < digits.length then none else some digits

def baseDigit (c : Char) : Nat :=
  if c.isDigit then c.toNat - '0'.toNat
  else if 'a' ≤ c then c.toNat - 'a'.toNat + 10
  else c.toNat - 'A'.toNat + 10

def isBaseDigit (base : Nat) (c : Char) : Bool :=
  (c.isDigit || ('a' ≤ c && c ≤ 'f') || ('A' ≤ c && c ≤ 'F')) && baseDigit c < base

def baseValue? (base : Nat) (s : List Char) : Option Nat := do
  let digits ← grouped? (isBaseDigit base) s
  return digits.foldl (fun n c => base * n + baseDigit c) 0

/-- The largest magnitude of an integer: below zero as in 128 bits with sign, above as in
128 bits without. -/
def maxMagnitude (negative : Bool) : Nat :=
  if negative then Nat.pow 2 127 else Nat.pow 2 128 - 1

def splitSign (s : List Char) : Bool × List Char :=
  match s with
  | '-' :: rest => (true, rest)
  | '+' :: rest => (false, rest)
  | _ => (false, s)

def isInteger (s : List Char) : Bool :=
  match s with
  | '0' :: 'x' :: rest => (baseValue? 16 rest).any (· ≤ maxMagnitude false)
  | '0' :: 'o' :: rest => (baseValue? 8 rest).any (· ≤ maxMagnitude false)
  | '0' :: 'b' :: rest => (baseValue? 2 rest).any (· ≤ maxMagnitude false)
  | _ =>
      let (negative, rest) := splitSign s
      (wholeDigits? rest).any fun d => Text.digitsValue d ≤ maxMagnitude negative

/-- Whether `digits * 10 ^ exponent` rounds to a finite datum. -/
def isFinite (digits : List Char) (exponent : Int) : Bool :=
  let significant := digits.dropWhile (· = '0')
  let power := exponent + significant.length
  if significant.isEmpty || power < -400 then true
  else if 400 < power then false
  else
    let n := Text.digitsValue significant
    match Binary64.ofRatio false (n * Nat.pow 10 exponent.toNat) (Nat.pow 10 (-exponent).toNat) with
    | .finite .. => true
    | .infinity _ | .nan => false

def exponent? (s : List Char) : Option Int := do
  let (negative, rest) := splitSign s
  let digits ← grouped? Char.isDigit rest
  let n : Int := Text.digitsValue digits
  return if negative then -n else n

/-- Whether a word without sign is a float: a whole number with a fraction, an exponent or
both. -/
def isPlainFloat (s : List Char) : Bool :=
  let isMark := fun (c : Char) => c == 'e' || c == 'E'
  let mantissa := s.takeWhile (!isMark ·)
  let whole := mantissa.takeWhile (· != '.')
  let check := do
    let wholeDigits ← wholeDigits? whole
    let places ←
      match mantissa.dropWhile (· != '.') with
      | [] => some []
      | _ :: fraction => grouped? Char.isDigit fraction
    let exponent ←
      match s.dropWhile (!isMark ·) with
      | [] => if places.isEmpty then none else some 0
      | _ :: power => exponent? power
    return isFinite (wholeDigits ++ places) (exponent - places.length)
  check.getD false

def isFloat (s : List Char) : Bool :=
  let rest := (splitSign s).2
  rest == "inf".toList || rest == "nan".toList || isPlainFloat rest

/-! ## Dates and times -/

def readDigits (n : Nat) (s : List Char) : Option (Nat × List Char) :=
  let digits := s.take n
  if digits.length = n ∧ digits.all Char.isDigit then some (Text.digitsValue digits, s.drop n)
  else none

def readChar (c : Char) (s : List Char) : Option (List Char) :=
  match s with
  | d :: rest => if d = c then some rest else none
  | [] => none

def daysIn (year month : Nat) : Nat :=
  if month = 2 then
    if year % 4 = 0 ∧ (year % 100 ≠ 0 ∨ year % 400 = 0) then 29 else 28
  else if month = 4 ∨ month = 6 ∨ month = 9 ∨ month = 11 then 30
  else 31

def readDate (s : List Char) : Option (List Char) := do
  let (year, s) ← readDigits 4 s
  let s ← readChar '-' s
  let (month, s) ← readDigits 2 s
  let s ← readChar '-' s
  let (day, s) ← readDigits 2 s
  if 1 ≤ month ∧ month ≤ 12 ∧ 1 ≤ day ∧ day ≤ daysIn year month then some s else none

/-- Reads the seconds of a time, which may be missing, and their fraction. -/
def readSeconds (s : List Char) : Option (List Char) :=
  match s with
  | ':' :: rest => do
      let (second, rest) ← readDigits 2 rest
      if 60 < second then none
      else
        match rest with
        | '.' :: fraction =>
            if (fraction.takeWhile Char.isDigit).isEmpty then none
            else some (fraction.dropWhile Char.isDigit)
        | _ => some rest
  | _ => some s

def readTime (s : List Char) : Option (List Char) := do
  let (hour, s) ← readDigits 2 s
  let s ← readChar ':' s
  let (minute, s) ← readDigits 2 s
  if 23 < hour ∨ 59 < minute then none else readSeconds s

def isOffset (s : List Char) : Bool :=
  match s with
  | [] | ['Z'] | ['z'] => true
  | sign :: rest =>
      let check := do
        let (hour, rest) ← readDigits 2 rest
        let rest ← readChar ':' rest
        let (minute, rest) ← readDigits 2 rest
        return hour ≤ 23 && minute ≤ 59 && rest.isEmpty
      (sign == '+' || sign == '-') && check.getD false

def isDateTime (s : List Char) : Bool :=
  match readDate s with
  | some [] => true
  | some (mark :: rest) =>
      (mark == 'T' || mark == 't' || mark == ' ') && (readTime rest).any isOffset
  | none => (readTime s).any List.isEmpty

def isScalar (s : List Char) : Bool := isInteger s || isFloat s || isDateTime s

end SourceGauge.Toml
