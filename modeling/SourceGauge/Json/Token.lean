import SourceGauge.Json.Basic
import SourceGauge.Text.Basic

/-!
# Tokens of JSON

Space, strings and numbers. Each reader takes its part from the front of a text and gives
the rest. Numbers have no limits.
-/

namespace SourceGauge.Json

def isSpace (c : Char) : Bool := c == ' ' || c == '\t' || c == '\n' || c == '\r'

def skipSpace (s : List Char) : List Char := s.dropWhile isSpace

/-! ## Strings -/

def hexValue? (c : Char) : Option Nat :=
  if c.isDigit then some (c.toNat - '0'.toNat)
  else if 'a' ≤ c ∧ c ≤ 'f' then some (c.toNat - 'a'.toNat + 10)
  else if 'A' ≤ c ∧ c ≤ 'F' then some (c.toNat - 'A'.toNat + 10)
  else none

def hexCode? (a b c d : Char) : Option Nat := do
  let high := (← hexValue? a) * 16 + (← hexValue? b)
  return high * 256 + (← hexValue? c) * 16 + (← hexValue? d)

def escaped? (c : Char) : Option Char :=
  if c = '"' ∨ c = '\\' ∨ c = '/' then some c
  else if c = 'b' then some (Char.ofNat 8)
  else if c = 'f' then some (Char.ofNat 12)
  else if c = 'n' then some '\n'
  else if c = 'r' then some '\r'
  else if c = 't' then some '\t'
  else none

/-- Reads a string behind its opening quote as numbers: the code points of its characters,
and the halves of surrogate pairs where escapes write them. -/
def readString : List Char → Option (List Nat × List Char)
  | [] => none
  | '"' :: rest => some ([], rest)
  | '\\' :: 'u' :: a :: b :: c :: d :: rest => do
      let code ← hexCode? a b c d
      let (codes, rest) ← readString rest
      return (code :: codes, rest)
  | '\\' :: e :: rest => do
      let char ← escaped? e
      let (codes, rest) ← readString rest
      return (char.toNat :: codes, rest)
  | c :: rest =>
      if c = '\\' ∨ c.toNat < 0x20 then none
      else do
        let (codes, rest) ← readString rest
        return (c.toNat :: codes, rest)

/-- The text of a string, unless half of a surrogate pair stands alone in it. -/
def textOf? : List Nat → Option (List Char)
  | [] => some []
  | [n] => if 0xD800 ≤ n ∧ n < 0xE000 then none else some [Char.ofNat n]
  | n :: m :: rest =>
      if 0xD800 ≤ n ∧ n < 0xDC00 ∧ 0xDC00 ≤ m ∧ m < 0xE000 then
        (textOf? rest).map (Char.ofNat (0x10000 + (n - 0xD800) * 0x400 + (m - 0xDC00)) :: ·)
      else if 0xD800 ≤ n ∧ n < 0xE000 then none
      else (textOf? (m :: rest)).map (Char.ofNat n :: ·)

/-! ## Numbers -/

def readDigits (s : List Char) : Option (List Char × List Char) :=
  let digits := s.takeWhile Char.isDigit
  if digits.isEmpty then none else some (digits, s.dropWhile Char.isDigit)

/-- Reads the digits before the point; a leading zero stands alone. -/
def readWhole (s : List Char) : Option (List Char × List Char) :=
  match s with
  | '0' :: rest => some (['0'], rest)
  | _ => readDigits s

def readFraction (s : List Char) : Option (List Char × List Char) :=
  match s with
  | '.' :: rest => (readDigits rest).map fun r => ('.' :: r.1, r.2)
  | _ => some ([], s)

def readExponent (s : List Char) : Option (List Char × List Char) :=
  match s with
  | [] => some ([], [])
  | mark :: rest =>
      if mark = 'e' ∨ mark = 'E' then
        let (sign, rest) :=
          match rest with
          | '+' :: rest => (['+'], rest)
          | '-' :: rest => (['-'], rest)
          | _ => ([], rest)
        (readDigits rest).map fun r => (mark :: sign ++ r.1, r.2)
      else some ([], s)

def readNumber (s : List Char) : Option (List Char × List Char) := do
  let (sign, rest) :=
    match s with
    | '-' :: rest => (['-'], rest)
    | _ => ([], s)
  let (whole, rest) ← readWhole rest
  let (fraction, rest) ← readFraction rest
  let (exponent, rest) ← readExponent rest
  return (sign ++ whole ++ fraction ++ exponent, rest)

end SourceGauge.Json
