import SourceGauge.Binary64.Numeral

/-!
# JSON values

The data of a JSON text. A number keeps its spelling, because nothing here computes with
numbers that are read. Members of an object keep their order and may repeat a name.

The token of a binary64 datum is its shortest decimal. Between `1e-5` and `1e16` it is
written with a point and at least one place; outside with an exponent that carries its
sign. JSON has no token for an infinity, so it is written as null.
-/

namespace SourceGauge

/-- A JSON value. The text of a string or a member name is missing when its escapes leave
half of a surrogate pair alone: the string is well formed, and stands for no text. -/
inductive Json where
  | null
  | bool (value : Bool)
  | number (literal : List Char)
  | string (text : Option (List Char))
  | array (items : List Json)
  | object (members : List (Option (List Char) × Json))
deriving Repr, Inhabited

namespace Json

def ofText (text : List Char) : Json := string (some text)

def ofNat (n : Nat) : Json := number (Nat.toDigits 10 n)

def ofFields (fields : List (String × Json)) : Json :=
  object (fields.map fun f => (some f.1.toList, f.2))

/-! ## Number tokens -/

/-- A decimal with a point: digits, or a zero, on both sides of it. -/
def positional (d : Binary64.Decimal) : List Char :=
  let digits := Text.decimal d.coefficient
  if 0 ≤ d.exponent then digits ++ List.replicate d.exponent.toNat '0' ++ ['.', '0']
  else
    let places := (-d.exponent).toNat
    if places < digits.length then
      digits.take (digits.length - places) ++ '.' :: digits.drop (digits.length - places)
    else '0' :: '.' :: List.replicate (places - digits.length) '0' ++ digits

/-- A decimal with one digit before the point and the power of ten of that digit. -/
def scientific (d : Binary64.Decimal) (power : Int) : List Char :=
  let digits := Text.decimal d.coefficient
  let fraction := digits.drop 1
  digits.take 1 ++ (if fraction.isEmpty then [] else '.' :: fraction) ++
    ['e', if power < 0 then '-' else '+'] ++ Text.decimal power.natAbs

def decimalToken (d : Binary64.Decimal) : List Char :=
  let power := d.exponent + (Text.decimal d.coefficient).length - 1
  if -5 ≤ power ∧ power < 16 then positional d else scientific d power

def finiteToken (negative : Bool) (significand : Nat) (exponent : Int) : List Char :=
  (if negative then ['-'] else []) ++
    (if significand = 0 then ['0', '.', '0']
      else decimalToken (Binary64.shortest significand exponent))

def ofBinary64 : Binary64 → Json
  | .finite negative significand exponent => number (finiteToken negative significand exponent)
  | .infinity _ | .nan => null

end Json

end SourceGauge
