import SourceGauge.Json.Token

/-!
# Tokens of TOML

Blanks, comments, ends of lines and strings. Each reader takes its part from the front of
a text and gives the rest.
-/

namespace SourceGauge.Toml

def isSpace (c : Char) : Bool := c == ' ' || c == '\t'

def skipSpace (s : List Char) : List Char := s.dropWhile isSpace

/-- Controls, which may not stand in comments and strings; a tab is none. -/
def isControl (c : Char) : Bool := (c.toNat < 0x20 && c != '\t') || c.toNat == 0x7F

def readNewline (s : List Char) : Option (List Char) :=
  match s with
  | '\n' :: rest => some rest
  | '\r' :: '\n' :: rest => some rest
  | _ => none

/-- Skips a comment if there is one. It ends before the end of its line. -/
def skipComment (s : List Char) : List Char :=
  match s with
  | '#' :: rest => rest.dropWhile (!isControl ·)
  | _ => s

def skipLinesFuel : Nat → List Char → List Char
  | 0, s => s
  | fuel + 1, s =>
      let rest := skipComment (skipSpace s)
      match readNewline rest with
      | some rest => skipLinesFuel fuel rest
      | none => rest

def skipLines (s : List Char) : List Char := skipLinesFuel s.length s

/-! ## Strings -/

def charOf? (n : Nat) : Option Char := if n.isValidChar then some (Char.ofNat n) else none

def readEscape (s : List Char) : Option (Char × List Char) :=
  let hex := fun (n : Nat) (rest : List Char) => do
    let digits := rest.take n
    if digits.length = n then
      let value ← digits.foldlM (fun v c => (Json.hexValue? c).map (16 * v + ·)) 0
      return (← charOf? value, rest.drop n)
    else none
  match s with
  | [] => none
  | c :: rest =>
      if c = 'x' then hex 2 rest
      else if c = 'u' then hex 4 rest
      else if c = 'U' then hex 8 rest
      else if c = 'e' then some (Char.ofNat 0x1B, rest)
      else if c = '/' then none
      else (Json.escaped? c).map (·, rest)

def readBasicFuel : Nat → List Char → Option (List Char × List Char)
  | 0, _ => none
  | _ + 1, [] => none
  | fuel + 1, c :: rest =>
      if c = '"' then some ([], rest)
      else if c = '\\' then do
        let (e, rest) ← readEscape rest
        let (tail, rest) ← readBasicFuel fuel rest
        return (e :: tail, rest)
      else if isControl c then none
      else do
        let (tail, rest) ← readBasicFuel fuel rest
        return (c :: tail, rest)

def readLiteral (s : List Char) : Option (List Char × List Char) :=
  match s.dropWhile fun c => c != '\'' && !isControl c with
  | '\'' :: rest => some (s.takeWhile (· != '\''), rest)
  | _ => none

/-- The closing quotes of a string of several lines: three, and up to two more that belong
to the text. -/
def readClosing (quote : Char) (s : List Char) : Option (List Char × List Char) :=
  let quotes := s.takeWhile (· = quote)
  if quotes.length < 3 then none
  else
    let extra := min (quotes.length - 3) 2
    some (List.replicate extra quote, s.drop (3 + extra))

def endsLine (s : List Char) : Bool := (readNewline (skipSpace s)).isSome

/-- Reads a string of several lines behind its opening quotes; `escapes` says whether
backslashes escape. A backslash at the end of a line drops all blanks and ends of lines up
to the next character. -/
def readLinesFuel (quote : Char) (escapes : Bool) :
    Nat → List Char → Option (List Char × List Char)
  | 0, _ => none
  | fuel + 1, s =>
      let keep := fun (kept rest : List Char) =>
        (readLinesFuel quote escapes fuel rest).map fun r => (kept ++ r.1, r.2)
      match readClosing quote s with
      | some done => some done
      | none =>
          match readNewline s with
          | some rest => keep ['\n'] rest
          | none =>
              match s with
              | [] => none
              | c :: rest =>
                  if escapes && c == '\\' then
                    if endsLine rest then
                      keep [] (rest.dropWhile fun c => isSpace c || c == '\n' || c == '\r')
                    else
                      match readEscape rest with
                      | some (e, rest) => keep [e] rest
                      | none => none
                  else if isControl c then none
                  else keep [c] rest

/-- Reads a string of several lines; an end of line right behind the opening quotes does
not belong to it. -/
def readLines (quote : Char) (escapes : Bool) (s : List Char) :
    Option (List Char × List Char) :=
  let start := (readNewline s).getD s
  readLinesFuel quote escapes (start.length + 1) start

def readString (s : List Char) : Option (List Char × List Char) :=
  match s with
  | '"' :: '"' :: '"' :: rest => readLines '"' true rest
  | '\'' :: '\'' :: '\'' :: rest => readLines '\'' false rest
  | '"' :: rest => readBasicFuel (rest.length + 1) rest
  | '\'' :: rest => readLiteral rest
  | _ => none

end SourceGauge.Toml
