import SourceGauge.Toml.Basic
import SourceGauge.Toml.Scalar
import SourceGauge.Toml.Token

/-!
# Reading TOML

The grammar of TOML documents. A document that breaks a rule anywhere is refused as a
whole.
-/

namespace SourceGauge.Toml

/-! ## Keys -/

def isBare (c : Char) : Bool := c.isAlphanum || c == '_' || c == '-'

def readName (s : List Char) : Option (List Char × List Char) :=
  match s with
  | '"' :: rest => readBasicFuel (rest.length + 1) rest
  | '\'' :: rest => readLiteral rest
  | _ =>
      let name := s.takeWhile isBare
      if name.isEmpty then none else some (name, s.dropWhile isBare)

def readKeyFuel : Nat → List Char → Option (Key × List Char)
  | 0, _ => none
  | fuel + 1, s => do
      let (name, rest) ← readName (skipSpace s)
      match skipSpace rest with
      | '.' :: rest =>
          let (names, rest) ← readKeyFuel fuel rest
          return (name :: names, rest)
      | rest => return ([name], rest)

def readKey (s : List Char) : Option (Key × List Char) := readKeyFuel (s.length + 1) s

/-! ## Values -/

def endsWord (c : Char) : Bool :=
  isSpace c || c == '\n' || c == '\r' || c == ',' || c == ']' || c == '\x7d' || c == '#'

/-- Reads an unquoted word. A blank between a date and a digit belongs to the word. -/
def readWord (s : List Char) : List Char × List Char :=
  let word := s.takeWhile (!endsWord ·)
  let rest := s.dropWhile (!endsWord ·)
  match readDate word, rest with
  | some [], ' ' :: d :: more =>
      if d.isDigit then
        (word ++ ' ' :: (d :: more).takeWhile (!endsWord ·), (d :: more).dropWhile (!endsWord ·))
      else (word, rest)
  | _, _ => (word, rest)

def readScalar (s : List Char) : Option (Toml × List Char) :=
  if s.head? = some '"' ∨ s.head? = some '\'' then
    (readString s).map fun r => (text r.1, r.2)
  else
    let (word, rest) := readWord s
    if word = "true".toList then some (bool true, rest)
    else if word = "false".toList then some (bool false, rest)
    else if isScalar word then some (other, rest)
    else none

def maxDepth : Nat := 80

mutual

/-- Reads a value inside `depth` containers. -/
def readValue : Nat → Nat → List Char → Option (Toml × List Char)
  | 0, _, _ => none
  | fuel + 1, depth, s =>
      match s with
      | '[' :: rest =>
          if depth < maxDepth then
            (readItems fuel (depth + 1) rest).map fun r => (array r.1, r.2)
          else none
      | '\x7b' :: rest =>
          if depth < maxDepth then readPairs fuel (depth + 1) (table .inline []) rest else none
      | _ => readScalar s

def readItems : Nat → Nat → List Char → Option (List Toml × List Char)
  | 0, _, _ => none
  | fuel + 1, depth, s =>
      match skipLines s with
      | ']' :: rest => some ([], rest)
      | rest =>
          match readValue fuel depth rest with
          | none => none
          | some (item, rest) =>
              match skipLines rest with
              | ']' :: rest => some ([item], rest)
              | ',' :: rest => (readItems fuel depth rest).map fun r => (item :: r.1, r.2)
              | _ => none

def readPairs : Nat → Nat → Toml → List Char → Option (Toml × List Char)
  | 0, _, _, _ => none
  | fuel + 1, depth, t, s =>
      match skipLines s with
      | '\x7d' :: rest => some (t, rest)
      | rest =>
          match readKey rest with
          | some (key, '=' :: rest) =>
              match readValue fuel depth (skipSpace rest) with
              | none => none
              | some (value, rest) =>
                  match define key value t with
                  | none => none
                  | some t =>
                      match skipLines rest with
                      | '\x7d' :: rest => some (t, rest)
                      | ',' :: rest => readPairs fuel depth t rest
                      | _ => none
          | _ => none

end

/-! ## Documents -/

/-- A document as it is read: what it holds so far, and the key of the header in force. -/
structure Draft where
  root : Toml
  header : Key

def readHeader (d : Draft) (s : List Char) : Option (Draft × List Char) :=
  match s with
  | '[' :: rest =>
      match readKey rest with
      | some (key, ']' :: ']' :: rest) => (openNext key d.root).map fun t => (⟨t, key⟩, rest)
      | _ => none
  | _ =>
      match readKey s with
      | some (key, ']' :: rest) => (openTable key d.root).map fun t => (⟨t, key⟩, rest)
      | _ => none

def readPair (d : Draft) (s : List Char) : Option (Draft × List Char) :=
  match readKey s with
  | some (key, '=' :: rest) =>
      match readValue (2 * rest.length + 2) 0 (skipSpace rest) with
      | some (value, rest) =>
          let enlarged := within false (define key value) d.header d.root
          enlarged.map fun t => ({ d with root := t }, rest)
      | none => none
  | _ => none

def readStatement (d : Draft) (s : List Char) : Option (Draft × List Char) :=
  match s with
  | [] => some (d, [])
  | '[' :: rest => readHeader d rest
  | c :: _ => if c = '#' ∨ c = '\n' ∨ c = '\r' then some (d, s) else readPair d s

def readDocumentFuel : Nat → Draft → List Char → Option Toml
  | 0, _, _ => none
  | fuel + 1, d, s =>
      match readStatement d (skipSpace s) with
      | none => none
      | some (d, rest) =>
          match skipComment (skipSpace rest) with
          | [] => some d.root
          | rest =>
              match readNewline rest with
              | some rest => readDocumentFuel fuel d rest
              | none => none

/-- The top table of a document; a byte-order mark may come first. -/
def parse? (s : List Char) : Option Toml :=
  let body :=
    match s with
    | c :: rest => if c.toNat = 0xFEFF then rest else s
    | [] => []
  readDocumentFuel (body.length + 1) ⟨root, []⟩ body

end SourceGauge.Toml
