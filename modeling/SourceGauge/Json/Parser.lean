import SourceGauge.Json.Token

/-!
# Reading JSON

The grammar of JSON texts, without a limit on depth.
-/

namespace SourceGauge.Json

def readWord (word : List Char) (value : Json) (s : List Char) : Option (Json × List Char) :=
  if word.isPrefixOf s then some (value, s.drop word.length) else none

def readScalar (s : List Char) : Option (Json × List Char) :=
  match s with
  | '"' :: rest => (readString rest).map fun r => (string (textOf? r.1), r.2)
  | 'n' :: _ => readWord "null".toList null s
  | 't' :: _ => readWord "true".toList (bool true) s
  | 'f' :: _ => readWord "false".toList (bool false) s
  | _ => (readNumber s).map fun r => (number r.1, r.2)

mutual

def readValue : Nat → List Char → Option (Json × List Char)
  | 0, _ => none
  | fuel + 1, s =>
      match skipSpace s with
      | '[' :: rest =>
          match skipSpace rest with
          | ']' :: rest => some (array [], rest)
          | _ => (readItems fuel rest).map fun r => (array r.1, r.2)
      | '\x7b' :: rest =>
          match skipSpace rest with
          | '\x7d' :: rest => some (object [], rest)
          | _ => (readMembers fuel rest).map fun r => (object r.1, r.2)
      | rest => readScalar rest

def readItems : Nat → List Char → Option (List Json × List Char)
  | 0, _ => none
  | fuel + 1, s =>
      match readValue fuel s with
      | none => none
      | some (item, rest) =>
          match skipSpace rest with
          | ']' :: rest => some ([item], rest)
          | ',' :: rest => (readItems fuel rest).map fun r => (item :: r.1, r.2)
          | _ => none

def readMembers : Nat → List Char → Option (List (Option (List Char) × Json) × List Char)
  | 0, _ => none
  | fuel + 1, s =>
      match skipSpace s with
      | '"' :: rest =>
          match readString rest with
          | none => none
          | some (name, rest) =>
              match skipSpace rest with
              | ':' :: rest =>
                  match readValue fuel rest with
                  | none => none
                  | some (value, rest) =>
                      match skipSpace rest with
                      | '\x7d' :: rest => some ([(textOf? name, value)], rest)
                      | ',' :: rest =>
                          (readMembers fuel rest).map fun r => ((textOf? name, value) :: r.1, r.2)
                      | _ => none
              | _ => none
      | _ => none

end

/-- The value of a whole text. Every reader takes at least one character before it calls
another, or hands on what it was given once, so twice the length is enough fuel. -/
def parse? (s : List Char) : Option Json :=
  match readValue (2 * s.length + 2) s with
  | some (value, rest) => if (skipSpace rest).isEmpty then some value else none
  | none => none

end SourceGauge.Json
