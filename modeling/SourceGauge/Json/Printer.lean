import SourceGauge.Json.Basic

/-!
# Writing JSON

The indented form: two blanks for each level, one member or item to a line, and nothing
between the brackets of an empty container.
-/

namespace SourceGauge.Json

def hexDigit (n : Nat) : Char := Nat.digitChar n

/-- One character inside a string. Quotes, backslashes and the characters below the
blank are escaped, all others stand for themselves. -/
def escape (c : Char) : List Char :=
  if c = '"' then ['\\', '"']
  else if c = '\\' then ['\\', '\\']
  else if c.toNat = 8 then ['\\', 'b']
  else if c.toNat = 12 then ['\\', 'f']
  else if c = '\n' then ['\\', 'n']
  else if c = '\r' then ['\\', 'r']
  else if c = '\t' then ['\\', 't']
  else if c.toNat < 0x20 then
    ['\\', 'u', '0', '0', hexDigit (c.toNat / 16), hexDigit (c.toNat % 16)]
  else [c]

/-- A string literal; a text that is missing is written as an empty one. -/
def literal (text : Option (List Char)) : List Char :=
  '"' :: (text.getD []).flatMap escape ++ ['"']

def newline (level : Nat) : List Char := '\n' :: List.replicate (2 * level) ' '

mutual

/-- A value whose first character stands on a line of the given level. -/
def render (level : Nat) : Json → List Char
  | null => "null".toList
  | bool true => "true".toList
  | bool false => "false".toList
  | number literal => literal
  | string text => literal text
  | array [] => ['[', ']']
  | array (item :: items) =>
      '[' :: newline (level + 1) ++ render (level + 1) item ++ renderItems (level + 1) items ++
        newline level ++ [']']
  | object [] => ['\x7b', '\x7d']
  | object ((name, value) :: members) =>
      '\x7b' :: newline (level + 1) ++ literal name ++ [':', ' '] ++ render (level + 1) value ++
        renderMembers (level + 1) members ++ newline level ++ ['\x7d']

/-- The items behind the first, each led by a comma. -/
def renderItems (level : Nat) : List Json → List Char
  | [] => []
  | item :: items => ',' :: newline level ++ render level item ++ renderItems level items

def renderMembers (level : Nat) : List (Option (List Char) × Json) → List Char
  | [] => []
  | (name, value) :: members =>
      ',' :: newline level ++ literal name ++ [':', ' '] ++ render level value ++
        renderMembers level members

end

def pretty (value : Json) : List Char := render 0 value

end SourceGauge.Json
