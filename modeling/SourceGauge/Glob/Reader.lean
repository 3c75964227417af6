import SourceGauge.Glob.Token

/-!
# Reading globs

The wildcard notation for names and paths. A question mark is one byte and a star any
number of bytes; square brackets hold a set, curly brackets hold alternatives, a
backslash takes the next character as it is, and two stars between slashes stand for any
number of directories.
-/

namespace SourceGauge.Glob

inductive Fault where
  | unclosedSet
  | invalidRange (low high : Char)
  | unclosedGroup
  | unopenedGroup
  | danglingEscape
deriving DecidableEq, Repr

def Fault.message : Fault → List Char
  | unclosedSet => "unclosed character class; missing ']'".toList
  | invalidRange low high =>
      "invalid range; '".toList ++ low :: "' > '".toList ++ [high, '\'']
  | unclosedGroup =>
      ("unclosed alternate group; missing '\x7d' " ++
        "(maybe escape '\x7b' with '[\x7b]'?)").toList
  | unopenedGroup =>
      ("unopened alternate group; missing '\x7b' " ++
        "(maybe escape '\x7d' with '[\x7d]'?)").toList
  | danglingEscape => "dangling '\\'".toList

/-! ## Sets in square brackets -/

/-- A set as it is read: its ranges, latest first, and whether a dash has opened a range
that waits for its high end. -/
structure SetState where
  ranges : List (Char × Char)
  pending : Bool

def SetState.extend (s : SetState) (c : Char) : Except Fault SetState :=
  match s.ranges with
  | [] => .ok ⟨[(c, c)], false⟩
  | (low, _) :: rest =>
      if c < low then .error (.invalidRange low c) else .ok ⟨(low, c) :: rest, false⟩

/-- Reads the characters of a set behind its first one; gives the ranges and what follows
the closing bracket, or nothing when the set is not closed. -/
def readSet (s : SetState) : List Char → Except Fault (Option (List (Char × Char) × List Char))
  | [] => .ok none
  | ']' :: rest =>
      let ranges := if s.pending then ('-', '-') :: s.ranges else s.ranges
      .ok (some (ranges.reverse, rest))
  | c :: rest =>
      if s.pending then
        match s.extend c with
        | .error fault => .error fault
        | .ok s => readSet s rest
      else if c = '-' then readSet { s with pending := true } rest
      else readSet ⟨(c, c) :: s.ranges, false⟩ rest

/-- Reads a set behind its opening bracket. The first character belongs to it whatever it
is. -/
def readSetStart (text : List Char) :
    Except Fault (Option (List (Char × Char) × List Char)) :=
  match text with
  | [] => .ok none
  | c :: rest => readSet ⟨[(c, c)], false⟩ rest

def readSetToken (text : List Char) : Except Fault (Option (Token × List Char)) :=
  let (negated, rest) :=
    match text with
    | '!' :: rest => (true, rest)
    | '^' :: rest => (true, rest)
    | _ => (false, text)
  match readSetStart rest with
  | .error fault => .error fault
  | .ok none => .ok none
  | .ok (some (ranges, rest)) => .ok (some (.oneOf negated ranges, rest))

/-! ## Whole globs -/

/-- A group that is open: the tokens before it and the alternatives that are complete,
both latest first. -/
structure OpenGroup where
  outer : List Token
  alternatives : List (List Token)

/-- A glob as it is read: the tokens of the innermost open alternative, latest first, and
the open groups, innermost first. -/
structure ReadState where
  tokens : List Token
  groups : List OpenGroup
  /-- Whether an unclosed bracket was met; later brackets stand for themselves too. -/
  bracketsOff : Bool

namespace ReadState

def start : ReadState := ⟨[], [], false⟩

def push (s : ReadState) (token : Token) : ReadState := { s with tokens := token :: s.tokens }

def pushStars (s : ReadState) : ReadState := (s.push .anyMany).push .anyMany

/-- Puts a run of directories in the place of the token before it, unless that is a run
already. -/
def absorb (s : ReadState) (token : Token) : ReadState :=
  match s.tokens with
  | .leadingDirs :: _ | .trailingDirs :: _ => s
  | _ :: rest => { s with tokens := token :: rest }
  | [] => s.push token

def openGroup (s : ReadState) : ReadState :=
  { s with tokens := [], groups := ⟨s.tokens, []⟩ :: s.groups }

/-- A comma: a literal outside groups, the next alternative inside. -/
def comma (s : ReadState) : ReadState :=
  match s.groups with
  | [] => s.push (.literal ',')
  | g :: rest =>
      { s with
        tokens := []
        groups := { g with alternatives := s.tokens :: g.alternatives } :: rest }

def closeGroup (o : Options) (s : ReadState) : Except Fault ReadState :=
  match s.groups with
  | [] => .error .unopenedGroup
  | g :: rest =>
      let branches := (s.tokens :: g.alternatives).reverse.map List.reverse
      .ok { s with
        tokens := .group (branches.filterMap (branchPattern? o)) :: g.outer
        groups := rest }

def finish (s : ReadState) : Except Fault (List Token) :=
  if s.groups.isEmpty then .ok s.tokens.reverse else .error .unclosedGroup

/-- Two stars behind the character `previous` and before `rest`; gives also the character
read last and what is left. -/
def doubleStar (s : ReadState) (previous : Option Char) (rest : List Char) :
    ReadState × Option Char × List Char :=
  let stars := (s.pushStars, some '*', rest)
  -- Inside a group an alternative may begin or end where a slash would stand.
  let behindSlash := previous == some '/' ||
    (!s.groups.isEmpty && (previous == some ',' || previous == some '\x7b'))
  if s.tokens.isEmpty then
    match rest with
    | [] => (s.push .leadingDirs, some '*', [])
    | '/' :: rest => (s.push .leadingDirs, some '/', rest)
    | _ => stars
  else if !behindSlash then stars
  else
    match rest with
    | [] => (s.absorb .trailingDirs, some '*', [])
    | '/' :: rest => (s.absorb .innerDirs, some '/', rest)
    | c :: _ =>
        if !s.groups.isEmpty && (c == ',' || c == '\x7d') then
          (s.absorb .trailingDirs, some '*', rest)
        else stars

end ReadState

/-- Reads a glob behind the character `previous`. Every round takes at least one character,
so the length of the text is enough fuel. -/
def readFuel (o : Options) : Nat → ReadState → Option Char → List Char →
    Except Fault (List Token)
  | 0, s, _, _ => s.finish
  | _ + 1, s, _, [] => s.finish
  | fuel + 1, s, previous, c :: rest =>
      match c with
      | '?' => readFuel o fuel (s.push .anyOne) (some c) rest
      | '*' =>
          match rest with
          | '*' :: rest =>
              let (s, previous, rest) := s.doubleStar previous rest
              readFuel o fuel s previous rest
          | _ => readFuel o fuel (s.push .anyMany) (some c) rest
      | '[' =>
          if s.bracketsOff then readFuel o fuel (s.push (.literal c)) (some c) rest
          else
            match readSetToken rest with
            | .error fault => .error fault
            | .ok (some (token, rest)) => readFuel o fuel (s.push token) (some ']') rest
            | .ok none =>
                if o.looseBrackets then
                  readFuel o fuel { s.push (.literal c) with bracketsOff := true } (some c) rest
                else .error .unclosedSet
      | '\x7b' => readFuel o fuel s.openGroup (some c) rest
      | '\x7d' =>
          match s.closeGroup o with
          | .error fault => .error fault
          | .ok s => readFuel o fuel s (some c) rest
      | ',' => readFuel o fuel s.comma (some c) rest
      | '\\' =>
          match rest with
          | [] => .error .danglingEscape
          | e :: rest => readFuel o fuel (s.push (.literal e)) (some e) rest
      | _ => readFuel o fuel (s.push (.literal c)) (some c) rest

def read (o : Options) (text : List Char) : Except Fault (List Token) :=
  readFuel o text.length .start none text

def compile (o : Options) (text : List Char) : Except Fault Pattern :=
  (read o text).map (patternOf o)

end SourceGauge.Glob
