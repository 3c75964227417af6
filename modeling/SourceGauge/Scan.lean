import SourceGauge.Text.Basic

/-!
# Scans

A matcher decides, at one position of a text, whether a match starts there. The
scan takes the match at the leftmost position that has one, goes on behind it, and
so lists disjoint spans from left to right.

Two things are looked for. Decision points are control keywords as whole words and the two
short-circuit operators; they are counted in the raw text, comments and string literals
included. Logical expressions are these and calls, in a code line. A call is an identifier,
optional blanks, and a parenthesised list cut at the first closing parenthesis; what a call
covers is not looked at again.
-/

namespace SourceGauge.Scan

/-! ## Leftmost spans -/

/-- Looks at the character before a position and at the text from there on, and
gives the kind and the length of the match that starts there. -/
abbrev Matcher (α : Type) := Option Char → List Char → Option (α × Nat)

/-- A match: its kind, where it starts, and how many characters it covers. -/
structure Span (α : Type) where
  kind : α
  start : Nat
  length : Nat
deriving DecidableEq, Repr

/-- Scans a text that starts at `position` behind the character `previous`; the
first `skip` characters belong to the match found last. -/
def spansFrom (matcher : Matcher α) (position skip : Nat) (previous : Option Char) :
    List Char → List (Span α)
  | [] => []
  | c :: cs =>
      match skip with
      | skip + 1 => spansFrom matcher (position + 1) skip (some c) cs
      | 0 =>
          match matcher previous (c :: cs) with
          | some (kind, length) =>
              ⟨kind, position, length⟩ ::
                spansFrom matcher (position + 1) (length - 1) (some c) cs
          | none => spansFrom matcher (position + 1) 0 (some c) cs

def spans (matcher : Matcher α) (text : List Char) : List (Span α) :=
  spansFrom matcher 0 0 none text

/-! ## Decision points -/

/-- A word character: an ASCII letter, an ASCII digit or the underscore. -/
def isWord (c : Char) : Bool := c.isAlphanum || c == '_'

def keywords : List (List Char) :=
  ["if", "for", "while", "switch", "case", "catch"].map String.toList

inductive Decision where
  | keyword
  | conjunction
  | disjunction
deriving DecidableEq, Repr

/-- The keyword that starts here, as a whole word: no word character stands before
it, and the run of word characters from here is the keyword itself. -/
def keywordLength? (previous : Option Char) (text : List Char) : Option Nat :=
  let word := text.takeWhile isWord
  if previous.any isWord then none
  else if word ∈ keywords then some word.length
  else none

def decision : Matcher Decision := fun previous text =>
  match text with
  | '&' :: '&' :: _ => some (.conjunction, 2)
  | '|' :: '|' :: _ => some (.disjunction, 2)
  | _ => (keywordLength? previous text).map fun n => (.keyword, n)

def decisionCount (text : List Char) : Nat := (spans decision text).length

/-- The complexity estimate: one path, and one more for each decision point. -/
def cyclomatic (text : List Char) : Nat := 1 + decisionCount text

/-! ## Logical expressions -/

/-- An identifier starts with an ASCII letter or the underscore. -/
def isIdentifierStart (c : Char) : Bool := c.isAlpha || c == '_'

inductive Logical where
  | call
  | decision (kind : Decision)
deriving DecidableEq, Repr

def afterCall? : List Char → Option (List Char)
  | [] => none
  | c :: cs =>
      if isIdentifierStart c then
        match (cs.dropWhile isWord).dropWhile Text.isBlank with
        | '(' :: inner =>
            match inner.dropWhile (· != ')') with
            | [] => none
            | _ :: rest => some rest
        | _ => none
      else none

/-- The logical expression that starts here; a call wins over the keyword that may
be its name. -/
def logical : Matcher Logical := fun previous text =>
  match afterCall? text with
  | some rest => some (.call, text.length - rest.length)
  | none => (decision previous text).map fun d => (.decision d.1, d.2)

def logicalCount (code : List Char) : Nat := (spans logical code).length

def logicalSum : List (List Char) → Nat
  | [] => 0
  | code :: codes => logicalCount code + logicalSum codes

end SourceGauge.Scan
