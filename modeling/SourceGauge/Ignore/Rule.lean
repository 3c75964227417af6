import SourceGauge.Glob.Reader
import SourceGauge.Text.Basic
import SourceGauge.Text.Search

/-!
# Ignore rules

The lines of an ignore file. A rule is a glob over paths relative to the directory of its
file; the last rule that matches decides, and a rule that starts with an exclamation mark
keeps what an earlier one would drop.
-/

namespace SourceGauge.Ignore

inductive Verdict where
  | drop
  | keep
deriving DecidableEq, Repr

structure Rule where
  verdict : Verdict
  directoriesOnly : Bool
  pattern : Glob.Pattern
deriving DecidableEq, Repr

/-- The line without blanks at its end, unless the last of them is escaped. -/
def trimLine (line : List Char) : List Char :=
  if ['\\', ' '].isSuffixOf line then line else Text.trimRight line

structure Parts where
  verdict : Verdict
  /-- Whether the glob starts at the directory of the file. -/
  anchored : Bool
  directoriesOnly : Bool
  glob : List Char

/-- Takes off the marks in front: an escaped first character, an exclamation mark, a slash
that anchors. -/
def splitFront (line : List Char) : Parts :=
  match line with
  | '\\' :: '!' :: rest => ⟨.drop, false, false, '!' :: rest⟩
  | '\\' :: '#' :: rest => ⟨.drop, false, false, '#' :: rest⟩
  | '!' :: '/' :: rest => ⟨.keep, true, false, rest⟩
  | '!' :: rest => ⟨.keep, false, false, rest⟩
  | '/' :: rest => ⟨.drop, true, false, rest⟩
  | _ => ⟨.drop, false, false, line⟩

/-- Takes off a slash at the end, with the backslash that may escape it. -/
def splitBack (p : Parts) : Parts :=
  match p.glob.reverse with
  | '/' :: '\\' :: rest => { p with directoriesOnly := true, glob := rest.reverse }
  | '/' :: rest => { p with directoriesOnly := true, glob := rest.reverse }
  | _ => p

/-- The glob of the whole relative path: a glob without a slash may match at any depth,
and one that ends in two stars matches only what lies inside. -/
def fullGlob (p : Parts) : List Char :=
  let deep := !p.anchored && !p.glob.contains '/' && p.glob != ['*', '*']
  let glob := if deep then ['*', '*', '/'] ++ p.glob else p.glob
  if ['/', '*', '*'].isSuffixOf glob then glob ++ ['/', '*'] else glob

/-- The rule of a line. Comments, empty lines and lines whose glob has a fault hold none. -/
def ruleOf? (line : List Char) : Option Rule :=
  if line.head? = some '#' then none
  else
    let trimmed := trimLine line
    if trimmed.isEmpty then none
    else
      let parts := splitBack (splitFront trimmed)
      match Glob.compile Glob.pathOptions (fullGlob parts) with
      | .error _ => none
      | .ok pattern => some ⟨parts.verdict, parts.directoriesOnly, pattern⟩

def byteLines (bytes : List UInt8) : List (List UInt8) :=
  match bytes with
  | [] => [[]]
  | b :: rest =>
      if b = 10 then [] :: byteLines rest
      else
        match byteLines rest with
        | [] => [[b]]
        | line :: lines => (b :: line) :: lines

/-- The texts of lines up to the first that is not UTF-8, without carriage returns at
their ends. -/
def textLines : List (List UInt8) → List (List Char)
  | [] => []
  | line :: rest =>
      match Text.decode? line with
      | none => []
      | some text =>
          (if text.getLast? = some '\r' then text.dropLast else text) :: textLines rest

/-- The rules of an ignore file, in order. Byte-order marks before the first line do not
count. -/
def rulesOf (bytes : List UInt8) : List Rule :=
  match textLines (byteLines bytes) with
  | [] => []
  | first :: rest => ((first.dropWhile (· = Text.byteOrderMark)) :: rest).filterMap ruleOf?

/-- What rules say of a relative path: the last that matches decides. -/
def verdict? (rules : List Rule) (path : List UInt8) (isDirectory : Bool) : Option Verdict :=
  (rules.reverse.find? fun r =>
    (isDirectory || !r.directoriesOnly) && r.pattern.accepts path).map Rule.verdict

end SourceGauge.Ignore
