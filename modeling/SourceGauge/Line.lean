import SourceGauge.Text.Basic
import SourceGauge.Text.Search

/-!
# Lines

Each physical line of a script is blank, part of a comment, or code. Whether a
line is inside a block comment depends on the lines before it, so the classifier
of one line takes and returns a flag.

A line with code before a comment marker counts both as a comment and as code.
-/

namespace SourceGauge.Line

/-- What a physical line is. A code portion is trimmed and never empty. -/
inductive Kind where
  | blank
  /-- Opens a block comment, or stands inside one. -/
  | blockComment
  /-- Starts with a star outside a block comment. -/
  | continuation
  /-- Holds a comment marker; the code before it is kept if there is any. -/
  | inlineComment (code : Option (List Char))
  | code (text : List Char)
deriving DecidableEq, Repr

namespace Kind

def isComment : Kind → Bool
  | blockComment | continuation | inlineComment _ => true
  | blank | code _ => false

def code? : Kind → Option (List Char)
  | code text => some text
  | inlineComment part => part
  | blank | blockComment | continuation => none

end Kind

def blockOpen : List Char := ['/', '*']

def blockClose : List Char := ['*', '/']

def inlineMark : List Char := ['/', '/']

def continuationMark : Char := '*'

/-- What is trimmed from a line: blanks and byte-order marks, in any mix. -/
def isMargin (c : Char) : Bool := Text.isBlank c || c == Text.byteOrderMark

def trim (line : List Char) : List Char := Text.trimBy isMargin line

/-- The kind of a trimmed, non-empty line outside block comments that does not
open one. -/
def classifyPlain (trimmed : List Char) : Kind :=
  if trimmed.head? = some continuationMark then .continuation
  else
    match Text.before? inlineMark trimmed with
    | none => .code trimmed
    | some start =>
        let code := trim start
        .inlineComment (if code.isEmpty then none else some code)

/-- The kind of a line, given whether a block comment is open before it, and
whether one is open after it. A closing marker closes wherever it stands, also on
the line that opens the comment. -/
def classify (line : List Char) (inside : Bool) : Kind × Bool :=
  let trimmed := trim line
  if trimmed.isEmpty then (.blank, inside)
  else if inside || blockOpen.isPrefixOf trimmed then
    (.blockComment, !Text.occursIn blockClose trimmed)
  else (classifyPlain trimmed, false)

/-- The kinds of consecutive lines, given whether a block comment is open before
the first. -/
def classifyFrom : Bool → List (List Char) → List Kind
  | _, [] => []
  | inside, line :: rest =>
      (classify line inside).1 :: classifyFrom (classify line inside).2 rest

def insideAfter (inside : Bool) (ls : List (List Char)) : Bool :=
  ls.foldl (fun open? line => (classify line open?).2) inside

def classifyAll (source : List Char) : List Kind := classifyFrom false (Text.lines source)

/-! ## Runs of lines -/

@[simp] theorem length_classifyFrom (inside : Bool) (ls : List (List Char)) :
    (classifyFrom inside ls).length = ls.length := by
  induction ls generalizing inside with
  | nil => rfl
  | cons line rest ih => simp [classifyFrom, ih]

@[simp] theorem insideAfter_nil (inside : Bool) : insideAfter inside [] = inside := rfl

@[simp] theorem insideAfter_cons (inside : Bool) (line : List Char) (rest : List (List Char)) :
    insideAfter inside (line :: rest) = insideAfter (classify line inside).2 rest := rfl

/-- A run of lines hands its flag on to the lines behind it. -/
theorem classifyFrom_append (inside : Bool) (first second : List (List Char)) :
    classifyFrom inside (first ++ second) =
      classifyFrom inside first ++ classifyFrom (insideAfter inside first) second := by
  induction first generalizing inside with
  | nil => rfl
  | cons line rest ih => simp [classifyFrom, ih]

/-! ## Counts -/

structure Count where
  lines : Nat
  blank : Nat
  /-- Comment lines of every kind. -/
  comments : Nat
  code : Nat
deriving DecidableEq, Repr

namespace Count

def zero : Count := ⟨0, 0, 0, 0⟩

def addLine (n : Count) (kind : Kind) : Count where
  lines := n.lines + 1
  blank := n.blank + (if kind = .blank then 1 else 0)
  comments := n.comments + (if kind.isComment then 1 else 0)
  code := n.code + (if kind.code?.isSome then 1 else 0)

def ofSource (source : List Char) : Count := (classifyAll source).foldl addLine zero

end Count

def codePortions (source : List Char) : List (List Char) :=
  (classifyAll source).filterMap Kind.code?

/-- The source without its blank lines and comments. -/
def strip (source : List Char) : List Char := Text.unlines (codePortions source)

end SourceGauge.Line
