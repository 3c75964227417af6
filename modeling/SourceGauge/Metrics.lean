import SourceGauge.Binary64.Rounding
import SourceGauge.Line
import SourceGauge.Path
import SourceGauge.Scan

/-!
# Metrics

The record made for one source file: its line counts, its level of commenting, its
logical lines and its complexity. Totals are sums over such records, and accounts hold
totals by name.
-/

namespace SourceGauge

structure FileMetrics where
  path : Path
  lines : Nat
  emptyLines : Nat
  commentLines : Nat
  commenting : Binary64
  physicalLines : Nat
  /-- Logical expressions of the code portions. -/
  logicalLines : Nat
  /-- Complexity estimate of the whole text, at least one. -/
  complexity : Nat
deriving DecidableEq, Repr

namespace FileMetrics

/-- Measures a source whose text is loaded; the path only labels the record. -/
def ofSource (path : Path) (content : List Char) : FileMetrics :=
  let kinds := Line.classifyAll content
  let lines := kinds.length
  let comments := kinds.countP Line.Kind.isComment
  { path := path
    lines := lines
    emptyLines := kinds.countP (· = .blank)
    commentLines := comments
    commenting := Binary64.ratio comments lines
    physicalLines := lines
    logicalLines := Scan.logicalSum (kinds.filterMap Line.Kind.code?)
    complexity := Scan.cyclomatic content }

end FileMetrics

/-! ## Totals -/

structure Totals where
  files : Nat
  lines : Nat
  emptyLines : Nat
  commentLines : Nat
  physicalLines : Nat
  logicalLines : Nat
  complexity : Nat
deriving DecidableEq, Repr

namespace Totals

def zero : Totals := ⟨0, 0, 0, 0, 0, 0, 0⟩

def addFile (t : Totals) (f : FileMetrics) : Totals where
  files := t.files + 1
  lines := t.lines + f.lines
  emptyLines := t.emptyLines + f.emptyLines
  commentLines := t.commentLines + f.commentLines
  physicalLines := t.physicalLines + f.physicalLines
  logicalLines := t.logicalLines + f.logicalLines
  complexity := t.complexity + f.complexity

def merge (t u : Totals) : Totals where
  files := t.files + u.files
  lines := t.lines + u.lines
  emptyLines := t.emptyLines + u.emptyLines
  commentLines := t.commentLines + u.commentLines
  physicalLines := t.physicalLines + u.physicalLines
  logicalLines := t.logicalLines + u.logicalLines
  complexity := t.complexity + u.complexity

def ofFiles (files : List FileMetrics) : Totals := files.foldl addFile zero

/-- Comment lines per line over all files; zero without lines. -/
def commenting (t : Totals) : Binary64 := Binary64.ratio t.commentLines t.lines

@[simp] theorem merge_zero (t : Totals) : t.merge zero = t := rfl

@[simp] theorem zero_merge (t : Totals) : zero.merge t = t := by
  simp [merge, zero]

theorem merge_comm (t u : Totals) : t.merge u = u.merge t := by
  simp [merge, Nat.add_comm]

theorem merge_assoc (t u v : Totals) : (t.merge u).merge v = t.merge (u.merge v) := by
  simp [merge, Nat.add_assoc]

/-- Adding a record is merging with the totals of that record. -/
theorem addFile_eq_merge (t : Totals) (f : FileMetrics) :
    t.addFile f = t.merge (zero.addFile f) := by
  simp [addFile, merge, zero]

end Totals

/-- Accounts of totals by name; a name without entry holds the zero totals. -/
structure Accounts where
  entries : List (String × Totals)
deriving DecidableEq, Repr

namespace Accounts

def empty : Accounts := ⟨[]⟩

def get (a : Accounts) (name : String) : Totals := (a.entries.lookup name).getD Totals.zero

def set (a : Accounts) (name : String) (t : Totals) : Accounts := ⟨(name, t) :: a.entries⟩

@[simp] theorem get_empty (name : String) : empty.get name = Totals.zero := rfl

@[simp] theorem get_set_self (a : Accounts) (name : String) (t : Totals) :
    (a.set name t).get name = t := by
  simp [get, set]

theorem get_set_of_ne (a : Accounts) {name other : String} (t : Totals) (h : other ≠ name) :
    (a.set name t).get other = a.get other := by
  simp [get, set, List.lookup_cons, beq_false_of_ne h]

inductive Step where
  | addFile (account : String) (file : FileMetrics)
  /-- Adds one account, as it stands, to another or to itself. -/
  | merge (account source : String)
  | fromFiles (account : String) (files : List FileMetrics)
  /-- Collects the records one after the other to the same totals as `fromFiles`. -/
  | collect (account : String) (files : List FileMetrics)
  | set (account : String) (totals : Totals)
deriving DecidableEq, Repr

def Step.account : Step → String
  | addFile name _ | merge name _ | fromFiles name _ | collect name _ | set name _ => name

def Step.result (a : Accounts) : Step → Totals
  | addFile name file => (a.get name).addFile file
  | merge name source => (a.get name).merge (a.get source)
  | fromFiles _ files | collect _ files => Totals.ofFiles files
  | set _ totals => totals

def perform (a : Accounts) (step : Step) : Accounts := a.set step.account (step.result a)

/-- Performs steps in order; gives the totals of each step's account after it. -/
def run (a : Accounts) : List Step → List Totals
  | [] => []
  | step :: rest => step.result a :: (a.perform step).run rest

end Accounts

end SourceGauge
