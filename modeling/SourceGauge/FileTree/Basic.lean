import SourceGauge.Path
import SourceGauge.Text.Basic

/-!
# File trees

A tree of directories, files and symbolic links, as a finite table from locations to
nodes, with a current directory. A location is the list of names that leads to a node
from the top, which is always a directory. There are no permissions: every directory can
be listed and every file read.
-/

namespace SourceGauge

abbrev Name := List Char

/-- The names from the top down to a node. -/
abbrev Location := List Name

inductive Node where
  | directory
  | file (bytes : List UInt8)
  | link (target : Path)
deriving DecidableEq, Repr

/-- A file tree with a current directory. -/
structure FileTree where
  entries : List (Location × Node)
  current : Location
deriving DecidableEq, Repr

inductive FileError where
  | notFound
  | notDirectory
  | isDirectory
  | nameTooLong
  | tooManyLinks
  | nulInPath
  | notText
deriving DecidableEq, Repr

def FileError.message : FileError → String
  | notFound => "No such file or directory (os error 2)"
  | notDirectory => "Not a directory (os error 20)"
  | isDirectory => "Is a directory (os error 21)"
  | nameTooLong => "File name too long (os error 36)"
  | tooManyLinks => "Too many levels of symbolic links (os error 40)"
  | nulInPath => "file name contained an unexpected NUL byte"
  | notText => "stream did not contain valid UTF-8"

namespace FileTree

def empty : FileTree := ⟨[], []⟩

def node? (t : FileTree) (l : Location) : Option Node :=
  if l = [] then some .directory else t.entries.lookup l

def isDirectoryAt (t : FileTree) (l : Location) : Bool := t.node? l == some .directory

/-- The names of the entries of a directory, in the order in which they were made. -/
def names (t : FileTree) (l : Location) : List Name :=
  (t.entries.filterMap fun e => if e.1.dropLast = l then e.1.getLast? else none).eraseDups

@[simp] theorem node?_nil (t : FileTree) : t.node? [] = some .directory := rfl

theorem mem_names {t : FileTree} {l : Location} {name : Name} :
    name ∈ t.names l ↔ ∃ n, (l ++ [name], n) ∈ t.entries := by
  simp only [names, List.mem_eraseDups, List.mem_filterMap]
  constructor
  · rintro ⟨⟨location, n⟩, hmem, h⟩
    by_cases hl : location.dropLast = l
    · rw [if_pos hl] at h
      obtain ⟨front, rfl⟩ := List.getLast?_eq_some_iff.1 h
      rw [List.dropLast_concat] at hl
      exact ⟨n, hl ▸ hmem⟩
    · simp [hl] at h
  · rintro ⟨n, hmem⟩
    exact ⟨(l ++ [name], n), hmem, by simp⟩

/-! ## Changes -/

/-- Puts a node at a location, in the place of the node that stands there. -/
def put (t : FileTree) (l : Location) (n : Node) : FileTree :=
  if t.entries.any (·.1 = l) then
    { t with entries := t.entries.map fun e => if e.1 = l then (l, n) else e }
  else { t with entries := t.entries ++ [(l, n)] }

/-- Makes the directories that are missing along the names `rest` below `l`. -/
def makeDirectories (t : FileTree) (l : Location) : List Name → FileTree
  | [] => t
  | name :: rest =>
      let next := l ++ [name]
      let t' := if (t.node? next).isNone then t.put next .directory else t
      t'.makeDirectories next rest

def removeAt (t : FileTree) (l : Location) : FileTree :=
  { t with entries := t.entries.filter fun e => !l.isPrefixOf e.1 }

end FileTree

end SourceGauge
