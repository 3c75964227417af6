import SourceGauge.FileTree.Resolve

/-!
# Writing through paths

Filling files, putting and removing entries where paths lead.
-/

namespace SourceGauge.FileTree

/-- The path without the slashes at its end, and whether there were any. -/
def cutSlashes (p : Path) : Path × Bool :=
  (⟨(p.text.reverse.dropWhile (· = '/')).reverse⟩, p.text.getLast? == some '/')

/-- The location of the file that writing to a path fills: an existing file, or a missing
entry of an existing directory. -/
def fileTarget (t : FileTree) (p : Path) : Except FileError Location :=
  match cutSlashes p with
  | (stem, true) =>
      match stem.parent? with
      | none => .error .isDirectory
      | some dir =>
          match t.locate (if dir.text.isEmpty then Path.here else dir) with
          | .error cause => .error cause
          | .ok l => .error (if t.isDirectoryAt l then .isDirectory else .notDirectory)
  | (_, false) =>
      match t.halt p with
      | .arrived l => if t.isDirectoryAt l then .error .isDirectory else .ok l
      | .missing directory name [] => .ok (directory ++ [name])
      | .missing _ _ rest =>
          .error (if rest.all List.isEmpty then .isDirectory else .notFound)
      | .link .. => .error .notFound
      | .failed cause => .error cause

def writeFile (t : FileTree) (p : Path) (text : List Char) : Except FileError FileTree := do
  return t.put (← t.fileTarget p) (.file (Text.encode text))

def lexicalStep (l : Location) : Path.Component → Location
  | .root => []
  | .current => l
  | .parent => l.dropLast
  | .name name => l ++ [name]

/-- Where a path leads from a location when no name is a link. -/
def lexical (l : Location) (p : Path) : Location := p.components.foldl lexicalStep l

/-- The location of the entry that a path names, its last name not followed. -/
def entryTarget (t : FileTree) (p : Path) : Location :=
  match p.parent?, p.fileName? with
  | some dir, some name =>
      match t.locate (if dir.text.isEmpty then Path.here else dir) with
      | .ok l => l ++ [name]
      | .error _ => lexical t.current p
  | _, _ => lexical t.current p

/-- Puts a node where a path says, and makes the directories on the way. A file replaces
the file behind a link. -/
def install (t : FileTree) (p : Path) (n : Node) : FileTree :=
  let l :=
    match n, t.locate p with
    | .file _, .ok l => if t.isDirectoryAt l then t.entryTarget p else l
    | _, _ => t.entryTarget p
  let made := t.makeDirectories [] l.dropLast
  match n with
  | .directory => made.makeDirectories l.dropLast l.getLast?.toList
  | _ => made.put l n

def remove (t : FileTree) (p : Path) : FileTree := t.removeAt (t.entryTarget p)

def enter (t : FileTree) (p : Path) : FileTree :=
  match t.locate p with
  | .ok l => { t with current := l }
  | .error _ => t

end SourceGauge.FileTree
