import SourceGauge.FileTree.Basic

/-!
# Resolving paths

A path leads from the current directory, or from the top, name by name to a location.
Two dots lead to the parent of the directory reached so far, and a symbolic link is
replaced by the path it stands for, at most forty times.
-/

namespace SourceGauge.FileTree

inductive Halt where
  | arrived (location : Location)
  /-- A link is next; it stands in `directory`, and `rest` lies behind it. -/
  | link (directory : Location) (target : Path) (rest : List Name)
  /-- The directory has no entry of this name. -/
  | missing (directory : Location) (name : Name) (rest : List Name)
  | failed (cause : FileError)
deriving DecidableEq, Repr

def maxNameBytes : Nat := 255

def maxPathBytes : Nat := 4095

def maxLinks : Nat := 40

/-- Follows the pieces of a path from a location up to the first link. -/
def advance (t : FileTree) : Location → List Name → Halt
  | l, [] => .arrived l
  | l, piece :: rest =>
      if !t.isDirectoryAt l then .failed .notDirectory
      else if Path.isIdle piece then t.advance l rest
      else if piece = ['.', '.'] then t.advance l.dropLast rest
      else if maxNameBytes < (Text.encode piece).length then .failed .nameTooLong
      else
        match t.node? (l ++ [piece]) with
        | none => .missing l piece rest
        | some (.link target) => .link l target rest
        | some _ => t.advance (l ++ [piece]) rest

/-- The location from which a path starts, given the directory it is relative to. -/
def startOf (directory : Location) (p : Path) : Location :=
  if p.isAbsolute then [] else directory

/-- Follows the pieces of a path through at most `links` links. -/
def follow (t : FileTree) : Nat → Location → List Name → Halt
  | links, l, pieces =>
      match t.advance l pieces with
      | .link directory target rest =>
          match links with
          | 0 => .failed .tooManyLinks
          | links + 1 =>
              t.follow links (startOf directory target) (Text.splitOn '/' target.text ++ rest)
      | halt => halt

/-- What is wrong with a path whatever the tree holds. -/
def pathFault? (p : Path) : Option FileError :=
  if p.text.any (·.toNat = 0) then some .nulInPath
  else if p.text.isEmpty then some .notFound
  else if maxPathBytes < (Text.encode p.text).length then some .nameTooLong
  else none

def halt (t : FileTree) (p : Path) : Halt :=
  match pathFault? p with
  | some cause => .failed cause
  | none => t.follow maxLinks (startOf t.current p) (Text.splitOn '/' p.text)

def locate (t : FileTree) (p : Path) : Except FileError Location :=
  match t.halt p with
  | .arrived l => .ok l
  | .failed cause => .error cause
  | .missing .. | .link .. => .error .notFound

def isDirectory (t : FileTree) (p : Path) : Bool :=
  match t.locate p with
  | .ok l => t.isDirectoryAt l
  | .error _ => false

def isFile (t : FileTree) (p : Path) : Bool :=
  match t.locate p with
  | .ok l => !t.isDirectoryAt l
  | .error _ => false

def bytesAt (t : FileTree) (l : Location) : Except FileError (List UInt8) :=
  match t.node? l with
  | some (.file bytes) => .ok bytes
  | some .directory => .error .isDirectory
  | some (.link _) | none => .error .notFound

def read (t : FileTree) (p : Path) : Except FileError (List Char) := do
  let bytes ← t.bytesAt (← t.locate p)
  match Text.decode? bytes with
  | some text => .ok text
  | none => .error .notText

end SourceGauge.FileTree
