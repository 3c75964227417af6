import SourceGauge.Discovery.Options
import SourceGauge.Ignore.Layer

/-!
# Visits of directories

A visit goes through the entries of a directory and of the directories below it. Links are
followed; a link to a directory that is being visited already is reported and not entered.
Links are followed and directories opened under their whole paths, so that what a path may
not exceed, in bytes or in links, bounds a visit too.
-/

namespace SourceGauge.Discovery

structure Stage where
  path : Path
  location : Location
  /-- The location of the root followed by the names that lead here from it. -/
  trail : Location
  /-- This directory and those through which it was reached, innermost first. -/
  ancestors : List (Path × Location)
  /-- The ignore rules in force, innermost first. -/
  layers : List Ignore.Layer
deriving DecidableEq, Repr

inductive Entry where
  | file (location : Location)
  | directory (location : Location)
  | loop (ancestor : Path)
  | unreadable (cause : FileError)
deriving DecidableEq, Repr

def Stage.ancestorAt? (s : Stage) (l : Location) : Option Path :=
  (s.ancestors.find? fun a => a.2 = l).map Prod.fst

def Stage.entry (t : FileTree) (s : Stage) (name : Name) : Entry :=
  match t.node? (s.location ++ [name]) with
  -- Only a link can lead back, so a plain directory is not checked for loops.
  | some .directory => .directory (s.location ++ [name])
  | some (.file _) => .file (s.location ++ [name])
  | some (.link _) | none =>
      match t.locate (s.path.join ⟨name⟩) with
      | .error cause => .unreadable cause
      | .ok l =>
          if t.isDirectoryAt l then
            match s.ancestorAt? l with
            | some ancestor => .loop ancestor
            | none => .directory l
          else .file l

def innerLayers (t : FileTree) (o : Options) (trail location : Location)
    (layers : List Ignore.Layer) : List Ignore.Layer :=
  if o.gitignore then Ignore.layerAt t trail.length location :: layers else []

def Stage.enter (t : FileTree) (o : Options) (s : Stage) (name : Name) (l : Location) : Stage :=
  let path := s.path.join ⟨name⟩
  let trail := s.trail ++ [name]
  { path := path
    location := l
    trail := trail
    ancestors := (path, l) :: s.ancestors
    layers := innerLayers t o trail l s.layers }

def rootStage (t : FileTree) (o : Options) (root : Path) (l : Location) : Stage where
  path := root
  location := l
  trail := l
  ancestors := [(root, l)]
  layers := innerLayers t o l l (if o.gitignore then Ignore.layersAbove t l else [])

inductive Finding where
  | file (path : Path)
  | notice (n : Notice)
deriving DecidableEq, Repr

namespace Finding

def file? : Finding → Option Path
  | file p => some p
  | notice _ => none

def notice? : Finding → Option Notice
  | file _ => none
  | notice n => some n

end Finding

/-- What a visit comes upon in the entry of a given name; `deeper` visits a directory below. -/
def Stage.visitEntry (t : FileTree) (o : Options) (patterns : List Glob.Pattern)
    (deeper : Stage → List Finding) (s : Stage) (name : Name) : List Finding :=
  match s.entry t name with
  | .unreadable cause => [.notice (.unreadable (s.path.join ⟨name⟩) cause)]
  | .loop ancestor => [.notice (.loop (s.path.join ⟨name⟩) ancestor)]
  | .file _ =>
      if Ignore.drops s.layers (s.trail ++ [name]) false then []
      else if Extension.nameMatches name o.extensions then [.file (s.path.join ⟨name⟩)]
      else []
  | .directory l =>
      if Ignore.drops s.layers (s.trail ++ [name]) true then []
      else if isExcluded patterns name then []
      else
        match t.locate (s.path.join ⟨name⟩) with
        | .error cause => [.notice (.unreadable (s.path.join ⟨name⟩) cause)]
        | .ok _ => deeper (s.enter t o name l)

/-- Visits a directory and what lies below it, at most `fuel` directories deep. -/
def visit (t : FileTree) (o : Options) (patterns : List Glob.Pattern) :
    Nat → Stage → List Finding
  | 0, _ => []
  | fuel + 1, s =>
      (t.names s.location).flatMap (s.visitEntry t o patterns (visit t o patterns fuel))

end SourceGauge.Discovery
