import SourceGauge.Analysis
import SourceGauge.Discovery.Visit

/-!
# Discovery of source files

The files below a root directory whose names have a wanted extension, in increasing order.
Directories are left out by globs on their names, and entries by ignore files if these
are honoured. The root is only checked for being a directory. Whether it may be listed is
not asked, since in a tree without permissions every directory can be.
-/

namespace SourceGauge.Discovery

def longest (t : FileTree) : Nat := (t.entries.map fun e => e.1.length).foldl max 0

/-- How deep a visit can lead. Each link entered leads to a directory that is not being
visited, and between two links names only add up to a location of the tree. -/
def depthBound (t : FileTree) : Nat := (t.entries.length + 2) * (longest t + 2)

def locateRoot (t : FileTree) (root : Path) : Except AnalysisError Location :=
  match t.locate root with
  | .error cause => .error (.directory root (.unreachable cause))
  | .ok l => if t.isDirectoryAt l then .ok l else .error (.directory root .notDirectory)

/-- Whether the root is spelled as a lone dash, which stands for an input stream and holds
no files. -/
def isDash (root : Path) : Bool := root.components == [.name ['-']]

def findings (t : FileTree) (o : Options) (root : Path) (l : Location) : List Finding :=
  if isDash root then []
  else visit t o (validExcludes o.excludes) (depthBound t) (rootStage t o root l)

/-- The source files below a root in increasing order, and the notices in the order in
which they arise. -/
def discover (t : FileTree) (o : Options) (root : Path) :
    Except AnalysisError (List Path × List Notice) :=
  match locateRoot t root with
  | .error e => .error e
  | .ok l =>
      let found := findings t o root l
      .ok (Path.sort (found.filterMap Finding.file?),
        excludeNotices o.excludes ++ found.filterMap Finding.notice?)

def log (verbose : Bool) (notices : List Notice) : List (List Char) :=
  (notices.filter fun n => verbose || !n.isDetail).map Notice.message

end SourceGauge.Discovery
