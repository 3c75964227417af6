import SourceGauge.FileTree.Resolve
import SourceGauge.Ignore.Rule

/-!
# Layers of ignore rules

Each directory from the top down to an entry may hold ignore files of three kinds. Of one
kind the file nearest to the entry that says anything decides; between kinds there is a
fixed order.
-/

namespace SourceGauge.Ignore

structure Layer where
  /-- How many names lead to the directory. -/
  depth : Nat
  /-- Rules of `.ignore`. -/
  plain : List Rule
  /-- Rules of `.gitignore`. -/
  git : List Rule
  /-- Rules of `.git/info/exclude`. -/
  exclude : List Rule
deriving DecidableEq, Repr

/-- The rules of the file that names lead to from a directory; no file, no rules. -/
def rulesAt (t : FileTree) (directory : Location) (names : List String) : List Rule :=
  match t.follow FileTree.maxLinks directory (names.map String.toList) with
  | .arrived l =>
      match t.bytesAt l with
      | .ok bytes => rulesOf bytes
      | .error _ => []
  | _ => []

def layerAt (t : FileTree) (depth : Nat) (directory : Location) : Layer where
  depth := depth
  plain := rulesAt t directory [".ignore"]
  git := rulesAt t directory [".gitignore"]
  exclude := rulesAt t directory [".git", "info", "exclude"]

def layersAbove (t : FileTree) (l : Location) : List Layer :=
  ((List.range l.length).map fun n => layerAt t n (l.take n)).reverse

/-- The bytes of the path from a directory at the given depth to an entry. -/
def relativeBytes (depth : Nat) (entry : Location) : List UInt8 :=
  Text.encode (List.intercalate ['/'] (entry.drop depth))

/-- What one kind of rules says of an entry, the innermost layer first. -/
def kindVerdict? (layers : List Layer) (kind : Layer → List Rule) (entry : Location)
    (isDirectory : Bool) : Option Verdict :=
  layers.findSome? fun layer =>
    verdict? (kind layer) (relativeBytes layer.depth entry) isDirectory

def drops (layers : List Layer) (entry : Location) (isDirectory : Bool) : Bool :=
  let say := fun kind => kindVerdict? layers kind entry isDirectory
  ((say Layer.plain).or ((say Layer.git).or (say Layer.exclude))) == some .drop

end SourceGauge.Ignore
