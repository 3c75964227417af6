import SourceGauge.Settings.Decode

/-!
# Search for settings

Settings are looked for in the directory where the search starts and in its parents, as
the path spells them. In each directory the settings file comes before the manifest of
the project. A file that cannot be read or decoded is passed over.
-/

namespace SourceGauge.Settings

inductive Format where
  | toml
  /-- The manifest of a project, with settings as a part of it. -/
  | manifest
deriving DecidableEq, Repr

def Format.fileName : Format → Path
  | toml => .ofString ".scriptmetrics.toml"
  | manifest => .ofString "package.json"

def Format.decode? : Format → List Char → Option Section
  | toml => ofTomlText?
  | manifest => ofJsonText?

structure Candidate where
  path : Path
  format : Format
deriving DecidableEq, Repr

def candidatesIn (directory : Path) : List Candidate :=
  [.toml, .manifest].map fun f => ⟨directory.join f.fileName, f⟩

def Candidate.settings? (t : FileTree) (c : Candidate) : Option Section :=
  match t.read c.path with
  | .ok content => c.format.decode? content
  | .error _ => none

/-- Where a search starts: at a directory itself, at the parent of a file. -/
def searchStart (t : FileTree) (p : Path) : Path :=
  if t.isFile p then p.parent?.getD p else p

def candidates (t : FileTree) (p : Path) : List Candidate :=
  (searchStart t p).ascend.flatMap candidatesIn

/-- The settings of the first usable candidate, or the default. -/
def load (t : FileTree) (p : Path) : Config :=
  let found := (candidates t p).findSome? fun c =>
    (c.settings? t).map fun s => (⟨s, some c.path⟩ : Config)
  found.getD .default

end SourceGauge.Settings
