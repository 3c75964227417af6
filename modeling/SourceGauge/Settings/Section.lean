import SourceGauge.Analysis

/-!
# Settings

What a settings file may say. A setting that is not given is missing, so that a command
line or a default can fill it in.
-/

namespace SourceGauge.Settings

structure Section where
  /-- The directory to analyze, relative to the directory of the file. -/
  root : Option Path
  extensions : Option (List (List Char))
  excludes : Option (List (List Char))
  gitignore : Option Bool
  onReadError : Option ReadPolicy
deriving DecidableEq, Repr

def Section.empty : Section := ⟨none, none, none, none, none⟩

structure Config where
  settings : Section
  file : Option Path
deriving DecidableEq, Repr

namespace Config

def default : Config := ⟨.empty, none⟩

/-- The root directory, seen from the directory of the settings file. -/
def resolvedRoot? (c : Config) : Option Path :=
  c.settings.root.map fun root =>
    if root.isAbsolute then root
    else ((c.file.bind Path.parent?).getD Path.here).join root

end Config

def policyOf? (name : List Char) : Option ReadPolicy :=
  if name = "skip".toList then some .skip
  else if name = "abort".toList then some .abort
  else none

end SourceGauge.Settings
