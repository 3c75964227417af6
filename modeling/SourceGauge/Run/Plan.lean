import SourceGauge.CommandLine.Help
import SourceGauge.CommandLine.Reader
import SourceGauge.Discovery.Files
import SourceGauge.Settings.Search
import SourceGauge.Text.Quoted

/-!
# Plans

What a run does once the command line, the settings and the defaults are taken together.
-/

namespace SourceGauge.Run

open CommandLine (Request)

/-- What a run does once command line and settings are taken together. -/
structure Plan where
  root : Path
  options : Discovery.Options
  policy : ReadPolicy
  settingsFile : Option Path
deriving DecidableEq, Repr

namespace Plan

def defaultExtensions : List (List Char) := [".js".toList, ".ts".toList]

def defaultRoot : Path := .ofString "src"

/-- The request filled in from settings, and those from defaults. Extensions on the command
line replace, globs of excluded directories add. -/
def ofConfig (r : Request) (c : Settings.Config) : Plan :=
  let s := c.settings
  let extensions :=
    if r.extensions.isEmpty then s.extensions.getD defaultExtensions else r.extensions
  { root := (r.root.or c.resolvedRoot?).getD defaultRoot
    options :=
      { extensions := (extensions.map Extension.normalize).eraseDups
        excludes := (s.excludes.getD [] ++ r.excludes).eraseDups
        gitignore := r.gitignore || s.gitignore.getD false }
    policy := (r.onReadError.or s.onReadError).getD .skip
    settingsFile := c.file }

/-- The plan for a request; settings are looked for from the root that is asked for. -/
def make (t : FileTree) (r : Request) : Plan :=
  ofConfig r (Settings.load t (r.root.getD Path.here))

end Plan

/-! ## What is logged -/

def logText (ls : List (List Char)) : List Char := ls.flatMap (· ++ ['\n'])

def policyLabel : ReadPolicy → String
  | .skip => "Skip"
  | .abort => "Abort"

def detail (label : String) (value : List Char) : List Char :=
  "[VERBOSE] ".toList ++ label.toList ++ value

def Plan.log (p : Plan) : List (List Char) :=
  [detail "scriptmetrics v" CommandLine.version.toList,
    detail "Using 1 threads" []] ++
  (p.settingsFile.toList.map fun f => detail "Config file: " f.text) ++
  [detail "Root: " p.root.text,
    detail "Extensions: " (Text.quotedList p.options.extensions),
    detail "Read errors: " (policyLabel p.policy).toList,
    detail "Excluded folders: " (Text.quotedList p.options.excludes),
    detail "Respect .gitignore: " (toString p.options.gitignore).toList,
    []]

end SourceGauge.Run
