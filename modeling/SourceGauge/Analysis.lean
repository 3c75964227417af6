import SourceGauge.FileTree.Resolve
import SourceGauge.Metrics

/-!
# Analysis of files

Reading files of a tree and measuring them. A file that cannot be read is either left out
with a warning or ends the analysis. Workers take up the files in any order and mark them
on a progress bar that they share; what they find is put back to the order of the paths.
-/

namespace SourceGauge

/-- What to do about a file that cannot be read. -/
inductive ReadPolicy where
  | skip
  | abort
deriving DecidableEq, Repr

inductive RootFault where
  | unreachable (cause : FileError)
  | notDirectory
deriving DecidableEq, Repr

def RootFault.message : RootFault → String
  | unreachable cause => cause.message
  | notDirectory => "not a directory"

inductive AnalysisError where
  | read (path : Path) (cause : FileError)
  | directory (path : Path) (fault : RootFault)
deriving DecidableEq, Repr

namespace AnalysisError

def path : AnalysisError → Path
  | read p _ | directory p _ => p

def message : AnalysisError → List Char
  | read p cause =>
      "failed to read '".toList ++ p.text ++ "': ".toList ++ cause.message.toList
  | directory p fault =>
      "cannot analyze directory '".toList ++ p.text ++ "': ".toList ++ fault.message.toList

def cause? : AnalysisError → Option FileError
  | read _ cause => some cause
  | directory .. => none

/-- The error in words, followed by the errors that lie behind it. -/
def chainMessage (e : AnalysisError) : List Char :=
  match e.cause? with
  | some cause => e.message ++ ": ".toList ++ cause.message.toList
  | none => e.message

end AnalysisError

def analyzeFile (t : FileTree) (p : Path) : Except AnalysisError FileMetrics :=
  match t.read p with
  | .ok content => .ok (.ofSource p content)
  | .error cause => .error (.read p cause)

/-- The outcome of an analysis: the records of the files that were read and the errors of
those that were left out, both in the order of the paths. -/
structure AnalysisRun where
  files : List FileMetrics
  skipped : List AnalysisError
deriving DecidableEq, Repr

namespace AnalysisRun

def totals (r : AnalysisRun) : Totals := Totals.ofFiles r.files

def empty : AnalysisRun := ⟨[], []⟩

def add (policy : ReadPolicy) (r : AnalysisRun) :
    Except AnalysisError FileMetrics → Except AnalysisError AnalysisRun
  | .ok f => .ok { r with files := r.files ++ [f] }
  | .error e =>
      match policy with
      | .abort => .error e
      | .skip => .ok { r with skipped := r.skipped ++ [e] }

end AnalysisRun

/-! ## Progress -/

/-- A progress bar: how many files there are, how many are done, and the name of the file
done last. -/
structure Progress where
  length : Nat
  position : Nat
  message : List Char
deriving DecidableEq, Repr

namespace Progress

def label : String := "Measuring"

def start (total : Nat) : Progress := ⟨total, 0, []⟩

/-- One file is done. A path without a file name leaves the message alone, and the
position may pass the length. -/
def mark (bar : Progress) (path : Path) : Progress :=
  { bar with position := bar.position + 1, message := path.fileName?.getD bar.message }

def states (bar : Progress) : List Path → List Progress
  | [] => []
  | path :: rest => bar.mark path :: (bar.mark path).states rest

end Progress

/-! ## Runs over many files -/

/-- What the workers of an analysis share: the bar, if one is attached, and the results so
far, each with the place of its path. -/
structure Workers where
  bar : Option Progress
  results : List (Nat × Except AnalysisError FileMetrics)

namespace Workers

/-- A worker measures the file of one path and then marks the path on the bar, whether or
not the file could be read. -/
def measure (t : FileTree) (w : Workers) (task : Path × Nat) : Workers where
  bar := w.bar.map fun bar => bar.mark task.1
  results := (task.2, analyzeFile t task.1) :: w.results

def collected (w : Workers) : List (Except AnalysisError FileMetrics) :=
  (List.range w.results.length).filterMap fun place => w.results.lookup place

end Workers

/-- Works off paths with their places in the order in which they are given. The policy sees
the results in the order of the places. Gives the run and the bar as it is left. -/
def analyzeTasks (t : FileTree) (policy : ReadPolicy) (bar : Option Progress)
    (tasks : List (Path × Nat)) : Except AnalysisError AnalysisRun × Option Progress :=
  let done := tasks.foldl (Workers.measure t) ⟨bar, []⟩
  (done.collected.foldlM (AnalysisRun.add policy) .empty, done.bar)

def analyzePaths (t : FileTree) (policy : ReadPolicy) (bar : Option Progress)
    (paths : List Path) : Except AnalysisError AnalysisRun × Option Progress :=
  analyzeTasks t policy bar paths.zipIdx

def skipWarning (e : AnalysisError) : List Char :=
  "WARNING: skipping file: ".toList ++ e.message

/-- The messages of an analysis: the path of each file if they are asked for, then a
warning for each file that is left out. -/
def analysisLog (verbose : Bool) (paths : List Path) (result : Except AnalysisError AnalysisRun) :
    List (List Char) :=
  let visited := paths.map fun p => "[VERBOSE] Analyzing ".toList ++ p.text
  let warnings :=
    match result with
    | .ok r => r.skipped.map skipWarning
    | .error _ => []
  (if verbose then visited else []) ++ warnings

end SourceGauge
