import SourceGauge.FileTree.Write
import SourceGauge.Report.Document
import SourceGauge.Report.Text
import SourceGauge.Run.Plan

/-!
# Runs of the program

From a command line and a file tree to everything that can be seen of a run: its status,
what it prints, what it logs, and the file tree behind it.
-/

namespace SourceGauge.Run

open CommandLine (Request)

inductive Failure where
  | analysis (e : AnalysisError)
  /-- The directory of the output file does not exist. -/
  | noOutputDirectory (directory : Path)
  | output (cause : FileError)
deriving DecidableEq, Repr

def Failure.message : Failure → List Char
  | analysis e => e.chainMessage
  | noOutputDirectory d =>
      "output directory '".toList ++ d.text ++ "' does not exist".toList
  | output cause => cause.message.toList

structure Outcome where
  status : Except Failure Nat
  output : List Char
  log : List Char
  tree : FileTree

namespace Outcome

/-- The exit code of the program: a failure ends it with one. -/
def exitCode (o : Outcome) : Nat :=
  match o.status with
  | .ok code => code
  | .error _ => 1

def fullLog (o : Outcome) : List Char :=
  match o.status with
  | .ok _ => o.log
  | .error e => o.log ++ "Error: ".toList ++ e.message ++ ['\n']

end Outcome

/-! ## Output -/

def content (r : Request) (run : AnalysisRun) : List Char :=
  if r.json then
    Report.document run.totals (if r.files then some run.files else none) ++ ['\n']
  else
    (if r.files then Report.fileTable run.files ++ ['\n'] else []) ++ Report.summary run.totals

def checkOutput (t : FileTree) (p : Path) : Except Failure Unit :=
  match p.parent? with
  | some d =>
      if !d.text.isEmpty && !t.isDirectory d then .error (.noOutputDirectory d) else .ok ()
  | none => .ok ()

/-- Writes a text to a file if one is given, and prints it otherwise. Gives what is printed
and the tree behind it. -/
def emit (t : FileTree) (text : List Char) : Option Path → Except Failure (List Char × FileTree)
  | none => .ok (text, t)
  | some p =>
      match t.writeFile p text with
      | .ok t => .ok ([], t)
      | .error cause => .error (.output cause)

/-! ## Runs -/

def finish (t : FileTree) (r : Request) (p : Plan) (log : List (List Char)) (files : List Path) :
    Outcome :=
  let verbose := r.verbose
  let found := detail "Found " (Text.decimal files.length ++ " source files".toList)
  let bar := if verbose || files.isEmpty then none else some (Progress.start files.length)
  let result := (analyzePaths t p.policy bar files).1
  let log := log ++ (if verbose then [found] else []) ++ analysisLog verbose files result
  match result with
  | .error e => ⟨.error (.analysis e), [], logText log, t⟩
  | .ok run =>
      let skipped :=
        detail "Skipped " (Text.decimal run.skipped.length ++ " unreadable files".toList)
      let log := logText (log ++ (if verbose && !run.skipped.isEmpty then [skipped] else []))
      match emit t (content r run) r.outputFile with
      | .ok (output, t') => ⟨.ok 0, output, log, t'⟩
      | .error e => ⟨.error e, [], log, t⟩

def ofRequest (t : FileTree) (r : Request) : Outcome :=
  let p := Plan.make t r
  match (r.outputFile.map (checkOutput t)).getD (.ok ()) with
  | .error e => ⟨.error e, [], [], t⟩
  | .ok () =>
      let log := if r.verbose then p.log else []
      match Discovery.discover t p.options p.root with
      | .error e => ⟨.ok 1, [], logText (log ++ ["Error: ".toList ++ e.message]), t⟩
      | .ok (files, notices) => finish t r p (log ++ Discovery.log r.verbose notices) files

def ofArguments (t : FileTree) (arguments : List (List Char)) : Outcome :=
  match CommandLine.parse arguments with
  | .ok r => ofRequest t r
  | .error (.help long) => ⟨.ok 0, (CommandLine.helpText long).toList, [], t⟩
  | .error .version => ⟨.ok 0, CommandLine.versionText.toList, [], t⟩
  | .error (.complaint c) => ⟨.ok 1, [], c.message, t⟩

end SourceGauge.Run
