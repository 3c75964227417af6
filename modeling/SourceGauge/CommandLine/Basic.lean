import SourceGauge.Settings.Section

/-!
# Command lines

The arguments that the program knows, and what a command line asks for.
-/

namespace SourceGauge.CommandLine

inductive Argument where
  | root
  | ext
  | exclude
  | gitignore
  | onReadError
  | json
  | files
  | outputFile
  | verbose
  | help
  | version
deriving DecidableEq, Repr

namespace Argument

/-- The long names, in the order of the help text; an argument may have more than one. -/
def longNames : List (String × Argument) :=
  [("ext", ext), ("exclude", exclude), ("exclude-folder", exclude), ("gitignore", gitignore),
    ("on-read-error", onReadError), ("json", json), ("files", files),
    ("output-file", outputFile), ("verbose", verbose), ("help", help), ("version", version)]

def ofLong? (name : List Char) : Option Argument := longNames.lookup (String.ofList name)

def ofShort? (c : Char) : Option Argument :=
  if c = 'O' then some outputFile
  else if c = 'v' then some verbose
  else if c = 'h' then some help
  else if c = 'V' then some version
  else none

def takesValue : Argument → Bool
  | root | ext | exclude | onReadError | outputFile => true
  | gitignore | json | files | verbose | help | version => false

def display : Argument → String
  | root => "[ROOT]"
  | ext => "--ext <EXT>"
  | exclude => "--exclude <PATTERN>"
  | gitignore => "--gitignore"
  | onReadError => "--on-read-error <ON_READ_ERROR>"
  | json => "--json"
  | files => "--files"
  | outputFile => "--output-file <OUTPUT_FILE>"
  | verbose => "--verbose"
  | help => "--help"
  | version => "--version"

end Argument

structure Request where
  root : Option Path
  extensions : List (List Char)
  excludes : List (List Char)
  gitignore : Bool
  onReadError : Option ReadPolicy
  json : Bool
  files : Bool
  outputFile : Option Path
  verbose : Bool
deriving DecidableEq, Repr

def Request.empty : Request :=
  { root := none, extensions := [], excludes := [], gitignore := false, onReadError := none,
    json := false, files := false, outputFile := none, verbose := false }

end SourceGauge.CommandLine
