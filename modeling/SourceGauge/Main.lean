import SourceGauge.FileTree.Write
import SourceGauge.Json.Parser
import SourceGauge.Json.Printer
import SourceGauge.Run.Outcome

/-!
# The command line program

Takes a snapshot of the file tree from standard input and the arguments from the command
line. Prints the output of the run and, as a snapshot, the files that the run has written.
A snapshot is a JSON object: each member is a path with the text of a file, a null for a
directory, or a list of one path for a link.
-/

namespace SourceGauge.FileTree

def nodeOf? : Json → Option Node
  | .string (some text) => some (.file (Text.encode text))
  | .null => some .directory
  | .array [.string (some target)] => some (.link ⟨target⟩)
  | _ => none

def ofSnapshot? : Json → Option FileTree
  | .object members =>
      members.foldlM
        (fun t m => do return t.install ⟨← m.1⟩ (← nodeOf? m.2))
        FileTree.empty
  | _ => none

/-- The text files of a tree that another tree lacks or has with other content, as members
of a snapshot. -/
def changes (before after : FileTree) : List (Option (List Char) × Json) :=
  after.entries.filterMap fun e =>
    match e.2 with
    | .file bytes =>
        if before.node? e.1 = some e.2 then none
        else
          (Text.decode? bytes).map fun text =>
            (some (List.intercalate ['/'] e.1), .string (some text))
    | .directory | .link _ => none

end SourceGauge.FileTree

open SourceGauge

partial def readRest (stream : IO.FS.Stream) (text : String) : IO String := do
  let line ← stream.getLine
  if line.isEmpty then return text else readRest stream (text ++ line)

def main (arguments : List String) : IO UInt32 := do
  let text ← readRest (← IO.getStdin) ""
  match (Json.parse? text.toList).bind FileTree.ofSnapshot? with
  | none =>
      (← IO.getStderr).putStrLn "Error: standard input holds no snapshot of a file tree"
      return 1
  | some tree =>
      let outcome := Run.ofArguments tree (arguments.map String.toList)
      let written := FileTree.changes tree outcome.tree
      (← IO.getStderr).putStr (String.ofList outcome.fullLog)
      (← IO.getStdout).putStr (String.ofList outcome.output)
      if !written.isEmpty then
        (← IO.getStdout).putStrLn (String.ofList (Json.object written).pretty)
      return outcome.exitCode.toUInt32
