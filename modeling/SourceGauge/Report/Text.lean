import SourceGauge.Binary64.Numeral
import SourceGauge.Metrics
import SourceGauge.Text.Width

/-!
# Text reports

The totals one to a line in a fixed order, and the records of the files as a table drawn
with box characters: a header, one block of lines for each row, and rules between them. A
column is as wide as its widest cell line, and no cell is wrapped.
-/

namespace SourceGauge.Report

def summaryLine (label : String) (value : List Char) : List Char :=
  label.toList ++ ':' :: ' ' :: value ++ ['\n']

def summary (t : Totals) : List Char :=
  summaryLine "Total Files" (Text.decimal t.files) ++
  summaryLine "Total Lines of Code" (Text.decimal t.lines) ++
  summaryLine "Total Empty Lines" (Text.decimal t.emptyLines) ++
  summaryLine "Total Comment Lines" (Text.decimal t.commentLines) ++
  summaryLine "Level of Commenting" t.commenting.ratioText ++
  summaryLine "Total Physical Lines" (Text.decimal t.physicalLines) ++
  summaryLine "Total Logical Lines" (Text.decimal t.logicalLines) ++
  summaryLine "Total Cyclomatic Complexity" (Text.decimal t.complexity)

/-! ## Boxed tables -/

inductive Alignment where
  | left
  | right
deriving DecidableEq, Repr

structure Cell where
  lines : List (List Char)
  alignment : Alignment
deriving DecidableEq, Repr

namespace Cell

/-- A cell set to the left, with a line for each line of the text. -/
def ofText (s : List Char) : Cell := ⟨Text.lines s, .left⟩

def ofNumeral (s : List Char) : Cell := ⟨[s], .right⟩

def width (c : Cell) : Nat := (c.lines.map Text.width).foldl max 0

/-- The given line filled with blanks to a width; a line that the cell lacks is blank. -/
def paddedLine (c : Cell) (width index : Nat) : List Char :=
  let line := c.lines.getD index []
  let fill := List.replicate (width - Text.width line) ' '
  match c.alignment with
  | .left => line ++ fill
  | .right => fill ++ line

end Cell

abbrev Row := List Cell

def rowHeight (row : Row) : Nat := (row.map fun c => c.lines.length).foldl max 1

def columnWidths (header : Row) (rows : List Row) : List Nat :=
  rows.foldl (fun widths row => List.zipWith max widths (row.map Cell.width))
    (header.map Cell.width)

/-- One line of a row: cells with a blank on both sides, a dashed bar between columns. -/
def rowLine (widths : List Nat) (row : Row) (index : Nat) : List Char :=
  let cells := List.zipWith (fun w c => ' ' :: c.paddedLine w index ++ [' ']) widths row
  '│' :: List.intercalate ['┆'] cells ++ ['│']

def rowLines (widths : List Nat) (row : Row) : List (List Char) :=
  (List.range (rowHeight row)).map (rowLine widths row)

def rule (left fill cross right : Char) (widths : List Nat) : List Char :=
  left :: List.intercalate [cross] (widths.map fun w => List.replicate (w + 2) fill) ++ [right]

/-- The blocks of the rows with a dashed rule between neighbours. -/
def bodyLines (widths : List Nat) (rows : List Row) : List (List Char) :=
  List.intercalate [rule '├' '╌' '┼' '┤' widths] (rows.map (rowLines widths))

def tableLines (header : Row) (rows : List Row) : List (List Char) :=
  let widths := columnWidths header rows
  rule '┌' '─' '┬' '┐' widths :: rowLines widths header ++
    rule '╞' '═' '╪' '╡' widths :: bodyLines widths rows ++ [rule '└' '─' '┴' '┘' widths]

/-! ## The table of files -/

def fileHeader : Row :=
  ["File", "Lines", "Empty", "Comments", "Commenting", "Logical", "Complexity"].map
    fun s => .ofText s.toList

def fileRow (f : FileMetrics) : Row :=
  [.ofText f.path.display, .ofNumeral (Text.decimal f.lines),
    .ofNumeral (Text.decimal f.emptyLines), .ofNumeral (Text.decimal f.commentLines),
    .ofNumeral f.commenting.ratioText, .ofNumeral (Text.decimal f.logicalLines),
    .ofNumeral (Text.decimal f.complexity)]

/-- The lines of the table of files; no file, no table. -/
def fileTableLines (files : List FileMetrics) : List (List Char) :=
  if files.isEmpty then [] else tableLines fileHeader (files.map fileRow)

def fileTable (files : List FileMetrics) : List Char :=
  (fileTableLines files).flatMap (· ++ ['\n'])

end SourceGauge.Report
