import SourceGauge.Json.Basic
import SourceGauge.Json.Printer
import SourceGauge.Metrics

/-!
# The JSON document

The totals, and the file records if they are asked for, as one JSON object. Members stand
in the order of their names.
-/

namespace SourceGauge.Report

def fileValue (f : FileMetrics) : Json :=
  .ofFields
    [("cyclomatic_complexity", .ofNat f.complexity),
      ("file_path", .ofText f.path.text),
      ("level_of_commenting", .ofBinary64 f.commenting),
      ("logical_lines", .ofNat f.logicalLines),
      ("num_comment_lines", .ofNat f.commentLines),
      ("num_empty_lines", .ofNat f.emptyLines),
      ("num_lines", .ofNat f.lines),
      ("physical_lines", .ofNat f.physicalLines)]

def totalsValue (t : Totals) : Json :=
  .ofFields
    [("level_of_commenting", .ofBinary64 t.commenting),
      ("total_comment_lines", .ofNat t.commentLines),
      ("total_cyclomatic_complexity", .ofNat t.complexity),
      ("total_empty_lines", .ofNat t.emptyLines),
      ("total_files", .ofNat t.files),
      ("total_lines", .ofNat t.lines),
      ("total_logical_lines", .ofNat t.logicalLines),
      ("total_physical_lines", .ofNat t.physicalLines)]

def documentValue (t : Totals) (files : Option (List FileMetrics)) : Json :=
  let summary := [("summary", totalsValue t)]
  match files with
  | none => .ofFields summary
  | some fs => .ofFields (("files", .array (fs.map fileValue)) :: summary)

def document (t : Totals) (files : Option (List FileMetrics)) : List Char :=
  (documentValue t files).pretty

end SourceGauge.Report
