import SourceGauge.CommandLine.Basic
import SourceGauge.Text.Similarity

/-!
# Complaints

What can be wrong with a command line, and the messages about it. A message may add a tip
and shows how the program is used, or names only the option.
-/

namespace SourceGauge.CommandLine

inductive Complaint where
  /-- A long option is unknown; `accepted` holds the arguments taken before it. -/
  | unknownLong (name : List Char) (accepted : List Argument)
  | unknownShort (letter : Char)
  | surplus (value : List Char)
  | invalidPolicy (value : List Char)
  /-- An argument lacks its value, or the value is empty and may not be. -/
  | missingValue (argument : Argument)
  | repeated (argument : Argument)
  /-- A flag is given a value; `used` holds the arguments taken before it. -/
  | unneededValue (argument : Argument) (value : List Char) (used : List Argument)
deriving DecidableEq, Repr

def policyNames : List String := ["skip", "abort"]

/-- The known long name that an unknown one is taken to be. -/
def suggestLong? (name : List Char) : Option (List Char) :=
  Text.mostSimilar? name (Argument.longNames.map fun n => n.1.toList)

def generalUsage : String := "Usage: scriptmetrics [OPTIONS] [ROOT]"

def usageWith (arguments : List Argument) : String :=
  if arguments.isEmpty then generalUsage
  else
    let options := (arguments.filter (· ≠ .root)).eraseDups.map Argument.display
    let root := if .root ∈ arguments then "<ROOT>" else "[ROOT]"
    " ".intercalate ("Usage: scriptmetrics" :: options ++ [root])

/-- The arguments that the usage line after an unknown long option shows. -/
def shownArguments (name : List Char) (accepted : List Argument) : List Argument :=
  match (suggestLong? name).bind Argument.ofLong? with
  | some argument => accepted ++ [argument]
  | none => accepted

def escapeTip (option : List Char) : List Char :=
  "tip: to pass '".toList ++ option ++ "' as a value, use '-- ".toList ++ option ++ ['\'']

def similarTip (kind : String) (word : List Char) : List Char :=
  "tip: a similar ".toList ++ kind.toList ++ " exists: '".toList ++ word ++ ['\'']

namespace Complaint

def headline : Complaint → List Char
  | unknownLong name _ =>
      "unexpected argument '--".toList ++ name ++ "' found".toList
  | unknownShort letter => "unexpected argument '-".toList ++ letter :: "' found".toList
  | surplus value => "unexpected argument '".toList ++ value ++ "' found".toList
  | invalidPolicy value =>
      "invalid value '".toList ++ value ++ "' for '".toList ++
        Argument.onReadError.display.toList ++ ['\'']
  | missingValue argument =>
      "a value is required for '".toList ++ argument.display.toList ++
        "' but none was supplied".toList
  | repeated argument =>
      "the argument '".toList ++ argument.display.toList ++
        "' cannot be used multiple times".toList
  | unneededValue argument value _ =>
      "unexpected value '".toList ++ value ++ "' for '".toList ++ argument.display.toList ++
        "' found; no more were expected".toList

def choices : Complaint → List Char
  | invalidPolicy _ | missingValue .onReadError =>
      "\n  [possible values: ".toList ++ (", ".intercalate policyNames).toList ++ [']']
  | _ => []

def tip? : Complaint → Option (List Char)
  | unknownLong name _ =>
      match suggestLong? name with
      | some word => some (similarTip "argument" ('-' :: '-' :: word))
      | none => some (escapeTip ('-' :: '-' :: name))
  | unknownShort letter => some (escapeTip ['-', letter])
  | invalidPolicy value =>
      (Text.mostSimilar? value (policyNames.map String.toList)).map (similarTip "value")
  | surplus _ | missingValue _ | repeated _ | unneededValue .. => none

def usage? : Complaint → Option String
  | unknownLong name accepted => some (usageWith (shownArguments name accepted))
  | unneededValue argument _ used => some (usageWith (used ++ [argument]))
  | unknownShort _ | surplus _ | repeated _ => some generalUsage
  | invalidPolicy _ | missingValue _ => none

def message (c : Complaint) : List Char :=
  let tip := (c.tip?.map fun t => "\n\n  ".toList ++ t).getD []
  let usage := (c.usage?.map fun u => "\n\n".toList ++ u.toList).getD []
  "error: ".toList ++ c.headline ++ c.choices ++ tip ++ usage ++
    "\n\nFor more information, try '--help'.\n".toList

end Complaint

end SourceGauge.CommandLine
