import SourceGauge.Json.Parser
import SourceGauge.Settings.Section
import SourceGauge.Toml.Parser

/-!
# Decoding settings

From the value of a document to settings. A section is an object with known members, or
the list of all its settings in a fixed order; a null is a missing setting. A document
that does not fit is refused as a whole.
-/

namespace SourceGauge.Settings

/-! ## TOML values as JSON values -/

mutual

/-- The JSON value with the same shape. Numbers and dates fit no setting, so their spelling
does not matter. -/
def ofToml : Toml → Json
  | .text s => .string (some s)
  | .bool b => .bool b
  | .other => .number ['0']
  | .array items => .array (ofTomlItems items)
  | .tables items => .array (ofTomlItems items).reverse
  | .table _ entries => .object (ofTomlEntries entries)

def ofTomlItems : List Toml → List Json
  | [] => []
  | item :: items => ofToml item :: ofTomlItems items

def ofTomlEntries : List (List Char × Toml) → List (Option (List Char) × Json)
  | [] => []
  | (name, value) :: entries => (some name, ofToml value) :: ofTomlEntries entries

end

/-! ## Sections -/

/-- What may stand behind the name of a policy that is written as an object. -/
abbrev UnitTest := Json → Bool

/-- In JSON a null stands behind the name. -/
def isNull : UnitTest
  | .null => true
  | _ => false

/-- In TOML an empty container stands behind the name. -/
def isEmptyContainer : UnitTest
  | .array [] | .object [] => true
  | _ => false

def text? : Json → Option (List Char)
  | .string text => text
  | _ => none

def texts? : Json → Option (List (List Char))
  | .array items => items.mapM text?
  | _ => none

def flag? : Json → Option Bool
  | .bool b => some b
  | _ => none

/-- A policy: its name, or an object whose only member bears its name. -/
def policy? (isUnit : UnitTest) : Json → Option ReadPolicy
  | .string (some name) => policyOf? name
  | .object [(some name, value)] => if isUnit value then policyOf? name else none
  | _ => none

/-- A setting that is given at most once. The outer level fails on a value that does not
fit, the inner is missing when nothing or a null is given. -/
def setting? (decode : Json → Option α) : List Json → Option (Option α)
  | [] | [.null] => some none
  | [value] => (decode value).map some
  | _ => none

def sectionOf? (isUnit : UnitTest) (root extensions excludes gitignore onReadError : List Json) :
    Option Section := do
  return {
    root := (← setting? text? root).map Path.mk
    extensions := ← setting? texts? extensions
    excludes := ← setting? texts? excludes
    gitignore := ← setting? flag? gitignore
    onReadError := ← setting? (policy? isUnit) onReadError }

def membersNamed (names : List String) (members : List (Option (List Char) × Json)) : List Json :=
  members.filterMap fun m => if m.1.any fun n => String.ofList n ∈ names then some m.2 else none

def memberNames : List String :=
  ["root_directory", "extensions", "exclude_folders", "exclude", "respect_gitignore",
    "on_read_error"]

/-- The settings of a section. Every member has a known name. -/
def section? (isUnit : UnitTest) : Json → Option Section
  | .object members =>
      if members.all fun m => m.1.any fun n => String.ofList n ∈ memberNames then
        sectionOf? isUnit (membersNamed ["root_directory"] members)
          (membersNamed ["extensions"] members)
          (membersNamed ["exclude_folders", "exclude"] members)
          (membersNamed ["respect_gitignore"] members)
          (membersNamed ["on_read_error"] members)
      else none
  | .array [root, extensions, excludes, gitignore, onReadError] =>
      sectionOf? isUnit [root] [extensions] [excludes] [gitignore] [onReadError]
  | _ => none

/-! ## Documents -/

def sectionName : String := "scriptmetrics"

/-- The settings of a TOML document; without a section all of them are missing. -/
def ofTomlText? (content : List Char) : Option Section :=
  match (Toml.parse? content).map ofToml with
  | some (.object members) =>
      match membersNamed [sectionName] members with
      | [] => some .empty
      | [value] => section? isEmptyContainer value
      | _ => none
  | _ => none

/-- The settings of a JSON document, which has to hold a section. The document is an
object, or a list of the section alone. -/
def ofJsonText? (content : List Char) : Option Section :=
  match Json.parse? content with
  | some (.object members) =>
      if members.all fun m => m.1.isSome then
        match membersNamed [sectionName] members with
        | [value] => section? isNull value
        | _ => none
      else none
  | some (.array [value]) => section? isNull value
  | _ => none

end SourceGauge.Settings
