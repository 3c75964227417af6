/-!
# Help and version

The texts that answer a request for help or for the version.
-/

namespace SourceGauge.CommandLine

def closedLines (ls : List String) : String := ls.foldl (fun text line => text ++ line ++ "\n") ""

def version : String := "0.3.1"

def versionText : String := closedLines ["scriptmetrics " ++ version]

def helpOpening : List String :=
  ["scriptmetrics - line, comment, logical-expression and cyclomatic metrics for JavaScript/TypeScript trees",
    "",
    "Usage: scriptmetrics [OPTIONS] [ROOT]",
    ""]

def longArguments : List String :=
  ["Arguments:",
    "  [ROOT]",
    "          Root directory to analyze. Falls back to `root_directory` from the config file, then `src`",
    "",
    "Options:",
    "      --ext <EXT>",
    "          File name suffix to analyze (repeatable; replaces the configured set)",
    "",
    "      --exclude <PATTERN>",
    "          Directory-name glob to skip (repeatable; added to the configured set)",
    "",
    "      --gitignore",
    "          Honour .gitignore / .ignore files while walking",
    "",
    "      --on-read-error <ON_READ_ERROR>",
    "          What to do when a file cannot be read or is not valid UTF-8",
    "",
    "          Possible values:",
    "          - skip:  Warn on stderr and leave the file out of the totals",
    "          - abort: Stop the run with the read error",
    "",
    "      --json",
    "          Output raw JSON",
    "",
    "      --files",
    "          Include per-file metrics (table, or a `files` array with --json)",
    "",
    "  -O, --output-file <OUTPUT_FILE>",
    "          Save output to file",
    "",
    "  -v, --verbose",
    "          Enable verbose output for debugging (shows files being analyzed)",
    "",
    "  -h, --help",
    "          Print help (see a summary with '-h')",
    "",
    "  -V, --version",
    "          Print version",
    ""]

def shortArguments : List String :=
  ["Arguments:",
    "  [ROOT]  Root directory to analyze. Falls back to `root_directory` from the config file, then `src`",
    "",
    "Options:",
    "      --ext <EXT>                      File name suffix to analyze (repeatable; replaces the configured set)",
    "      --exclude <PATTERN>              Directory-name glob to skip (repeatable; added to the configured set)",
    "      --gitignore                      Honour .gitignore / .ignore files while walking",
    "      --on-read-error <ON_READ_ERROR>  What to do when a file cannot be read or is not valid UTF-8 [possible values: skip, abort]",
    "      --json                           Output raw JSON",
    "      --files                          Include per-file metrics (table, or a `files` array with --json)",
    "  -O, --output-file <OUTPUT_FILE>      Save output to file",
    "  -v, --verbose                        Enable verbose output for debugging (shows files being analyzed)",
    "  -h, --help                           Print help (see more with '--help')",
    "  -V, --version                        Print version",
    ""]

def helpClosing : List String :=
  ["CONFIGURATION FILE (.scriptmetrics.toml):",
    "  Create this file in your project root to set defaults.",
    "",
    "  [scriptmetrics]",
    "  root_directory = \"src\"            # Directory to analyze (relative to this file)",
    "  extensions = [\".js\", \".ts\"]       # File name suffixes to analyze",
    "  exclude_folders = [\"node_modules\"] # Directory-name globs to skip",
    "  respect_gitignore = false         # Honour .gitignore while walking",
    "  on_read_error = \"skip\"            # skip | abort",
    "",
    "  The same keys may live under a \"scriptmetrics\" object in package.json."]

/-- The help text, with the descriptions on lines of their own or in one column. -/
def helpText (long : Bool) : String :=
  closedLines (helpOpening ++ (if long then longArguments else shortArguments) ++ helpClosing)

end SourceGauge.CommandLine
