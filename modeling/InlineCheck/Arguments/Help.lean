import InlineCheck.Arguments

/-!
# Help texts

What the program prints when it is asked about itself: an overview with one line for each
option, the full help, and its version.
-/

namespace InlineCheck.Arguments

/-- The first lines of both help texts. -/
def helpHead : String :=
  "Inline Flow type errors for JavaScript files\n\nUsage: flow-lint [OPTIONS] [FILES]...\n\n"

/-- The help with one line for each option. -/
def overview : String :=
  helpHead ++
  "Arguments:\n" ++
  "  [FILES]...  Files to check (relative paths are resolved against --workspace)\n\n" ++
  "Options:\n" ++
  "      --workspace <WORKSPACE>  Working directory for relative file paths [default: .]\n" ++
  "      --output <OUTPUT>        Output format [default: human] " ++
    "[possible values: human, human-verbose, json, machine]\n" ++
  "      --threshold <THRESHOLD>  Minimum severity threshold [default: warning] " ++
    "[possible values: error, warning]\n" ++
  "      --stdin                  " ++
    "Check the unsaved contents of a single file, read from stdin\n" ++
  "      --watch                  Watch mode\n" ++
  "      --preserveWatchOutput    Preserve watch output (don't clear screen)\n" ++
  "      --fail-on-warnings       Exit with error on warnings\n" ++
  "      --flow-bin <FLOW_BIN>    " ++
    "Path to the flow binary (defaults to node_modules/.bin/flow, then PATH)\n" ++
  "      --flow-version           Show flow version and binary path\n" ++
  "  -h, --help                   Print help (see more with '--help')\n" ++
  "  -V, --version                Print version\n"

/-- The full help. -/
def fullHelp : String :=
  helpHead ++
  "Arguments:\n" ++
  "  [FILES]...\n" ++
  "          Files to check (relative paths are resolved against --workspace)\n\n" ++
  "Options:\n" ++
  "      --workspace <WORKSPACE>\n" ++
  "          Working directory for relative file paths\n" ++
  "          \n" ++
  "          [default: .]\n\n" ++
  "      --output <OUTPUT>\n" ++
  "          Output format\n\n" ++
  "          Possible values:\n" ++
  "          - human:         Human-readable output (default)\n" ++
  "          - human-verbose: Human-readable with the offending source line\n" ++
  "          - json:          JSON output\n" ++
  "          - machine:       Machine-readable (one line per diagnostic)\n" ++
  "          \n" ++
  "          [default: human]\n\n" ++
  "      --threshold <THRESHOLD>\n" ++
  "          Minimum severity threshold\n\n" ++
  "          Possible values:\n" ++
  "          - error:   Only show errors\n" ++
  "          - warning: Show errors and warnings (default)\n" ++
  "          \n" ++
  "          [default: warning]\n\n" ++
  "      --stdin\n" ++
  "          Check the unsaved contents of a single file, read from stdin\n\n" ++
  "      --watch\n" ++
  "          Watch mode\n\n" ++
  "      --preserveWatchOutput\n" ++
  "          Preserve watch output (don't clear screen)\n\n" ++
  "      --fail-on-warnings\n" ++
  "          Exit with error on warnings\n\n" ++
  "      --flow-bin <FLOW_BIN>\n" ++
  "          Path to the flow binary (defaults to node_modules/.bin/flow, then PATH)\n\n" ++
  "      --flow-version\n" ++
  "          Show flow version and binary path\n\n" ++
  "  -h, --help\n" ++
  "          Print help (see a summary with '-h')\n\n" ++
  "  -V, --version\n" ++
  "          Print version\n"

/-- The name and version of the program. -/
def versionLine : String :=
  "flow-lint 0.1.0\n"

/-- What is wrong with a command line, and how to get help. -/
def usage (problem : String) : String :=
  "error: " ++ problem ++ "\n\nUsage: flow-lint [OPTIONS] [FILES]...\n\n" ++
    "For more information, try '--help'.\n"

end InlineCheck.Arguments
