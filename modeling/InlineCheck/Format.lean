import InlineCheck.Diagnostic
import InlineCheck.Json.Printer
import InlineCheck.Text.Lines

/-!
# Output formats

The diagnostics of one file are shown in one of four formats.

* *Human* has a block for each diagnostic: file and line, severity and text, a blank line.
* *Verbose* adds the line of the source that the diagnostic is about, if the source has it.
* *JSON* is one array of objects.
* *Machine* has one line for each diagnostic; a line feed in its text becomes a space.

Every diagnostic comes with the line under which it is shown.
-/

namespace InlineCheck

/-- How diagnostics are shown. -/
inductive Format
  | human
  | humanVerbose
  | json
  | machine
deriving DecidableEq, Repr, Inhabited

namespace Format

/-- The head of a human-readable block: file and line, severity and text. -/
def humanHead (file : Path) (line : Nat) (d : Diagnostic) : String :=
  file.text ++ ":" ++ toString line ++ "\n" ++ d.severity.label ++ ": " ++ d.text ++ "\n"

/-- A human-readable block. -/
def humanBlock (file : Path) (entry : Nat × Diagnostic) : String :=
  humanHead file entry.1 entry.2 ++ "\n"

/-- The line of a source, counted from 1. -/
def sourceLine? (lines : List String) : Nat → Option String
  | 0 => none
  | n + 1 => lines[n]?

/-- The source line as a verbose block shows it, if there is one. -/
def snippet (lines : List String) (line : Nat) : String :=
  match sourceLine? lines line with
  | some text => "  " ++ toString line ++ " | " ++ text ++ "\n"
  | none => ""

/-- A human-readable block with its source line. -/
def verboseBlock (file : Path) (lines : List String) (entry : Nat × Diagnostic) : String :=
  humanHead file entry.1 entry.2 ++ snippet lines entry.1 ++ "\n"

/-- A text with a space for every line feed. -/
def flatten (text : String) : String :=
  text.map fun c => if c = '\n' then ' ' else c

/-- A line for machines. -/
def machineLine (file : Path) (entry : Nat × Diagnostic) : String :=
  entry.2.severity.capitals ++ " " ++ file.text ++ ":" ++ toString entry.1 ++ " " ++
    flatten entry.2.text ++ "\n"

/-- The JSON object of a diagnostic. -/
def jsonObject (file : Path) (entry : Nat × Diagnostic) : Json.Value :=
  .object [("type", .string entry.2.severity.label), ("filename", .string file.text),
    ("line", .number (.whole entry.1)), ("message", .string entry.2.text),
    ("source", .string "flow"), ("raw", entry.2.payload)]

/-- Shows the diagnostics of a file; `source` is its text, if that is known. -/
def render (format : Format) (file : Path) (source : Option String)
    (entries : List (Nat × Diagnostic)) : String :=
  match format with
  | .human => .join (entries.map (humanBlock file))
  | .humanVerbose => .join (entries.map (verboseBlock file (Text.lines (source.getD ""))))
  | .json => (Json.Value.array (entries.map (jsonObject file))).pretty
  | .machine => .join (entries.map (machineLine file))

end Format

end InlineCheck
