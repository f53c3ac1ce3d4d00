import InlineCheck.CheckError
import InlineCheck.Index
import InlineCheck.Json.Reader
import InlineCheck.Text.Blank

/-!
# The checker's report

The checker prints one JSON document: a list of errors, each with a level and a list of
messages.  A message is kept as it came; it becomes a diagnostic if it says which line of
which file it is about.

* `Report.read` reads the document, `Report.index` makes an index of its messages.
* `parse` does both, and tells a blank output from one that cannot be read.
-/

namespace InlineCheck

/-- One error of a report, with its messages as they came. -/
structure Entry where
  level : Option String
  messages : List Json.Value

/-- What the checker found. -/
structure Report where
  entries : List Entry

namespace Entry

/-- The fields of an error. -/
def fields : Json.Fields :=
  [⟨"level", false, .optionalText⟩, ⟨"message", false, .list .any⟩]

/-- The shape of an error; both of its fields may be absent. -/
def shape : Json.Shape :=
  .record "struct FlowErrorEntry" fields

/-- The error that was read. -/
def ofValue (v : Json.Value) : Entry where
  level := (v.member? "level").bind Json.Value.text?
  messages :=
    match v.member? "message" with
    | some (.array messages) => messages
    | _ => []

/-- The severity of all messages of the error. -/
def severity (e : Entry) : Severity :=
  match e.level with
  | some level => .ofLevel level
  | none => .unstated

end Entry

/-! ## Messages -/

/-- One more than the greatest line a message can be about: `2 ^ 32`. -/
def lineLimit : Nat := 0x100000000

/-- The line that a message is about: a whole number from 1 to `2 ^ 32 - 1`. -/
def messageLine? (message : Json.Value) : Option Nat :=
  ((message.member? "line").bind Json.Value.natural?).filter fun n => 0 < n && n < lineLimit

/-- The file that a message is about: a text that is not empty. -/
def messagePath? (message : Json.Value) : Option Path :=
  (((message.member? "path").bind Json.Value.text?).filter fun text => !text.isEmpty).map
    Path.mk

/-- What a message tells people; nothing if it holds no such text. -/
def messageText (message : Json.Value) : String :=
  ((message.member? "descr").bind Json.Value.text?).getD ""

/-- The diagnostic of a message, unless it does not say what it is about. -/
def diagnostic? (severity : Severity) (message : Json.Value) : Option Diagnostic := do
  let line ← messageLine? message
  let path ← messagePath? message
  return ⟨path, line, severity, messageText message, message⟩

namespace Report

/-- The shape of a report. -/
def shape : Json.Shape :=
  .record "struct FlowOutput" [⟨"errors", true, .list Entry.shape⟩]

/-- The report that was read. -/
def ofValue (v : Json.Value) : Report where
  entries :=
    match v.member? "errors" with
    | some (.array errors) => errors.map Entry.ofValue
    | _ => []

/-- The report in a document. -/
def read (text : String) : Except Json.Fault Report :=
  (shape.read text.toList).map ofValue

/-- The diagnostics of a report, in its order. -/
def diagnostics (r : Report) : List Diagnostic :=
  r.entries.flatMap fun e => e.messages.filterMap (diagnostic? e.severity)

/-- The index of a report: of all messages about a line of a file, the first one counts. -/
def index (r : Report) : Index :=
  .ofList r.diagnostics

end Report

/-! ## Output -/

/-- The index of the checker's output. -/
def parse (output : String) : Except CheckError Index :=
  if Text.isBlankText output then .error .emptyOutput
  else
    match Report.read output with
    | .ok report => .ok report.index
    | .error fault => .error (.parseFailed (fault.message output.toList))

/-- The index of the checker's output, empty if there is none. -/
def parseOrEmpty (output : String) : Index :=
  match parse output with
  | .ok index => index
  | .error _ => .empty

end InlineCheck
