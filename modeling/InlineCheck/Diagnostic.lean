import InlineCheck.Json.Value
import InlineCheck.Path

/-!
# Diagnostics

A diagnostic is one finding of the checker: the file and line it is about, how severe it is,
a text for people and the checker's own message, kept as it came.

Diagnostics are ordered by file, as paths are, and then by line (`Diagnostic.order`).
-/

namespace InlineCheck

/-- How severe a finding is. -/
inductive Severity
  | warning
  | error
deriving DecidableEq, Repr, Inhabited

namespace Severity

instance : Ord Severity :=
  ⟨fun a b => compare a.ctorIdx b.ctorIdx⟩

/-- The severity of findings whose level is not given. -/
def unstated : Severity := .error

/-- The severity that a level stands for.  Every level but `warning`, in any case of its
letters, is an error. -/
def ofLevel (level : String) : Severity :=
  if level.map Char.toLower = "warning" then .warning else .error

/-- Whether the finding is an error. -/
def isError (s : Severity) : Bool :=
  s == .error

/-- The name in lower case. -/
def name : Severity → String
  | .error => "error"
  | .warning => "warning"

/-- The name that stands in front of a message. -/
def label : Severity → String
  | .error => "Error"
  | .warning => "Warning"

/-- The name in capitals. -/
def capitals : Severity → String
  | .error => "ERROR"
  | .warning => "WARNING"

end Severity

/-- One finding of the checker. -/
structure Diagnostic where
  path : Path
  line : Nat
  severity : Severity
  /-- What people are told. -/
  text : String
  /-- The checker's own message. -/
  payload : Json.Value
deriving Inhabited

namespace Diagnostic

/-- Whether two diagnostics are equal, paths compared by their components. -/
def same (d e : Diagnostic) : Bool :=
  d.path.same e.path && d.line == e.line && d.severity == e.severity && d.text == e.text &&
    d.payload == e.payload

/-- The file and the line that a diagnostic takes. -/
def site (d : Diagnostic) : List Component × Nat :=
  (d.path.components, d.line)

/-- Compares the sites of two diagnostics, by file and then by line. -/
def order : Diagnostic → Diagnostic → Ordering :=
  compareLex (compareOn fun d => d.path.components) (compareOn fun d => d.line)

instance : Std.TransCmp order :=
  inferInstanceAs (Std.TransCmp (compareLex (compareOn fun d : Diagnostic => d.path.components)
    (compareOn fun d : Diagnostic => d.line)))

theorem order_eq_iff {d e : Diagnostic} : order d e = .eq ↔ d.site = e.site := by
  simp [order, compareLex, compareOn, site, Ordering.then_eq_eq]

end Diagnostic

end InlineCheck
