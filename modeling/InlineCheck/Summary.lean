import InlineCheck.Diagnostic

/-!
# Summary of a run

A run counts the diagnostics it shows, and fails if there is an error among them, or a warning
if warnings count as failures.
-/

namespace InlineCheck

/-- The least severity that is shown. -/
inductive Threshold
  | error
  | warning
deriving DecidableEq, Repr, Inhabited

/-- Whether diagnostics of the severity are shown. -/
def Threshold.admits : Threshold → Severity → Bool
  | .error, severity => severity.isError
  | .warning, _ => true

/-- What a run counted. -/
structure Summary where
  /-- How many files the run was about. -/
  files : Nat
  /-- How many of them could not be checked. -/
  unchecked : Nat
  errors : Nat
  warnings : Nat
  /-- Whether a warning makes the run fail. -/
  failOnWarnings : Bool
deriving DecidableEq, Repr, Inhabited

namespace Summary

/-- Counts one diagnostic. -/
def count (s : Summary) (severity : Severity) : Summary :=
  match severity with
  | .error => { s with errors := s.errors + 1 }
  | .warning => { s with warnings := s.warnings + 1 }

/-- Counts diagnostics. -/
def record (s : Summary) (entries : List (Nat × Diagnostic)) : Summary :=
  entries.foldl (fun s entry => s.count entry.2.severity) s

/-- Whether the run failed. -/
def failed (s : Summary) : Bool :=
  0 < s.errors || (0 < s.warnings && s.failOnWarnings)

/-- A number with the noun it counts, which gets an `s` unless the number is one. -/
def counted (n : Nat) (noun : String) : String :=
  toString n ++ " " ++ noun ++ (if n = 1 then "" else "s")

/-- The lines that a run ends with. -/
def text (s : Summary) : String :=
  "====================================\nflow-lint found " ++ counted s.errors "error" ++
    " and " ++ counted s.warnings "warning" ++ " in " ++ counted s.files "file" ++
    (if 0 < s.unchecked then " (" ++ toString s.unchecked ++ " could not be checked)" else "")

end Summary

end InlineCheck
