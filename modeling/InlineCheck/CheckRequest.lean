import InlineCheck.Path

/-!
# Requests to the checker

A check is asked for on behalf of one file.  It looks at the whole project as saved on disk,
or at a text in place of that file.
-/

namespace InlineCheck

/-- What the checker looks at. -/
inductive CheckMode
  /-- The project as saved on disk. -/
  | project
  /-- The given text in place of the file on disk. -/
  | contents (text : String)
deriving DecidableEq, Repr

/-- A request to check a file. -/
structure CheckRequest where
  file : Path
  mode : CheckMode
deriving DecidableEq, Repr

namespace CheckRequest

/-- A check of the project on behalf of the file. -/
def project (file : Path) : CheckRequest := ⟨file, .project⟩

/-- A check of a text in place of the file. -/
def contents (file : Path) (text : String) : CheckRequest := ⟨file, .contents text⟩

/-- The text that takes the file's place, if any. -/
def buffer? (r : CheckRequest) : Option String :=
  match r.mode with
  | .project => none
  | .contents text => some text

end CheckRequest

end InlineCheck
