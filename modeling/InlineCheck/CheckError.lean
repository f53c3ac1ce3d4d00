import InlineCheck.Path

/-!
# What can go wrong with a check

A check fails because the checker cannot be found or started, because it fails or prints
nothing, because its report cannot be read, because no project holds the file, or because the
task that runs the check dies.
-/

namespace InlineCheck

/-- Why a check failed. -/
inductive CheckError
  /-- The checker could not be started. -/
  | spawnFailed (reason : String)
  /-- The checker printed nothing and ended with an exit code other than zero. -/
  | processFailed (code : Int) (stderr : String)
  /-- The checker printed nothing. -/
  | emptyOutput
  /-- There is no checker for the project. -/
  | notFound (root : Path)
  /-- The file belongs to no project. -/
  | rootNotFound (file : Path)
  /-- The checker's report could not be read. -/
  | parseFailed (reason : String)
  /-- The task that ran the check died. -/
  | taskFailed (reason : String)
deriving DecidableEq, Repr

namespace CheckError

/-- The wording of the error. -/
def message : CheckError → String
  | spawnFailed reason => "failed to spawn flow: " ++ reason
  | processFailed code stderr => "flow exited with code " ++ toString code ++ ": " ++ stderr
  | emptyOutput => "flow produced no output"
  | notFound root =>
    "flow binary not found (looked in " ++ root.text ++ "/node_modules/.bin and PATH)"
  | rootNotFound file => "no .flowconfig found above " ++ file.text
  | parseFailed reason => "failed to parse flow output: " ++ reason
  | taskFailed reason => "refresh task failed: " ++ reason

end CheckError

end InlineCheck
