import InlineCheck.CheckRequest
import InlineCheck.Json.Reader
import InlineCheck.ProjectRoot
import InlineCheck.SearchPath
import InlineCheck.Text.Blank
import InlineCheck.Text.Utf8

/-!
# Running the checker

The checker is a program.  It may be named; if not, it is the one installed in the project, or
else the first one on the search path.

The checker ends with an exit code other than zero when it finds errors, so the code only
counts if it printed nothing: `Checker.run` takes any output that is not blank.
-/

namespace InlineCheck

/-- The checker of a run. -/
structure Checker where
  /-- The program, if it is named. -/
  program? : Option Path
deriving DecidableEq, Repr

namespace Checker

variable {m : Type → Type} [Monad m]

/-! ## Finding the checker -/

/-- The file name of the checker. -/
def fileName : Path := ⟨"flow"⟩

/-- Where a project has its own checker. -/
def installedIn (root : Path) : Path :=
  (root.join ⟨"node_modules/.bin"⟩).join fileName

/-- The checker in the first of the directories that has one. -/
def firstIn? (host : Host m) : List Path → m (Option Path)
  | [] => return none
  | dir :: rest => do
    if ← host.isProgram (dir.join fileName) then return some (dir.join fileName)
    firstIn? host rest

/-- The checker on the search path. -/
def onSearchPath? (host : Host m) : m (Option Path) := do
  firstIn? host (← SearchPath.directories host)

/-- The checker of a project, or of no project. -/
def find? (host : Host m) (root? : Option Path) : m (Option Path) := do
  match root? with
  | none => onSearchPath? host
  | some root =>
    if ← host.isFile (installedIn root) then return some (installedIn root)
    onSearchPath? host

/-- The program to start for a project. -/
def resolve (host : Host m) (checker : Checker) (root : Path) : m (Except CheckError Path) := do
  match checker.program? with
  | some program => return .ok program
  | none =>
    match ← find? host (some root) with
    | some program => return .ok program
    | none => return .error (.notFound root)

/-! ## Checks -/

/-- The arguments of a check. -/
def arguments (request : CheckRequest) : List String :=
  match request.mode with
  | .project => ["--json"]
  | .contents _ => ["check-contents", request.file.text, "--json"]

/-- What the checker reads in a check: the text that takes the file's place. -/
def input (request : CheckRequest) : List UInt8 :=
  match request.mode with
  | .project => []
  | .contents text => Text.encode text

/-- What a check printed, or how it failed. -/
def outputOf (exit : Exit) : Except CheckError String :=
  let out := Text.decodeLossy exit.out
  if !Text.isBlankText out then .ok out
  else if exit.code = some 0 then .error .emptyOutput
  else
    let code : Int := match exit.code with
      | some n => n
      | none => -1
    .error (.processFailed code (Text.trim (Text.decodeLossy exit.err)))

/-- Checks in a project and gives what the checker printed. -/
def run (host : Host m) (checker : Checker) (root : Path) (request : CheckRequest) :
    m (Except CheckError String) := do
  match ← checker.resolve host root with
  | .error e => return .error e
  | .ok program =>
    match ← host.launch ⟨program, arguments request, root, input request⟩ with
    | .error reason => return .error (.spawnFailed reason)
    | .ok exit => return outputOf exit

/-- What the checker printed, or nothing if the check failed. -/
def invoke (host : Host m) (checker : Checker) (root : Path) (request : CheckRequest) :
    m String := do
  match ← checker.run host root request with
  | .ok output => return output
  | .error _ => return ""

/-- Checks in the project of the file and gives what the checker printed. -/
def check (host : Host m) (checker : Checker) (request : CheckRequest) :
    m (Except CheckError String) := do
  match ← ProjectRoot.locate host request.file with
  | .error e => return .error e
  | .ok root => checker.run host root request

/-! ## The version -/

/-- The version in what the checker printed: a member of a JSON object, or else the whole text
without the blanks around it. -/
def versionIn (out : String) : String :=
  match Json.Value.read out with
  | .ok v => ((v.member? "semver").bind Json.Value.text?).getD (Text.trim out)
  | .error _ => Text.trim out

/-- The version that a run of the checker tells. -/
def versionOf (exit : Exit) : Except CheckError String :=
  match exit.code with
  | some 0 => .ok (versionIn (Text.decodeLossy exit.out))
  | some code => .error (.processFailed code (Text.decodeLossy exit.err))
  | none => .error (.processFailed (-1) (Text.decodeLossy exit.err))

/-- The version of the checker of a project, and where it is.  The checker can read the standard
input of the program that asks. -/
def version (host : Host m) (checker : Checker) (root : Path) :
    m (Except CheckError (String × Path)) := do
  match ← checker.resolve host root with
  | .error e => return .error e
  | .ok program =>
    match ← host.launch ⟨program, ["version", "--json"], root, ← host.input⟩ with
    | .error reason => return .error (.spawnFailed reason)
    | .ok exit => return (versionOf exit).map fun version => (version, program)

end Checker

end InlineCheck
