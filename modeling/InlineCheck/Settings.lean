import InlineCheck.Arguments
import InlineCheck.Host

/-!
# Settings of a run

The settings are the arguments with every path made absolute, links resolved where the path
leads to something, and with what the environment adds: a checker if the arguments name none,
and whether warnings count as failures.
-/

namespace InlineCheck

/-- Why a run ends without a result. -/
inductive RunError
  | invalidPath (reason : String)
  | stdinNeedsOneFile (given : Nat)
  | stdinFailed (reason : String)
  | noFiles
  | watchFailed (reason : String)
deriving DecidableEq, Repr

/-- The wording of the error. -/
def RunError.message : RunError → String
  | invalidPath reason => "invalid path: " ++ reason
  | stdinNeedsOneFile given => "--stdin needs exactly one file, got " ++ toString given
  | stdinFailed reason => "failed to read stdin: " ++ reason
  | noFiles => "no JavaScript files to check"
  | watchFailed reason => "watch error: " ++ reason

/-- What a run does. -/
structure Settings where
  /-- The absolute directory that files are seen from. -/
  workspace : Path
  /-- The absolute paths of the files. -/
  files : List Path
  output : Format
  threshold : Threshold
  stdin : Bool
  watch : Bool
  preserveWatchOutput : Bool
  failOnWarnings : Bool
  /-- The checker, if it is named. -/
  flowBin? : Option Path
deriving DecidableEq, Repr

namespace Settings

variable {m : Type → Type} [Monad m]

/-- The environment variable that names the checker. -/
def flowBinVariable : String := "FLOW_LINT_BIN"

/-- The environment variable that makes warnings count as failures. -/
def failOnWarningsVariable : String := "FLOW_LINT_FAIL_ON_WARNINGS"

/-- Whether the value of a variable means yes; the case of ASCII letters does not matter. -/
def means (value : String) : Bool :=
  ["1", "true", "yes", "on"].contains (value.map Char.toLower)

/-- The workspace, seen from the directory the program works in. -/
def workspaceOf (host : Host m) (workspace : Path) : m (Except RunError Path) := do
  if workspace.isAbsolute then return .ok (← host.normalize workspace)
  match ← host.currentDir with
  | .ok dir => return .ok (← host.normalize (dir.join workspace))
  | .error reason => return .error (.invalidPath reason)

/-- The files seen from the workspace. -/
def filesOf (host : Host m) (workspace : Path) : List String → m (List Path)
  | [] => return []
  | file :: rest => do
    let file ← host.normalize (workspace.join ⟨file⟩)
    return file :: (← filesOf host workspace rest)

/-- The checker that is named, in the arguments or else in the environment. -/
def flowBinOf (host : Host m) (args : Arguments) : m (Option Path) := do
  match args.flowBin? with
  | some text => return some ⟨text⟩
  | none =>
    match ← host.environment? flowBinVariable with
    | some text => return if text.isEmpty then none else some ⟨text⟩
    | none => return none

/-- The settings of a command line. -/
def ofArguments (host : Host m) (args : Arguments) : m (Except RunError Settings) := do
  match ← workspaceOf host ⟨args.workspace⟩ with
  | .error e => return .error e
  | .ok workspace =>
    if args.stdin && args.files.length != 1 then
      return .error (.stdinNeedsOneFile args.files.length)
    let files ← filesOf host workspace args.files
    let flowBin? ← flowBinOf host args
    let wanted ← host.environment? failOnWarningsVariable
    return .ok {
      workspace := workspace
      files := files
      output := args.output
      threshold := args.threshold
      stdin := args.stdin
      watch := args.watch
      preserveWatchOutput := args.preserveWatchOutput
      failOnWarnings := args.failOnWarnings || wanted.any means
      flowBin? := flowBin? }

end Settings

end InlineCheck
