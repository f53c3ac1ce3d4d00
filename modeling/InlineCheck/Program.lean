import InlineCheck.Arguments.Help
import InlineCheck.ErrorDisplay
import InlineCheck.Run

/-!
# The program

What the program prints and the exit code it ends with, for a command line.  A command line
that cannot be read ends with code 2, and a failed run or an error with code 1.
-/

namespace InlineCheck

/-- How the program ended. -/
structure Finished where
  code : Nat
  screen : Run.Screen
deriving DecidableEq, Repr

namespace Program

/-- Ends with a text on the output. -/
def printed (out : String) : Finished := ⟨0, ⟨out, ""⟩⟩

/-- Ends with an error. -/
def failed (message : String) : Finished := ⟨1, ⟨"", "Error: " ++ message ++ "\n"⟩⟩

/-- Ends where the command line stops. -/
def stopped : Arguments.Stop → Finished
  | .help true => printed Arguments.fullHelp
  | .help false => printed Arguments.overview
  | .version => printed Arguments.versionLine
  | .unknownArgument => ⟨2, ⟨"", Arguments.usage "unexpected argument found"⟩⟩
  | .invalidValue => ⟨2, ⟨"", Arguments.usage "invalid value for an option"⟩⟩
  | .argumentConflict =>
    ⟨2, ⟨"", Arguments.usage "an argument cannot be used with one of the other arguments"⟩⟩
  | .tooManyValues => ⟨2, ⟨"", Arguments.usage "unexpected value for an option"⟩⟩

variable {m : Type → Type} [Monad m]

/-- The display of errors that the environment asks for. -/
def errorDisplay (host : Host m) : m ErrorDisplay := do
  let noPictures? ← host.environment? ErrorDisplay.noPicturesVariable
  let level? ← host.environment? ErrorDisplay.colorLevelVariable
  let color? ← host.environment? ErrorDisplay.colorVariable
  return .ofVariables noPictures? level? color?

/-- Ends with an error in the settings. -/
def refused (host : Host m) (e : RunError) : m Finished := do
  return ⟨1, ⟨"", (← errorDisplay host).render e.message⟩⟩

/-- Tells the version of the checker. -/
def checkerVersion (host : Host m) (settings : Settings) : m Finished := do
  match ← Checker.version host ⟨settings.flowBin?⟩ settings.workspace with
  | .ok (version, path) => return printed ("flow " ++ version ++ "\npath: " ++ path.text ++ "\n")
  | .error e => return failed e.message

/-- Runs with the given settings. -/
def runWith (host : Host m) (settings : Settings) : m Finished := do
  let (screen, result) ← Run.run host settings
  match result with
  | .ok summary => return ⟨if summary.failed then 1 else 0, screen⟩
  | .error e => return ⟨1, screen ++ (failed e.message).screen⟩

/-- Runs the program with a command line, without the name of the program. -/
def start (host : Host m) (texts : List String) : m Finished := do
  match Arguments.parse texts with
  | .error stop => return stopped stop
  | .ok args =>
    match ← Settings.ofArguments host args with
    | .error e => refused host e
    | .ok settings =>
      if args.flowVersion then checkerVersion host settings else runWith host settings

end Program

end InlineCheck
