import InlineCheck.Checker
import InlineCheck.Session
import InlineCheck.Settings

/-!
# A run

A run checks its files once, or the text on its standard input in place of its one file, and
shows what it found.  Files that are not checked because of their extension are passed over.

All checks are started before the first one ends.  They may end in any order, which the host
gives by the positions of their sessions; `Sessions.concludeAll` goes by that order.

`Run.render` shows all sessions in the order of the files.  Errors go to one text and all else
to another (`Screen`).
-/

namespace InlineCheck

/-! ## Checking -/

namespace Sessions

/-- The sessions of the files that are checked. -/
def ofFiles (files : List Path) : Sessions :=
  (files.filter Path.isCheckable).map Session.new

/-- Starts a check of the project for every session. -/
def refreshAll (sessions : Sessions) : Sessions :=
  sessions.map fun s => (s.mapScheduler Scheduler.refresh).1

/-- Ends the cycle of the session at a position and notes how. -/
def conclude (sessions : Sessions) (position : Nat) (ending : Ending) : Sessions :=
  match sessions.finish position ending with
  | (sessions, some outcome) => sessions.modify position fun s => s.record outcome
  | (sessions, none) => sessions

/-- Ends the cycles of the sessions at the given positions, in that order.  The endings are
those of the sessions by their positions. -/
def concludeAll (sessions : Sessions) (endings : List Ending) (order : List Nat) : Sessions :=
  order.foldl (fun sessions position =>
    match endings[position]? with
    | some ending => sessions.conclude position ending
    | none => sessions) sessions

/-- Checks every session once, with the given endings in the given order. -/
def checkAll (sessions : Sessions) (endings : List Ending) (order : List Nat) : Sessions :=
  sessions.refreshAll.concludeAll endings order

end Sessions

namespace Run

/-- How a check ends that the checker answered. -/
def endingOf (result : Except CheckError String) : Ending :=
  match result with
  | .ok output => .output output
  | .error e => .failed e

/-! ## Showing -/

/-- What a run printed. -/
structure Screen where
  out : String
  err : String
deriving DecidableEq, Repr

/-- The text of one, then the text of the other. -/
def Screen.append (a b : Screen) : Screen := ⟨a.out ++ b.out, a.err ++ b.err⟩

instance : Append Screen := ⟨Screen.append⟩

/-- The diagnostics of a session that are shown, with their lines. -/
def shown (settings : Settings) (s : Session) : List (Nat × Diagnostic) :=
  (s.scheduler.store.currentFor s.file).filter fun entry =>
    settings.threshold.admits entry.2.severity

/-- The line about a session that could not be checked. -/
def complaint (s : Session) : String :=
  match s.lastError with
  | some error => "Error: could not check " ++ s.file.text ++ ": " ++ error ++ "\n"
  | none => ""

/-- Counts a session. -/
def tally (settings : Settings) (summary : Summary) (s : Session) : Summary :=
  let unchecked := if s.lastError.isSome then summary.unchecked + 1 else summary.unchecked
  { summary with unchecked := unchecked }.record (shown settings s)

/-- Counts all sessions. -/
def summarize (settings : Settings) (sessions : Sessions) : Summary :=
  sessions.foldl (tally settings) ⟨sessions.length, 0, 0, 0, settings.failOnWarnings⟩

/-- What is printed about all sessions, each with the text of its file if that is known. -/
def output (settings : Settings) (sessions : List (Session × Option String)) : String :=
  let summary := summarize settings (sessions.map Prod.fst)
  let blocks := sessions.map fun (s, source) =>
    settings.output.render s.file source (shown settings s)
  match settings.output with
  | .json =>
    let objects := sessions.flatMap fun (s, _) =>
      (shown settings s).map (Format.jsonObject s.file)
    (Json.Value.array objects).pretty ++ "\n"
  | .machine => .join blocks
  | .human => .join blocks ++ summary.text ++ "\n"
  | .humanVerbose => .join blocks ++ summary.text ++ "\n"

/-- Shows all sessions, each with the text of its file if that is known. -/
def render (settings : Settings) (sessions : List (Session × Option String)) :
    Screen × Summary :=
  (⟨output settings sessions, .join (sessions.map fun (s, _) => complaint s)⟩,
    summarize settings (sessions.map Prod.fst))

/-! ## On a host -/

variable {m : Type → Type} [Monad m]

/-- How the check of every session ends. -/
def endingsOf (host : Host m) (checker : Checker) : Sessions → m (List Ending)
  | [] => return []
  | s :: rest => do
    let ending := endingOf (← checker.check host (.project s.file))
    return ending :: (← endingsOf host checker rest)

/-- The sessions with the texts of their files, as far as the format shows them. -/
def withSources (host : Host m) (settings : Settings) :
    Sessions → m (List (Session × Option String))
  | [] => return []
  | s :: rest => do
    let source ← if settings.output = .humanVerbose then host.readText? s.file else pure none
    return (s, source) :: (← withSources host settings rest)

/-- Checks every session once and shows what was found. -/
def once (host : Host m) (checker : Checker) (settings : Settings) (sessions : Sessions) :
    m (Screen × Summary) := do
  let endings ← endingsOf host checker sessions
  let checked := sessions.checkAll endings (← host.endOrder sessions.length)
  return render settings (← withSources host settings checked)

/-- Checks a text in place of the file of a session and shows what was found. -/
def buffer (host : Host m) (checker : Checker) (settings : Settings) (s : Session)
    (text : String) : m (Screen × Summary) := do
  let (s, _) := s.mapScheduler fun scheduler => scheduler.checkContents text
  let ending := endingOf (← checker.check host (.contents s.file text))
  return render settings ((Sessions.conclude [s] 0 ending).map fun s => (s, some text))

/-- The directories of the files, in ascending order and each once.  Of several spellings of a
directory the last one counts. -/
def directories (sessions : Sessions) : List Path :=
  sessions.filterMap (fun s => s.file.parent?) |>.foldl place []
where
  /-- Puts a directory where it belongs in ascending ones, in place of another spelling. -/
  place (dirs : List Path) (dir : Path) : List Path :=
    match dirs with
    | [] => [dir]
    | d :: rest =>
      match compare dir.components d.components with
      | .lt => dir :: d :: rest
      | .eq => dir :: rest
      | .gt => d :: place rest dir

/-- Starts watching directories, or tells why one of them cannot be watched. -/
def watchAll (host : Host m) : List Path → m (Except String Unit)
  | [] => return .ok ()
  | dir :: rest => do
    match ← host.watch dir with
    | .ok () => watchAll host rest
    | .error reason => return .error reason

/-- Checks every session once, shows what was found, and starts watching the files.  Without a
source of changes there is nothing more to do. -/
def watch (host : Host m) (checker : Checker) (settings : Settings) (sessions : Sessions) :
    m (Screen × Except RunError Summary) := do
  let (screen, _) ← once host checker settings sessions
  let screen := Screen.append ⟨"Starting watch mode...\n\n", ""⟩ screen
  match ← watchAll host (directories sessions) with
  | .error reason => return (screen, .error (.watchFailed reason))
  | .ok () =>
    return (screen ++ ⟨"Watching for changes... (Ctrl+C to stop)\n\n", ""⟩,
      .error (.watchFailed "watch channel closed unexpectedly"))

/-- Does what the settings say. -/
def run (host : Host m) (settings : Settings) : m (Screen × Except RunError Summary) := do
  let checker : Checker := ⟨settings.flowBin?⟩
  let sessions := Sessions.ofFiles settings.files
  match sessions with
  | [] => return (⟨"", ""⟩, .error .noFiles)
  | first :: _ =>
    if settings.stdin then
      match Text.decodeStrict (← host.input) with
      | .error fault => return (⟨"", ""⟩, .error (.stdinFailed fault.message))
      | .ok text =>
        let (screen, summary) ← buffer host checker settings first text
        return (screen, .ok summary)
    else if settings.watch then watch host checker settings sessions
    else
      let (screen, summary) ← once host checker settings sessions
      return (screen, .ok summary)

end Run

end InlineCheck
