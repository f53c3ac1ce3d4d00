import InlineCheck.Host
import InlineCheck.Session

/-!
# Reported changes

A watcher reports the paths that changed.  A session is concerned if one of them is its file,
possibly under another name; several reported paths of one session count once.
-/

namespace InlineCheck.Watch

variable {m : Type → Type} [Monad m]

/-- Whether one of the reported paths is the file. -/
def concerns (host : Host m) (file : Path) : List Path → m Bool
  | [] => return false
  | reported :: rest => do
    if ← host.sameFile reported file then return true
    concerns host file rest

/-- A mark for each session, whether its file is among the reported paths. -/
def marks (host : Host m) (reported : List Path) : Sessions → m (List Bool)
  | [] => return []
  | s :: rest => do
    let mark ← concerns host s.file reported
    return mark :: (← marks host reported rest)

/-- Saves the sessions whose files are among the reported paths. -/
def change (host : Host m) (sessions : Sessions) (reported : List Path) :
    m (List (Session × Option Cycle)) := do
  return sessions.change (← marks host reported sessions)

end InlineCheck.Watch
