import InlineCheck.Scheduler

/-!
# Sessions

A session is one file that a run checks: its scheduler, and the error of its last cycle if
that failed.  While a run watches its files, a change on disk is a save, and a cycle that a
change overtook is followed by a clean layout, which checks the stale document again.  A
cycle that failed is not repeated.
-/

namespace InlineCheck

/-- One file that a run checks. -/
structure Session where
  scheduler : Scheduler
  /-- The error of the last cycle, if it failed. -/
  lastError : Option String
deriving Inhabited

namespace Session

/-- The session of a file that was never checked. -/
def new (file : Path) : Session := ⟨.new file, none⟩

/-- The file that is checked. -/
def file (s : Session) : Path :=
  s.scheduler.file

/-- Notes how a cycle ended. -/
def record (s : Session) (outcome : Outcome) : Session :=
  match outcome with
  | .applied .. => { s with lastError := none }
  | .failed error => { s with lastError := some error.message }

/-- Passes on what the scheduler does. -/
def mapScheduler {α : Type} (s : Session) (f : Scheduler → Scheduler × α) : Session × α :=
  let (scheduler, a) := f s.scheduler
  ({ s with scheduler := scheduler }, a)

/-- Handles a save, and gives the cycle it starts. -/
def saved (s : Session) : Session × Option Cycle :=
  s.mapScheduler fun scheduler => scheduler.signal .saved

/-- Handles the outcome of a cycle, and gives the cycle that follows it up. -/
def handle (s : Session) (outcome : Outcome) : Session × Option Cycle :=
  let s := s.record outcome
  match outcome with
  | .applied _ false => s.mapScheduler fun scheduler => scheduler.signal (.layoutChanged false)
  | _ => (s, none)

end Session

/-! ## All sessions of a run -/

/-- The sessions of a run, in the order of its files. -/
abbrev Sessions := List Session

namespace Sessions

/-- Saves the sessions whose files changed, one mark for each session.  The result pairs each
session with the cycle it started. -/
def change (sessions : Sessions) (marks : List Bool) : List (Session × Option Cycle) :=
  (sessions.zip marks).map fun (s, changed) => if changed then s.saved else (s, none)

/-- Does something with the session at a position; nothing happens if there is none. -/
def update {α : Type} (sessions : Sessions) (position : Nat)
    (f : Session → Session × Option α) : Sessions × Option α :=
  match sessions[position]? with
  | none => (sessions, none)
  | some s => (sessions.set position (f s).1, (f s).2)

/-- Handles the outcome of a cycle of the session at a position, and gives the cycle that
follows it up. -/
def handle (sessions : Sessions) (position : Nat) (outcome : Outcome) :
    Sessions × Option Cycle :=
  sessions.update position fun s => s.handle outcome

/-- Ends the oldest cycle in flight of the session at a position. -/
def finish (sessions : Sessions) (position : Nat) (ending : Ending) :
    Sessions × Option Outcome :=
  sessions.update position fun s => s.mapScheduler fun scheduler => scheduler.finish ending

end Sessions

end InlineCheck
