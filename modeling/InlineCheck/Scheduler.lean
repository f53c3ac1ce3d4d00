import InlineCheck.CheckRequest
import InlineCheck.Report
import InlineCheck.Store

/-!
# Refreshing one document

A scheduler decides when the diagnostics of an open document are refreshed.  A refresh is a
*cycle*: a check is started, its report is read and the index is put into the store.  At most
one cycle runs at a time.  What would start another one while it runs is dropped; it only
leaves the store stale.

A cycle ends in two steps, and events may come between them.

* `Scheduler.settle` takes the result of the oldest check in flight and updates the store.
* `Scheduler.release` lets the next cycle start and gives the outcome away.

`Scheduler.finish` is both steps at once.
-/

namespace InlineCheck

/-- What an editor tells about a document. -/
inductive Signal
  /-- Its text differs from the file on disk now. -/
  | edited
  /-- It was written to disk. -/
  | saved
  /-- It was read from disk again. -/
  | reloaded
  /-- It was laid out again; `dirty` says whether its text differs from the file. -/
  | layoutChanged (dirty : Bool)
deriving DecidableEq, Repr

/-- How a check ended. -/
inductive Ending
  /-- The checker printed a text. -/
  | output (text : String)
  | failed (error : CheckError)
  /-- The task that ran the check died, with a text that tells why. -/
  | died (reason : String)
deriving DecidableEq, Repr

/-- The result of a cycle. -/
inductive Outcome
  /-- An index with so many lines was put into the store; `fresh` says whether it is up to
  date. -/
  | applied (diagnostics : Nat) (fresh : Bool)
  /-- The store kept its index. -/
  | failed (error : CheckError)
deriving DecidableEq, Repr

/-- Whether an index was put into the store. -/
def Outcome.isApplied : Outcome → Bool
  | .applied .. => true
  | .failed _ => false

/-- A refresh whose check is in flight. -/
structure Cycle where
  request : CheckRequest
  /-- The epoch of the store when the check was started. -/
  began : Epoch
deriving DecidableEq, Repr

/-- The index that a check yields. -/
def Ending.index : Ending → Except CheckError Index
  | .output text => parse text
  | .failed error => .error error
  | .died reason => .error (.taskFailed reason)

/-- The store at the end of a cycle, and the outcome. -/
def Cycle.conclude (c : Cycle) (store : Store) (ending : Ending) : Store × Outcome :=
  match ending.index with
  | .ok index =>
    let (store, fresh) := store.apply index c.began
    (store, .applied index.size fresh)
  | .error error => (store, .failed error)

/-- The refreshing of one document. -/
structure Scheduler where
  file : Path
  store : Store
  /-- Whether the next cycle has to wait. -/
  running : Bool
  /-- The cycles whose checks are in flight, the oldest first. -/
  inFlight : List Cycle
  /-- The outcomes of cycles that the store knows but that hold up the next cycle still. -/
  settled : List Outcome
deriving Inhabited

namespace Scheduler

/-- The scheduler of a document that was never checked. -/
def new (file : Path) : Scheduler := ⟨file, .new, false, [], []⟩

/-! ## Starting cycles -/

/-- Starts a cycle, unless the file is not one that is checked or a cycle is running. -/
def trigger (s : Scheduler) (mode : CheckMode) : Scheduler × Option Cycle :=
  if s.file.isCheckable && !s.running then
    let cycle : Cycle := ⟨⟨s.file, mode⟩, s.store.epoch⟩
    ({ s with running := true, inFlight := s.inFlight ++ [cycle] }, some cycle)
  else (s, none)

/-- The scheduler after a change to its store. -/
def mapStore (s : Scheduler) (f : Store → Store) : Scheduler :=
  { s with store := f s.store }

/-- Handles a signal, and gives the cycle it starts.

A change makes the store stale and hides its diagnostics; if the change is on disk, a cycle is
due.  Laying out a dirty document hides the diagnostics, and laying out a clean one starts a
cycle if the store is stale. -/
def signal (s : Scheduler) : Signal → Scheduler × Option Cycle
  | .edited => (s.mapStore fun store => store.markStale.clearVisible, none)
  | .saved => (s.mapStore fun store => store.markStale.clearVisible).trigger .project
  | .reloaded => (s.mapStore fun store => store.markStale.clearVisible).trigger .project
  | .layoutChanged true => (s.mapStore Store.clearVisible, none)
  | .layoutChanged false => if s.store.stale then s.trigger .project else (s, none)

/-- Starts a check of the project. -/
def refresh (s : Scheduler) : Scheduler × Option Cycle :=
  s.trigger .project

/-- Starts a check of the text that the document holds now. -/
def checkContents (s : Scheduler) (text : String) : Scheduler × Option Cycle :=
  (s.mapStore Store.markStale).trigger (.contents text)

/-! ## Ending cycles -/

/-- Takes the result of the oldest check in flight and updates the store. -/
def settle (s : Scheduler) (ending : Ending) : Scheduler :=
  match s.inFlight with
  | [] => s
  | cycle :: rest =>
    let (store, outcome) := cycle.conclude s.store ending
    { s with store := store, inFlight := rest, settled := s.settled ++ [outcome] }

/-- Lets the next cycle start and gives away the oldest outcome. -/
def release (s : Scheduler) : Scheduler × Option Outcome :=
  match s.settled with
  | [] => (s, none)
  | outcome :: rest => ({ s with running := false, settled := rest }, some outcome)

/-- Ends the oldest cycle in flight. -/
def finish (s : Scheduler) (ending : Ending) : Scheduler × Option Outcome :=
  (s.settle ending).release

end Scheduler

end InlineCheck
