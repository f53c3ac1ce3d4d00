import InlineCheck.Proofs.Run.CheckAll
import InlineCheck.Proofs.Scheduler.Freshness

/-!
# A watched session

While a run watches its files, three things happen to a session, in any order: its file
changes, its cycles end, and the outcomes of its cycles are handled.  A `Seat` is a session with
a log of what happened to it, and with the outcomes that still wait to be handled.

The end of a cycle is cut in two (`settle` and `release`), so that a change may come in between.
Such a change is counted in `late`.  `finish` is both parts at once.

* `change_eq` and `handle_cases` cut a change and the handling of an outcome into what is done
  first and the check that is asked for then, and `ask_cases` says whether one starts.
* `settle_of_cons` says what the end of a check does.
* `session_opened` says that the first check is that of a run, and `opened_cases` how the session
  looks like after it.

The scheduler of a session has a `history` in the sense of `Scheduler.History`, so what is known
for all runs of a scheduler holds for sessions, too.
-/

namespace InlineCheck

/-- The check that follows up an outcome, if any: a cycle that a change overtook is repeated if
the store is stale still. -/
def Outcome.followUp? (store : Store) : Outcome → Option CheckMode
  | .applied _ false => if store.stale then some .project else none
  | _ => none

theorem Outcome.stale_of_followUp? {outcome : Outcome} {store : Store} {mode : CheckMode}
    (hsome : outcome.followUp? store = some mode) : store.stale = true := by
  cases outcome with
  | failed error => cases hsome
  | applied diagnostics fresh =>
    cases fresh with
    | true => cases hsome
    | false =>
      rw [followUp?] at hsome
      split at hsome
      · assumption
      · cases hsome

def Outcome.error? : Outcome → Option String
  | .applied .. => none
  | .failed error => some error.message

namespace Session

theorem record_scheduler (s : Session) (outcome : Outcome) :
    (s.record outcome).scheduler = s.scheduler := by
  cases outcome <;> rfl

/-- Handling an outcome notes its error and may ask for a check that follows it up. -/
theorem handle_eq (s : Session) (outcome : Outcome) :
    s.handle outcome =
      (⟨(s.scheduler.ask (outcome.followUp? s.scheduler.store)).1, outcome.error?⟩,
        (s.scheduler.ask (outcome.followUp? s.scheduler.store)).2) := by
  cases outcome with
  | failed error => rfl
  | applied diagnostics fresh =>
    cases fresh with
    | true => rfl
    | false =>
      show (Session.mk (s.scheduler.call (.signal (.layoutChanged false))).1 none,
        (s.scheduler.call (.signal (.layoutChanged false))).2) = _
      rw [s.scheduler.call_eq]
      rfl

end Session

namespace Watch

/-- What can happen to a session in one step. -/
inductive Step
  | change
  /-- The oldest check in flight ends.  Its cycle holds up the next one still. -/
  | settle (ending : Ending)
  /-- The cycle whose check has ended is over. -/
  | release
  /-- The oldest check in flight ends, and with it its cycle. -/
  | finish (ending : Ending)
  /-- One of the outcomes that wait is handled, given by its place among them. -/
  | handle (number : Nat)

namespace Step

/-- Whether a check that ends in this step ends its cycle, too. -/
def isWhole : Step → Bool
  | settle _ => false
  | release => false
  | _ => true

/-- Whether an outcome that is handled in this step is the oldest one. -/
def isInOrder : Step → Bool
  | handle number => number == 0
  | _ => true

def succeeds : Step → Bool
  | settle ending => ending.index.isOk
  | finish ending => ending.index.isOk
  | _ => true

end Step

open Scheduler (Call Log History Moment)

/-- A session with a log of what happened to it. -/
structure Seat extends Log where
  session : Session
  /-- The outcomes that were not handled yet, the oldest first. -/
  waiting : List Outcome
  /-- How many changes came after the last check had ended and before its cycle was over. -/
  late : Nat

namespace Seat

variable {x : Seat}

def history (x : Seat) : History := ⟨x.toLog, x.session.scheduler⟩

def store (x : Seat) : Store := x.session.scheduler.store

/-- No cycle is under way, and no outcome waits to be handled. -/
def Quiet (x : Seat) : Prop :=
  x.session.scheduler.underway = 0 ∧ x.waiting = []

theorem Quiet.inFlight (hquiet : x.Quiet) : x.session.scheduler.inFlight = [] := by
  have hunderway := hquiet.1
  rw [Scheduler.underway] at hunderway
  exact List.eq_nil_of_length_eq_zero (by omega)

theorem Quiet.settled (hquiet : x.Quiet) : x.session.scheduler.settled = [] := by
  have hunderway := hquiet.1
  rw [Scheduler.underway] at hunderway
  exact List.eq_nil_of_length_eq_zero (by omega)

/-! ## What happens to a session -/

def new (file : Path) : Seat := ⟨.empty, .new file, [], 0⟩

def change (x : Seat) : Seat where
  toLog := (x.toLog.receive (.signal .saved)).start x.session.saved.2
  session := x.session.saved.1
  waiting := x.waiting
  late := if x.session.scheduler.settled.isEmpty then x.late else x.late + 1

def settle (x : Seat) (ending : Ending) : Seat where
  toLog := x.toLog.settle x.session.scheduler ending
  session := { x.session with scheduler := x.session.scheduler.settle ending }
  waiting := x.waiting
  late := if x.session.scheduler.inFlight.isEmpty then x.late else 0

/-- The cycle whose check has ended is over, and its outcome waits to be handled. -/
def release (x : Seat) : Seat :=
  { x with
    session := { x.session with scheduler := x.session.scheduler.release.1 }
    waiting := x.waiting ++ x.session.scheduler.release.2.toList }

def finish (x : Seat) (ending : Ending) : Seat :=
  (x.settle ending).release

def handle (x : Seat) (number : Nat) : Seat :=
  match x.waiting[number]? with
  | none => x
  | some outcome =>
    { x with
      toLog := x.toLog.start (x.session.handle outcome).2
      session := (x.session.handle outcome).1
      waiting := x.waiting.eraseIdx number }

def step (x : Seat) : Step → Seat
  | .change => x.change
  | .settle ending => x.settle ending
  | .release => x.release
  | .finish ending => x.finish ending
  | .handle number => x.handle number

def refresh (x : Seat) : Seat :=
  { x with
    toLog := x.toLog.start x.session.scheduler.refresh.2
    session := { x.session with scheduler := x.session.scheduler.refresh.1 } }

/-- The oldest outcome is noted, and nothing follows it up. -/
def note (x : Seat) : Seat :=
  match x.waiting with
  | [] => x
  | outcome :: rest => { x with session := x.session.record outcome, waiting := rest }

/-- A session after its first check. -/
def opened (file : Path) (ending : Ending) : Seat :=
  ((new file).refresh.finish ending).note

theorem session_opened (file : Path) (ending : Ending) :
    (opened file ending).session = (Session.new file).checked ending := by
  show _ = Session.conclude (new file).refresh.session ending
  rw [Session.conclude]
  show (note ⟨_, ((new file).refresh.session.finish ending).1,
    ((new file).refresh.session.finish ending).2.toList, _⟩).session = _
  rcases (new file).refresh.session.finish ending with ⟨after, _ | outcome⟩
  · rfl
  · rfl

/-! ## The parts of a step -/

/-- The first part of a change: it is counted, and the store is told. -/
def receive (x : Seat) : Seat where
  toLog := x.toLog.receive (.signal .saved)
  session :=
    { x.session with scheduler := x.session.scheduler.mapStore fun store =>
        store.markStale.clearVisible }
  waiting := x.waiting
  late := if x.session.scheduler.settled.isEmpty then x.late else x.late + 1

/-- An outcome is taken from those that wait, and its error is noted. -/
def take (x : Seat) (number : Nat) (outcome : Outcome) : Seat :=
  { x with
    session := { x.session with lastError := outcome.error? }
    waiting := x.waiting.eraseIdx number }

/-- The session with another history of its scheduler. -/
def withHistory (x : Seat) (h : History) : Seat :=
  { x with
    toLog := h.toLog
    session := { x.session with scheduler := h.scheduler } }

/-- A check is asked for, if there is one to ask for. -/
def ask (x : Seat) (mode? : Option CheckMode) : Seat :=
  x.withHistory (x.history.ask mode?)

def launch (x : Seat) (mode : CheckMode) : Seat :=
  x.withHistory (x.history.launch mode)

theorem change_eq (x : Seat) : x.change = x.receive.ask (some .project) := by
  rw [change, ask]
  rfl

/-- An outcome that waits is taken first, and then the check that follows it up is asked for. -/
theorem handle_cases (x : Seat) (number : Nat) :
    x.handle number = x ∧ x.waiting[number]? = none ∨
      ∃ outcome, x.waiting[number]? = some outcome ∧
        x.handle number = (x.take number outcome).ask (outcome.followUp? x.store) := by
  rw [handle]
  cases hwaiting : x.waiting[number]? with
  | none => exact .inl ⟨rfl, rfl⟩
  | some outcome =>
    refine .inr ⟨outcome, rfl, ?_⟩
    show Seat.mk (x.toLog.start (x.session.handle outcome).2) (x.session.handle outcome).1
      (x.waiting.eraseIdx number) x.late = _
    rw [Session.handle_eq]
    rfl

/-- A check is started exactly if one is asked for, the file is one that is checked, and no
cycle is running. -/
theorem ask_cases (x : Seat) (mode? : Option CheckMode) :
    x.ask mode? = x ∧
        (mode? = none ∨ x.session.file.isCheckable = false ∨
          x.session.scheduler.running = true) ∨
      ∃ mode, mode? = some mode ∧ x.ask mode? = x.launch mode ∧
        x.session.scheduler.running = false := by
  rcases x.history.ask_cases mode? with ⟨hsame, _, hwhy⟩ | ⟨mode, hmode, hlaunch, _, _, hidle⟩
  · refine .inl ⟨?_, hwhy⟩
    rw [ask, hsame]
    rfl
  · refine .inr ⟨mode, hmode, ?_, hidle⟩
    rw [ask, hlaunch]
    rfl

theorem starts_launch (x : Seat) (mode : CheckMode) :
    (x.launch mode).starts = x.starts ++ [x.now] :=
  List.map_append

theorem settle_of_nil (hnone : x.session.scheduler.inFlight = []) (ending : Ending) :
    x.settle ending = x := by
  rw [settle, Log.settle, Scheduler.settle, hnone]
  rfl

theorem settle_of_cons {cycle : Cycle} {rest : List Cycle}
    (hcycle : x.session.scheduler.inFlight = cycle :: rest) (ending : Ending) :
    x.settle ending =
      { now := x.now
        handles := x.handles
        outcomes := x.outcomes ++ [(cycle.conclude x.store ending).2]
        applied? := x.toLog.appliedAfter ending
        session :=
          { x.session with
            scheduler :=
              { x.session.scheduler with
                store := (cycle.conclude x.store ending).1
                inFlight := rest
                settled := x.session.scheduler.settled ++
                  [(cycle.conclude x.store ending).2] } }
        waiting := x.waiting
        late := 0 } := by
  rw [settle, Log.settle, Scheduler.settle, hcycle]
  rfl

theorem starts_settle (x : Seat) (ending : Ending) : (x.settle ending).starts = x.starts := by
  rcases hcycle : x.session.scheduler.inFlight with _ | ⟨cycle, rest⟩
  · rw [settle_of_nil hcycle]
  · rw [settle_of_cons hcycle]
    rfl

theorem release_of_nil (hnone : x.session.scheduler.settled = []) : x.release = x := by
  rw [release, Scheduler.release, hnone]
  show Seat.mk x.toLog x.session (x.waiting ++ []) x.late = x
  rw [List.append_nil]

theorem release_of_cons {outcome : Outcome} {rest : List Outcome}
    (hsettled : x.session.scheduler.settled = outcome :: rest) :
    x.release =
      { x with
        session :=
          { x.session with
            scheduler := { x.session.scheduler with running := false, settled := rest } }
        waiting := x.waiting ++ [outcome] } := by
  rw [release, Scheduler.release, hsettled]
  rfl

theorem history_opened (file : Path) (ending : Ending) :
    (opened file ending).history =
      (((History.new file).ask (some .project)).settle ending).release := by
  rw [opened, note]
  split
  · rfl
  · show (⟨_, (Session.record _ _).scheduler⟩ : History) = _
    rw [Session.record_scheduler]
    rfl

/-! ## After the first check -/

theorem refresh_new {file : Path} (hfile : file.isCheckable = true) :
    (new file).refresh =
      ⟨⟨⟨0, 0⟩, [⟨⟨0, 0⟩, true⟩], [], none⟩,
        ⟨⟨file, .new, true, [⟨⟨file, .project⟩, 0⟩], []⟩, none⟩, [], 0⟩ := by
  have htrigger : (Scheduler.new file).refresh =
      (⟨file, .new, true, [⟨⟨file, .project⟩, 0⟩], []⟩, some ⟨⟨file, .project⟩, 0⟩) := by
    rw [Scheduler.refresh, Scheduler.trigger]
    exact if_pos (by rw [Scheduler.new, hfile]; rfl)
  show Seat.mk (Log.empty.start (Scheduler.new file).refresh.2)
    ⟨(Scheduler.new file).refresh.1, none⟩ [] 0 = _
  rw [htrigger]
  rfl

/-- After its first check a session is up to date, or it tells an error and is stale. -/
theorem opened_cases {file : Path} (hfile : file.isCheckable = true) (ending : Ending) :
    (∃ text index, ending = .output text ∧ parse text = .ok index ∧
        opened file ending =
          ⟨⟨⟨0, 0⟩, [⟨⟨0, 0⟩, true⟩], [.applied index.size true], some ⟨text, ⟨0, 0⟩⟩⟩,
            ⟨⟨file, ⟨index, false, 0, true⟩, false, [], []⟩, none⟩, [], 0⟩) ∨
      ∃ error, ending.index = .error error ∧
        opened file ending =
          ⟨⟨⟨0, 0⟩, [⟨⟨0, 0⟩, true⟩], [.failed error], none⟩,
            ⟨⟨file, .new, false, [], []⟩, some error.message⟩, [], 0⟩ := by
  rw [opened, refresh_new hfile, finish, settle_of_cons rfl]
  rcases (Cycle.mk ⟨file, .project⟩ 0).conclude_cases .new ending with
    ⟨text, index, rfl, hparse, heq⟩ | ⟨error, herror, heq⟩
  · refine .inl ⟨text, index, rfl, hparse, ?_⟩
    rw [store, heq, Log.appliedAfter_of_ok _ hparse]
    rfl
  · refine .inr ⟨error, herror, ?_⟩
    rw [store, heq, Log.appliedAfter_of_error _ herror]
    rfl

end Seat
end Watch
end InlineCheck
