import InlineCheck.Scheduler

/-!
# The history of a scheduler

What a scheduler promises has to hold over everything that can happen to it: its host calls it,
checks end, and handles are dropped, in any order.  `Event` lists what can happen in one step,
and a `History` is a scheduler with a log of what happened so far.

Nothing reads the log to decide anything.  It is there to speak about the past: how much had
been received when a check was started, and which check the index in the store came from.

There are four groups.

* The end of a check.  `Cycle.conclude_cases` tells the two ways in which it changes the store
  apart.
* Calls.  `call_eq` says that a call changes the store first and then may ask for a check, so
  that no later proof goes through the calls one by one.
* The log, and what one event does to a history.  `step_call` cuts a call into `receive` and
  `ask`, and `ask_cases` says when a check is started.
* Runs.  A property that all parts of a step keep is `Kept`, and `Kept.run` carries it through
  all events.
-/

namespace InlineCheck

/-- Whether the signal tells that the document changed. -/
def Signal.isChange : Signal → Bool
  | .edited => true
  | .saved => true
  | .reloaded => true
  | .layoutChanged _ => false

namespace Store

variable (s : Store) (index : Index) (began : Epoch)

@[simp] theorem index_apply : (s.apply index began).1.index = index := rfl

@[simp] theorem epoch_apply : (s.apply index began).1.epoch = s.epoch := rfl

@[simp] theorem stale_apply : (s.apply index began).1.stale = !s.unchangedSince began := rfl

@[simp] theorem visible_apply :
    (s.apply index began).1.visible = (s.visible || s.unchangedSince began) := rfl

end Store

namespace Cycle

/-- How a check changes the store.  An output that can be read is applied, and everything else
leaves the store as it was. -/
theorem conclude_cases (c : Cycle) (store : Store) (ending : Ending) :
    (∃ text index, ending = .output text ∧ parse text = .ok index ∧
        c.conclude store ending =
          ((store.apply index c.began).1,
            .applied index.size (store.unchangedSince c.began))) ∨
      ∃ error, ending.index = .error error ∧
        c.conclude store ending = (store, .failed error) := by
  rcases hindex : ending.index with error | index
  · refine .inr ⟨error, rfl, ?_⟩
    rw [Cycle.conclude, hindex]
  · cases ending with
    | output text =>
      refine .inl ⟨text, index, rfl, hindex, ?_⟩
      rw [Cycle.conclude, hindex]
      rfl
    | failed error => cases hindex
    | died _ => cases hindex

theorem conclude_epoch (c : Cycle) (store : Store) (ending : Ending) :
    (c.conclude store ending).1.epoch = store.epoch := by
  rcases c.conclude_cases store ending with ⟨_, _, _, _, heq⟩ | ⟨_, _, heq⟩
  · rw [heq, Store.epoch_apply]
  · rw [heq]

end Cycle

namespace Scheduler

/-- A check without an output that can be read leaves the store as it was. -/
theorem store_finish_of_error (s : Scheduler) {ending : Ending} {error : CheckError}
    (h : ending.index = .error error) : (s.finish ending).1.store = s.store := by
  have hsettle : (s.settle ending).store = s.store := by
    rw [settle]
    rcases s.inFlight with _ | ⟨cycle, rest⟩
    · rfl
    · simp only [Cycle.conclude, h]
  rw [finish, release]
  split <;> exact hsettle

/-! ## Calls -/

/-- What a host can ask of a scheduler and of its store. -/
inductive Call
  | signal (signal : Signal)
  | refresh
  | checkContents (text : String)
  /-- The store is told that the document changed, past the scheduler. -/
  | markStale
  | clearVisible
  /-- The store is given an index that no check found. -/
  | replace (index : Index)

namespace Call

/-- Whether the call goes to the scheduler and not past it to the store. -/
def isOwn : Call → Bool
  | signal _ => true
  | refresh => true
  | checkContents _ => true
  | markStale => false
  | clearVisible => false
  | replace _ => false

def isMark : Call → Bool
  | signal s => s.isChange
  | checkContents _ => true
  | markStale => true
  | refresh => false
  | clearVisible => false
  | replace _ => false

/-- Whether the call tells of an edit, a save or a reload. -/
def isChange : Call → Bool
  | signal s => s.isChange
  | _ => false

def onStore : Call → Store → Store
  | signal .edited, store => store.markStale.clearVisible
  | signal .saved, store => store.markStale.clearVisible
  | signal .reloaded, store => store.markStale.clearVisible
  | signal (.layoutChanged true), store => store.clearVisible
  | signal (.layoutChanged false), store => store
  | refresh, store => store
  | checkContents _, store => store.markStale
  | markStale, store => store.markStale
  | clearVisible, store => store.clearVisible
  | replace index, store => store.replace index

/-- The check that the call asks for, if any. -/
def mode? (store : Store) : Call → Option CheckMode
  | signal .saved => some .project
  | signal .reloaded => some .project
  | signal (.layoutChanged false) => if store.stale then some .project else none
  | refresh => some .project
  | checkContents text => some (.contents text)
  | _ => none

end Call

/-- Does what the host asks for, and gives the cycle that this starts. -/
def call (s : Scheduler) : Call → Scheduler × Option Cycle
  | .signal signal => s.signal signal
  | .refresh => s.refresh
  | .checkContents text => s.checkContents text
  | .markStale => (s.mapStore Store.markStale, none)
  | .clearVisible => (s.mapStore Store.clearVisible, none)
  | .replace index => (s.mapStore fun store => store.replace index, none)

def ask (s : Scheduler) : Option CheckMode → Scheduler × Option Cycle
  | none => (s, none)
  | some mode => s.trigger mode

/-- A call changes the store first, and then may ask for a check. -/
theorem call_eq (s : Scheduler) (c : Call) :
    s.call c = (s.mapStore c.onStore).ask (c.mode? s.store) := by
  cases c with
  | signal signal =>
    cases signal with
    | edited | saved | reloaded => rfl
    | layoutChanged dirty =>
      cases dirty with
      | true => rfl
      | false =>
        simp only [call, signal, Call.mode?]
        split <;> rfl
  | refresh | checkContents _ | markStale | clearVisible | replace _ => rfl

/-- The number of cycles that are not over: their checks are in flight, or they hold up the
next cycle still. -/
def underway (s : Scheduler) : Nat :=
  s.inFlight.length + s.settled.length

/-! ## The log -/

/-- How much had been received up to some moment: how often the document was marked as changed,
and how many edits, saves and reloads there were. -/
structure Moment where
  marks : Nat
  changes : Nat

/-- A handle that was given out: when its check began, and whether the host still holds it. -/
structure Handle where
  began : Moment
  held : Bool

/-- A check whose index was put into the store: what it printed, and when it began. -/
structure Applied where
  output : String
  began : Moment

/-- What happened to a scheduler. -/
structure Log where
  now : Moment
  /-- The handles given out, one for each check that was started, the oldest first. -/
  handles : List Handle
  /-- The outcomes of the checks that ended, the oldest first. -/
  outcomes : List Outcome
  /-- The last check that ended with an output that could be read. -/
  applied? : Option Applied

namespace Log

def empty : Log := ⟨⟨0, 0⟩, [], [], none⟩

/-- Counts what a call tells. -/
def receive (l : Log) (c : Call) : Log :=
  { l with now := ⟨l.now.marks + c.isMark.toNat, l.now.changes + c.isChange.toNat⟩ }

def start (l : Log) : Option Cycle → Log
  | none => l
  | some _ => { l with handles := l.handles ++ [⟨l.now, true⟩] }

def starts (l : Log) : List Moment :=
  l.handles.map Handle.began

/-- When the check began that ends next, which is the oldest one without an outcome. -/
def next? (l : Log) : Option Moment :=
  l.starts[l.outcomes.length]?

/-- The last check with an output that could be read, when one more check has ended. -/
def appliedAfter (l : Log) : Ending → Option Applied
  | .output text => if (parse text).isOk then l.next?.map (Applied.mk text) else l.applied?
  | _ => l.applied?

/-- The index that the checks found: that of the last output that could be read, and an empty
one if there was none. -/
def index (l : Log) : Except CheckError Index :=
  match l.applied? with
  | none => .ok .empty
  | some applied => parse applied.output

/-- Notes the end of the oldest check in flight, if there is one. -/
def settle (l : Log) (s : Scheduler) (ending : Ending) : Log :=
  match s.inFlight with
  | [] => l
  | cycle :: _ =>
    { l with
      outcomes := l.outcomes ++ [(cycle.conclude s.store ending).2]
      applied? := l.appliedAfter ending }

def drop (l : Log) (number : Nat) : Log :=
  { l with handles := l.handles.modify number fun handle => { handle with held := false } }

/-- Every change was followed by a check that began at or after it. -/
def CaughtUp (l : Log) : Prop :=
  ∀ change ≤ l.now.changes, 0 < change → ∃ began ∈ l.starts, change ≤ began.changes

@[simp] theorem starts_drop (l : Log) (number : Nat) : (l.drop number).starts = l.starts := by
  refine List.ext_getElem? fun i => ?_
  rw [starts, starts, drop, List.getElem?_map, List.getElem?_map, List.getElem?_modify]
  split
  · cases l.handles[i]? <;> rfl
  · cases l.handles[i]? <;> rfl

theorem appliedAfter_of_ok (l : Log) {text : String} {index : Index}
    (hparse : parse text = .ok index) :
    l.appliedAfter (.output text) = l.next?.map (Applied.mk text) := by
  rw [appliedAfter, hparse]
  rfl

theorem appliedAfter_of_error (l : Log) {ending : Ending} {error : CheckError}
    (hindex : ending.index = .error error) : l.appliedAfter ending = l.applied? := by
  cases ending with
  | output text =>
    have hparse : parse text = .error error := hindex
    rw [appliedAfter, hparse]
    rfl
  | failed _ => rfl
  | died _ => rfl

end Log

/-! ## Histories -/

/-- A scheduler with a log of what happened to it. -/
structure History extends Log where
  scheduler : Scheduler

/-- What can happen in one step. -/
inductive Event
  | call (call : Call)
  /-- The oldest check in flight ends, and with it its cycle. -/
  | finish (ending : Ending)
  /-- The oldest check in flight ends.  Its cycle holds up the next one still. -/
  | settle (ending : Ending)
  /-- The cycle whose check has ended is over. -/
  | release
  | drop (number : Nat)

namespace Event

/-- Whether the event is no call that goes past the scheduler. -/
def isOwn : Event → Bool
  | call c => c.isOwn
  | _ => true

def isMark : Event → Bool
  | call c => c.isMark
  | _ => false

end Event

namespace History

def new (file : Path) : History := ⟨.empty, .new file⟩

/-- The first part of a call: the log counts it, and the store is changed. -/
def receive (h : History) (c : Call) : History :=
  ⟨h.toLog.receive c, h.scheduler.mapStore c.onStore⟩

/-- The second part of a call: a check is asked for, if it wants one. -/
def ask (h : History) (mode? : Option CheckMode) : History :=
  ⟨h.toLog.start (h.scheduler.ask mode?).2, (h.scheduler.ask mode?).1⟩

def launch (h : History) (mode : CheckMode) : History where
  now := h.now
  handles := h.handles ++ [⟨h.now, true⟩]
  outcomes := h.outcomes
  applied? := h.applied?
  scheduler :=
    { h.scheduler with
      running := true
      inFlight := h.scheduler.inFlight ++ [⟨⟨h.scheduler.file, mode⟩, h.scheduler.store.epoch⟩] }

def settle (h : History) (ending : Ending) : History :=
  ⟨h.toLog.settle h.scheduler ending, h.scheduler.settle ending⟩

def release (h : History) : History :=
  { h with scheduler := h.scheduler.release.1 }

def drop (h : History) (number : Nat) : History :=
  { h with toLog := h.toLog.drop number }

def step (h : History) : Event → History
  | .call c => ⟨(h.toLog.receive c).start (h.scheduler.call c).2, (h.scheduler.call c).1⟩
  | .finish ending => (h.settle ending).release
  | .settle ending => h.settle ending
  | .release => h.release
  | .drop number => h.drop number

def run (file : Path) (events : List Event) : History :=
  events.foldl step (new file)

theorem run_concat (file : Path) (events : List Event) (e : Event) :
    run file (events ++ [e]) = (run file events).step e := by
  simp [run]

/-! ## The parts of a step -/

theorem step_call (h : History) (c : Call) :
    h.step (.call c) = (h.receive c).ask (c.mode? h.scheduler.store) := by
  rw [step, call_eq]
  rfl

/-- A check is started exactly if one is asked for, the file is one that is checked, and no
cycle is running. -/
theorem ask_cases (h : History) (mode? : Option CheckMode) :
    h.ask mode? = h ∧ (h.scheduler.ask mode?).2 = none ∧
        (mode? = none ∨ h.scheduler.file.isCheckable = false ∨ h.scheduler.running = true) ∨
      ∃ mode, mode? = some mode ∧ h.ask mode? = h.launch mode ∧
        (h.scheduler.ask mode?).2.isSome ∧
        h.scheduler.file.isCheckable = true ∧ h.scheduler.running = false := by
  cases mode? with
  | none => exact .inl ⟨rfl, rfl, .inl rfl⟩
  | some mode =>
    by_cases hstart : (h.scheduler.file.isCheckable && !h.scheduler.running) = true
    · have htrigger : h.scheduler.trigger mode = _ := if_pos hstart
      have hboth : h.scheduler.file.isCheckable = true ∧ h.scheduler.running = false := by
        simpa using hstart
      refine .inr ⟨mode, rfl, ?_, ?_, hboth⟩
      · rw [ask, Scheduler.ask, htrigger]
        rfl
      · rw [Scheduler.ask, htrigger]
        rfl
    · have htrigger : h.scheduler.trigger mode = (h.scheduler, none) := if_neg hstart
      refine .inl ⟨?_, ?_, .inr ?_⟩
      · rw [ask, Scheduler.ask, htrigger]
        rfl
      · rw [Scheduler.ask, htrigger]
      · cases hfile : h.scheduler.file.isCheckable with
        | false => exact .inl rfl
        | true => exact .inr (by simpa [hfile] using hstart)

theorem settle_of_nil {h : History} (hnone : h.scheduler.inFlight = []) (ending : Ending) :
    h.settle ending = h := by
  rw [settle, Log.settle, Scheduler.settle, hnone]

theorem settle_of_cons {h : History} {cycle : Cycle} {rest : List Cycle}
    (hcycle : h.scheduler.inFlight = cycle :: rest) (ending : Ending) :
    h.settle ending =
      { now := h.now
        handles := h.handles
        outcomes := h.outcomes ++ [(cycle.conclude h.scheduler.store ending).2]
        applied? := h.toLog.appliedAfter ending
        scheduler :=
          { h.scheduler with
            store := (cycle.conclude h.scheduler.store ending).1
            inFlight := rest
            settled := h.scheduler.settled ++
              [(cycle.conclude h.scheduler.store ending).2] } } := by
  rw [settle, Log.settle, Scheduler.settle, hcycle]

theorem now_settle (h : History) (ending : Ending) : (h.settle ending).now = h.now := by
  rcases hflight : h.scheduler.inFlight with _ | ⟨cycle, rest⟩
  · rw [settle_of_nil hflight]
  · rw [settle_of_cons hflight]

theorem marks_step (h : History) (e : Event) :
    (h.step e).now.marks = h.now.marks + e.isMark.toNat := by
  cases e with
  | call c =>
    show ((h.toLog.receive c).start (h.scheduler.call c).2).now.marks = _
    cases (h.scheduler.call c).2 <;> rfl
  | finish ending => exact congrArg Moment.marks (h.now_settle ending)
  | settle ending => exact congrArg Moment.marks (h.now_settle ending)
  | release | drop _ => rfl

theorem marks_run (file : Path) (events : List Event) :
    (run file events).now.marks = events.countP Event.isMark := by
  have hfoldl : ∀ h : History,
      (events.foldl step h).now.marks = h.now.marks + events.countP Event.isMark := by
    induction events with
    | nil => exact fun h => rfl
    | cons e rest ih =>
      intro h
      have hmark : (if e.isMark = true then 1 else 0) = e.isMark.toNat := by
        cases e.isMark <;> rfl
      rw [List.foldl_cons, ih, marks_step, List.countP_cons, hmark]
      omega
  exact (hfoldl (new file)).trans (Nat.zero_add _)

/-! ## Properties that every step keeps -/

/-- Every part of a step keeps the property, as long as the host makes no call but the allowed
ones. -/
structure Kept (allowed : Call → Prop) (P : History → Prop) : Prop where
  receive : ∀ {h c}, allowed c → P h → P (h.receive c)
  launch : ∀ {h} mode, h.scheduler.running = false → P h → P (h.launch mode)
  settle : ∀ {h} ending, P h → P (h.settle ending)
  release : ∀ {h}, P h → P h.release
  drop : ∀ {h} number, P h → P (h.drop number)

namespace Kept

variable {allowed : Call → Prop} {P : History → Prop} {h : History}

theorem ask (k : Kept allowed P) (mode? : Option CheckMode) (hp : P h) : P (h.ask mode?) := by
  rcases h.ask_cases mode? with ⟨hsame, _⟩ | ⟨mode, _, hlaunch, _, _, hidle⟩
  · rw [hsame]
    exact hp
  · rw [hlaunch]
    exact k.launch mode hidle hp

theorem step (k : Kept allowed P) {e : Event} (he : ∀ c, e = .call c → allowed c) (hp : P h) :
    P (h.step e) := by
  cases e with
  | call c =>
    rw [step_call]
    exact k.ask _ (k.receive (he c rfl) hp)
  | finish ending => exact k.release (k.settle ending hp)
  | settle ending => exact k.settle ending hp
  | release => exact k.release hp
  | drop number => exact k.drop number hp

theorem foldl (k : Kept allowed P) {events : List Event}
    (hevents : ∀ c, Event.call c ∈ events → allowed c) (hp : P h) :
    P (events.foldl History.step h) := by
  induction events generalizing h with
  | nil => exact hp
  | cons e rest ih =>
    refine ih (fun c hc => hevents c (List.mem_cons_of_mem e hc)) (k.step ?_ hp)
    intro c hc
    exact hevents c (hc ▸ List.mem_cons_self)

/-- A property that a new scheduler has, and that every step keeps, holds at the end of every
run. -/
theorem run (k : Kept allowed P) {file : Path} (hnew : P (new file)) {events : List Event}
    (hevents : ∀ c, Event.call c ∈ events → allowed c) : P (run file events) :=
  k.foldl hevents hnew

end Kept

theorem file_kept (file : Path) :
    Kept (fun _ => True) fun h => h.scheduler.file = file where
  receive _ hfile := hfile
  launch _ _ hfile := hfile
  settle {h} ending hfile := by
    rcases hflight : h.scheduler.inFlight with _ | ⟨cycle, rest⟩
    · rw [settle_of_nil hflight]
      exact hfile
    · rw [settle_of_cons hflight]
      exact hfile
  release {h} hfile := by
    rw [release, Scheduler.release]
    split <;> exact hfile
  drop _ hfile := hfile

end History

end Scheduler
end InlineCheck
