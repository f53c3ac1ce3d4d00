import InlineCheck.Proofs.Watch.Seat
import InlineCheck.Watch

/-!
# The history of a watching run

A run that watches its files reacts to whatever happens next: paths are reported as changed, a
check of one of its sessions ends, or an outcome is handled.  `Event` lists all of it, and `run`
goes through any events in any order.

* `sessions_opened`, `sessions_report`, `sessions_finish` and `sessions_handle` say that the
  sessions change exactly as the run changes them.
* A property that all parts of a step keep is `Seat.Kept`.  `Kept.of_history` takes over what is
  known for a scheduler.
* `forall_run` carries a property of one session through a run.  No session has an effect on
  another one, so that is all that is needed.
-/

namespace InlineCheck.Watch

open Scheduler (Call History)

/-- What can happen to a run in one step. -/
inductive Event
  /-- Paths are reported as changed, on the host as it is then. -/
  | report (host : Host Id) (paths : List Path)
  /-- Something happens to the session at a position. -/
  | session (position : Nat) (step : Step)

namespace Event

/-- What happens to the session of a file at a position, if anything. -/
def step? (position : Nat) (file : Path) : Event → Option Step
  | report host paths => if (concerns host file paths).run then some .change else none
  | session p step => if p = position then some step else none

/-- Whether whatever happens to a session passes a test. -/
def all (test : Step → Bool) : Event → Bool
  | report _ _ => test .change
  | session _ step => test step

theorem of_step? {test : Step → Bool} {e : Event} (he : e.all test = true) {position : Nat}
    {file : Path} {s : Step} (hs : e.step? position file = some s) : test s = true := by
  cases e with
  | report host paths =>
    rw [step?] at hs
    split at hs
    · exact Option.some.inj hs ▸ he
    · cases hs
  | session p step =>
    rw [step?] at hs
    split at hs
    · exact Option.some.inj hs ▸ he
    · cases hs

end Event

/-- One step of a run. -/
def step (seats : List Seat) (e : Event) : List Seat :=
  seats.mapIdx fun i x => (e.step? i x.session.file).elim x x.step

/-- The sessions of the files that are checked, after their first checks. -/
def opened (files : List Path) (endings : List Ending) : List Seat :=
  List.zipWith Seat.opened (files.filter Path.isCheckable) endings

/-- The sessions of a run to which the given events happened. -/
def run (files : List Path) (endings : List Ending) (events : List Event) : List Seat :=
  events.foldl step (opened files endings)

/-! ## The sessions of the run -/

variable {seats : List Seat}

/-- In whatever order the first checks end, the run watches the sessions that it checked. -/
theorem sessions_opened {files : List Path} {endings : List Ending} {order : List Nat}
    (hendings : endings.length = (Sessions.ofFiles files).length)
    (horder : order.Perm (List.range (Sessions.ofFiles files).length)) :
    (opened files endings).map Seat.session =
      (Sessions.ofFiles files).checkAll endings order := by
  rw [Sessions.checkAll_eq _ hendings horder, opened, Sessions.ofFiles, List.map_zipWith,
    List.zipWith_map_left]
  simp only [Seat.session_opened]

theorem marks_eq (host : Host Id) (paths : List Path) (sessions : Sessions) :
    (marks host paths sessions).run = sessions.map fun s => (concerns host s.file paths).run := by
  induction sessions with
  | nil => rfl
  | cons s rest ih => exact congrArg (_ :: ·) ih

theorem sessions_report (seats : List Seat) (host : Host Id) (paths : List Path) :
    (step seats (.report host paths)).map Seat.session =
      (change host (seats.map Seat.session) paths).run.map Prod.fst := by
  show _ = (Sessions.change _ (marks host paths (seats.map Seat.session)).run).map Prod.fst
  simp only [marks_eq, Sessions.change, List.map_map, List.zip_map']
  refine List.ext_getElem? fun i => ?_
  rw [step, List.getElem?_map, List.getElem?_mapIdx, List.getElem?_map]
  cases seats[i]? with
  | none => rfl
  | some x =>
    simp only [Option.map_some, Event.step?, Function.comp_apply]
    split <;> rfl

theorem sessions_finish (seats : List Seat) (position : Nat) (ending : Ending) :
    (step seats (.session position (.finish ending))).map Seat.session =
      (Sessions.finish (seats.map Seat.session) position ending).1 := by
  rw [Sessions.finish, Sessions.update_eq]
  refine List.ext_getElem? fun i => ?_
  rw [step, List.getElem?_map, List.getElem?_mapIdx, List.getElem?_modify, List.getElem?_map]
  cases seats[i]? with
  | none => rfl
  | some x =>
    simp only [Option.map_some, Event.step?]
    split <;> rfl

theorem sessions_handle {position number : Nat} {x : Seat} {outcome : Outcome}
    (hx : seats[position]? = some x) (hwaiting : x.waiting[number]? = some outcome) :
    (step seats (.session position (.handle number))).map Seat.session =
      (Sessions.handle (seats.map Seat.session) position outcome).1 := by
  rw [Sessions.handle, Sessions.update_eq]
  refine List.ext_getElem? fun i => ?_
  rw [step, List.getElem?_map, List.getElem?_mapIdx, List.getElem?_modify, List.getElem?_map]
  by_cases hi : position = i
  · subst hi
    have hhandle : (x.handle number).session = (x.session.handle outcome).1 := by
      rw [Seat.handle, hwaiting]
    simp only [hx, Option.map_some, Event.step?, if_true, Option.elim_some, Seat.step, hhandle]
    rfl
  · cases seats[i]? with
    | none => rfl
    | some x' => simp [Event.step?, hi]

/-! ## Properties that every step keeps -/

namespace Seat

/-- All that happens to a session keeps the property, as far as it passes the test. -/
structure Kept (test : Step → Bool) (P : Seat → Prop) : Prop where
  receive : ∀ {x}, P x → P x.receive
  launch : ∀ {x} mode, x.session.scheduler.running = false → x.store.stale = true →
    P x → P (x.launch mode)
  take : ∀ {x number outcome}, test (.handle number) = true →
    x.waiting[number]? = some outcome → P x → P (x.take number outcome)
  settle : ∀ {x} ending, test (.settle ending) = true → P x → P (x.settle ending)
  release : ∀ {x}, test .release = true → P x → P x.release
  finish : ∀ {x} ending, test (.finish ending) = true → P x → P (x.finish ending)

namespace Kept

variable {test : Step → Bool} {P : Seat → Prop} {x : Seat}

theorem ask (k : Kept test P) {mode? : Option CheckMode}
    (hstale : ∀ mode, mode? = some mode → x.store.stale = true) (hx : P x) :
    P (x.ask mode?) := by
  rcases x.ask_cases mode? with ⟨heq, _⟩ | ⟨mode, hmode, heq, hidle⟩
  · rw [heq]
    exact hx
  · rw [heq]
    exact k.launch mode hidle (hstale mode hmode) hx

/-- A session asks for a check only while it is stale: after a change, or because an outcome is
followed up. -/
theorem step (k : Kept test P) {s : Step} (hs : test s = true) (hx : P x) : P (x.step s) := by
  cases s with
  | change =>
    show P x.change
    rw [change_eq]
    exact k.ask (fun _ _ => rfl) (k.receive hx)
  | settle ending => exact k.settle ending hs hx
  | release => exact k.release hs hx
  | finish ending => exact k.finish ending hs hx
  | handle number =>
    show P (x.handle number)
    rcases x.handle_cases number with ⟨heq, _⟩ | ⟨outcome, hwaiting, heq⟩
    · rw [heq]
      exact hx
    · rw [heq]
      exact k.ask (fun _ hmode => Outcome.stale_of_followUp? hmode) (k.take hs hwaiting hx)

/-- What all parts of the steps of a scheduler keep, all parts of the steps of a session keep,
too. -/
theorem of_history {allowed : Call → Prop} {Q : History → Prop} (k : History.Kept allowed Q)
    (hsaved : allowed (.signal .saved)) : Kept (fun _ => true) fun x => Q x.history where
  receive hx := k.receive hsaved hx
  launch mode hidle _ hx := k.launch mode hidle hx
  take _ _ hx := hx
  settle ending _ hx := k.settle ending hx
  release _ hx := k.release hx
  finish ending _ hx := k.release (k.settle ending hx)

end Kept

theorem opened_history {allowed : Call → Prop} {Q : History → Prop} (k : History.Kept allowed Q)
    {file : Path} (hnew : Q (.new file)) (ending : Ending) : Q (opened file ending).history := by
  rw [history_opened]
  exact k.release (k.settle ending (k.ask _ hnew))

end Seat

/-- A property of one session holds of all sessions at the end of every run, if the first check
establishes it and all steps keep it. -/
theorem forall_run {P : Seat → Prop} {test : Step → Bool} {files : List Path}
    {endings : List Ending} {events : List Event}
    (hopened : ∀ file ending, file.isCheckable = true → ending ∈ endings →
      P (.opened file ending))
    (hstep : ∀ x s, test s = true → P x → P (x.step s))
    (hevents : ∀ e ∈ events, e.all test = true) : ∀ x ∈ run files endings events, P x := by
  -- The induction is on the events; the sessions go their ways one by one.
  have hfoldl : ∀ seats : List Seat, (∀ x ∈ seats, P x) → ∀ x ∈ events.foldl step seats, P x := by
    induction events with
    | nil => exact fun _ hseats => hseats
    | cons e rest ih =>
      intro seats hseats
      refine ih (fun e' he' => hevents e' (List.mem_cons_of_mem e he')) _ fun y hy => ?_
      obtain ⟨i, hi, rfl⟩ := List.mem_mapIdx.1 hy
      have hx := hseats _ (List.getElem_mem hi)
      cases hs : e.step? i seats[i].session.file with
      | none => exact hx
      | some s => exact hstep _ s (Event.of_step? (hevents e List.mem_cons_self) hs) hx
  refine hfoldl _ fun x hx => ?_
  have hmem : x ∈ List.zipWith Seat.opened (files.filter Path.isCheckable) endings := hx
  obtain ⟨i, hi, rfl⟩ := List.mem_iff_getElem.1 hmem
  rw [List.length_zipWith] at hi
  rw [List.getElem_zipWith]
  have hfile := List.getElem_mem (Nat.lt_of_lt_of_le hi (Nat.min_le_left _ _))
  exact hopened _ _ (List.mem_filter.1 hfile).2 (List.getElem_mem _)

/-- The same for a property that all steps keep, whatever they are. -/
theorem forall_run_any {P : Seat → Prop} {files : List Path} {endings : List Ending}
    {events : List Event}
    (hopened : ∀ file ending, file.isCheckable = true → P (.opened file ending))
    (hstep : ∀ x s, P x → P (x.step s)) : ∀ x ∈ run files endings events, P x := by
  have hevents : ∀ e ∈ events, e.all (fun _ => true) = true := by
    intro e _
    cases e <;> rfl
  exact forall_run (fun file ending hfile _ => hopened file ending hfile)
    (fun x s _ => hstep x s) hevents

end InlineCheck.Watch
