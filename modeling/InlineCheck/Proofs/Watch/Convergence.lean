import InlineCheck.Machine
import InlineCheck.Proofs.Watch.Due

/-!
# A watching run catches up

Once nothing is under way in a session and no outcome of it waits, the session is up to date,
or its error says why not.  This needs two things of the run: a check and its cycle end in one
step (`Whole`), and the outcomes of a session are handled in the order of its cycles
(`Orderly`).  All else may come in any order.

* `Paced` says that in such a run every mark is a change, so that the epoch counts the changes.
* `Watched.fresh` says what is known of a session that is not stale.
* `watch_converges` puts all of it together.
-/

namespace InlineCheck.Watch

open Scheduler (Call Handle History Moment)
open Scheduler.History (Current)

/-- The document was marked as changed exactly when it changed. -/
structure Paced (h : History) : Prop where
  now : h.now.marks = h.now.changes
  starts : ∀ m ∈ h.starts, m.marks = m.changes

theorem Paced.new (file : Path) : Paced (.new file) := ⟨rfl, nofun⟩

theorem Paced.kept : History.Kept (fun c => c.isMark = c.isChange) Paced where
  receive {h c} hsame hp := by
    refine ⟨?_, hp.starts⟩
    show h.now.marks + c.isMark.toNat = h.now.changes + c.isChange.toNat
    rw [hp.now, hsame]
  launch {h} mode _ hp := by
    refine ⟨hp.now, fun m hm => ?_⟩
    have hmem : m ∈ (h.handles ++ [Handle.mk h.now true]).map Handle.began := hm
    rw [List.map_append, List.mem_append, List.map_singleton, List.mem_singleton] at hmem
    rcases hmem with hold | rfl
    · exact hp.starts m hold
    · exact hp.now
  settle {h} ending hp := by
    rcases hcycle : h.scheduler.inFlight with _ | ⟨cycle, rest⟩
    · rw [History.settle_of_nil hcycle]
      exact hp
    · rw [History.settle_of_cons hcycle]
      exact ⟨hp.now, hp.starts⟩
  release hp := ⟨hp.now, hp.starts⟩
  drop {h} number hp := by
    refine ⟨hp.now, ?_⟩
    rw [show (h.drop number).starts = h.starts from h.starts_drop number]
    exact hp.starts

namespace Seat

variable {x : Seat}

/-- The index of a session that is not stale is visible.  The check behind it began after the
last change, unless the epoch went round while that check ran. -/
theorem Watched.fresh (hx : Watched x) (hpaced : Paced x.history)
    (hfresh : x.store.stale = false) :
    x.store.visible = true ∧
      ∃ a, x.applied? = some a ∧ a.began ∈ x.starts ∧ parse a.output = .ok x.store.index ∧
        (x.now.changes < a.began.changes + UInt64.size → a.began.changes = x.now.changes) := by
  obtain ⟨a, happlied, hupTo, heq⟩ := hx.current.began_marks_eq hfresh
  have hmem : a.began ∈ x.starts := hx.current.begun a happlied
  have hindex := hx.current.index
  rw [Scheduler.Log.index, happlied] at hindex
  refine ⟨hx.visible hfresh, a, happlied, hmem, hindex, fun hlt => ?_⟩
  have hnow : x.now.marks = x.now.changes := hpaced.now
  have hbegan : a.began.marks = a.began.changes := hpaced.starts _ hmem
  refine hupTo.changes_eq (heq ?_)
  show x.now.marks < a.began.marks + UInt64.size
  omega

/-! ## Checks that end with their cycles -/

/-- No cycle outlives its check, so no change comes too late. -/
structure Whole (x : Seat) : Prop where
  settled : x.session.scheduler.settled = []
  late : x.late = 0

namespace Whole

theorem opened {file : Path} (hfile : file.isCheckable = true) (ending : Ending) :
    Whole (opened file ending) := by
  rcases opened_cases hfile ending with ⟨_, _, _, _, heq⟩ | ⟨_, _, heq⟩
  · rw [heq]
    exact ⟨rfl, rfl⟩
  · rw [heq]
    exact ⟨rfl, rfl⟩

theorem receive (hx : Whole x) : Whole x.receive := by
  refine ⟨hx.settled, ?_⟩
  show (if x.session.scheduler.settled.isEmpty = true then x.late else x.late + 1) = 0
  simp [hx.settled, hx.late]

theorem finish (hx : Whole x) (ending : Ending) : Whole (x.finish ending) := by
  rcases hcycle : x.session.scheduler.inFlight with _ | ⟨cycle, rest⟩
  · rw [Seat.finish, settle_of_nil hcycle, release_of_nil hx.settled]
    exact hx
  · have hsettled : (x.settle ending).session.scheduler.settled =
        [(cycle.conclude x.store ending).2] := by
      rw [settle_of_cons hcycle, hx.settled]
      rfl
    have hlate : (x.settle ending).late = 0 := by rw [settle_of_cons hcycle]
    rw [Seat.finish, release_of_cons hsettled]
    exact ⟨rfl, hlate⟩

theorem kept : Kept Step.isWhole Whole where
  receive hx := hx.receive
  launch _ _ _ hx := ⟨hx.settled, hx.late⟩
  take _ _ hx := ⟨hx.settled, hx.late⟩
  settle _ hs := by cases hs
  release hs := by cases hs
  finish ending _ hx := hx.finish ending

end Whole

/-! ## Outcomes that are handled in order -/

/-- The outcomes are those that were handled, then those that wait, then those of the cycles
that are not over.  The error is that of the last one that was handled. -/
def Orderly (x : Seat) : Prop :=
  ∃ handled, x.outcomes = handled ++ (x.waiting ++ x.session.scheduler.settled) ∧
    x.session.lastError = handled.getLast?.bind Outcome.error?

namespace Orderly

theorem opened {file : Path} (hfile : file.isCheckable = true) (ending : Ending) :
    Orderly (opened file ending) := by
  rcases opened_cases hfile ending with ⟨_, index, _, _, heq⟩ | ⟨error, _, heq⟩
  · rw [heq]
    exact ⟨[.applied index.size true], rfl, rfl⟩
  · rw [heq]
    exact ⟨[.failed error], rfl, rfl⟩

theorem settle (hx : Orderly x) (ending : Ending) : Orderly (x.settle ending) := by
  rcases hcycle : x.session.scheduler.inFlight with _ | ⟨cycle, rest⟩
  · rw [settle_of_nil hcycle]
    exact hx
  · obtain ⟨handled, houtcomes, herror⟩ := hx
    rw [settle_of_cons hcycle]
    refine ⟨handled, ?_, herror⟩
    simp [houtcomes]

theorem release (hx : Orderly x) : Orderly x.release := by
  rcases hsettled : x.session.scheduler.settled with _ | ⟨outcome, rest⟩
  · rw [release_of_nil hsettled]
    exact hx
  · obtain ⟨handled, houtcomes, herror⟩ := hx
    rw [release_of_cons hsettled]
    refine ⟨handled, ?_, herror⟩
    simp [houtcomes, hsettled]

/-- The oldest outcome is the first one after those that were handled. -/
theorem take (hx : Orderly x) {outcome : Outcome} (hfirst : x.waiting[0]? = some outcome) :
    Orderly (x.take 0 outcome) := by
  obtain ⟨handled, houtcomes, _⟩ := hx
  cases hwaiting : x.waiting with
  | nil => simp [hwaiting] at hfirst
  | cons first rest =>
    rw [hwaiting] at hfirst
    obtain rfl := Option.some.inj hfirst
    refine ⟨handled ++ [first], ?_, ?_⟩
    · simp [Seat.take, houtcomes, hwaiting]
    · simp [Seat.take]

theorem kept : Kept Step.isInOrder Orderly where
  receive hx := hx
  launch _ _ _ hx := hx
  take {x number outcome} hs hwaiting hx := by
    obtain rfl : number = 0 := by simpa [Step.isInOrder] using hs
    exact hx.take hwaiting
  settle ending _ hx := hx.settle ending
  release _ hx := hx.release
  finish ending _ hx := (hx.settle ending).release

/-- When nothing is left to be handled, the session has an error exactly if its last check
failed. -/
theorem isSome_lastError_iff (hx : Orderly x) (hsettled : x.session.scheduler.settled = [])
    (hwaiting : x.waiting = []) :
    x.session.lastError.isSome = true ↔
      ∃ error, x.outcomes.getLast? = some (.failed error) := by
  obtain ⟨handled, houtcomes, herror⟩ := hx
  rw [hsettled, hwaiting, List.append_nil, List.append_nil] at houtcomes
  rw [herror, houtcomes]
  rcases handled.getLast? with _ | ⟨_ | _⟩ <;> simp [Outcome.error?]

end Orderly
end Seat

theorem forall_run_paced (files : List Path) (endings : List Ending) (events : List Event) :
    ∀ x ∈ run files endings events, Paced x.history :=
  forall_run_any
    (fun file ending _ => Seat.opened_history Paced.kept (.new file) ending)
    fun _ _ => (Seat.Kept.of_history Paced.kept rfl).step rfl

/-- Whatever happened to a watching run, and in whatever order: a session of which no cycle is
under way and no outcome waits is stale exactly if it has an error.  If it is not stale, its
index is visible, and the check behind that index began at or after the last change of its file,
unless the file changed `2 ^ 64` times while that check ran.  Checks end together with their
cycles, and outcomes of one session are handled in the order of its cycles. -/
theorem watch_converges (files : List Path) (endings : List Ending) (events : List Event)
    (hwhole : ∀ e ∈ events, e.all Step.isWhole = true)
    (horder : ∀ e ∈ events, e.all Step.isInOrder = true) :
    ∀ x ∈ run files endings events, x.Quiet →
      (x.store.stale = true ↔ x.session.lastError.isSome = true) ∧
        (x.store.stale = false →
          x.store.visible = true ∧
            ∃ a, x.applied? = some a ∧ a.began ∈ x.starts ∧
              parse a.output = .ok x.store.index ∧
              (x.now.changes < a.began.changes + UInt64.size →
                a.began.changes = x.now.changes)) := by
  intro x hx hquiet
  have hwatched := forall_run_watched files endings events x hx
  have hpaced := forall_run_paced files endings events x hx
  have hsettled : x.Whole :=
    forall_run (fun _ ending hfile _ => Seat.Whole.opened hfile ending)
      (fun _ _ => Seat.Whole.kept.step) hwhole x hx
  have horderly : x.Orderly :=
    forall_run (fun _ ending hfile _ => Seat.Orderly.opened hfile ending)
      (fun _ _ => Seat.Orderly.kept.step) horder x hx
  refine ⟨?_, hwatched.fresh hpaced⟩
  rw [hwatched.stale_iff hquiet, horderly.isSome_lastError_iff hsettled.settled hquiet.2,
    hsettled.late]
  simp

/-- A save during a check is made up for, also if the outcome of that check is handled while the
next one runs already. -/
theorem watch_converges_after_saves :
    let host := Machine.host ⟨⟨[]⟩, [], [], ⟨"/"⟩, []⟩
    let events : List Event := [.report host [⟨"/p/a.js"⟩], .report host [⟨"/p/./a.js"⟩],
      .session 0 (.finish (.output "[[]]")), .report host [⟨"/p/b.js"⟩, ⟨"/p/a.js"⟩],
      .session 0 (.handle 0), .session 0 (.finish (.output "[[[]]]")), .session 0 (.handle 0)]
    (∀ e ∈ events, e.all Step.isWhole = true) ∧ (∀ e ∈ events, e.all Step.isInOrder = true) ∧
      ∃ x ∈ run [⟨"/p/a.js"⟩] [.output "[[]]"] events, x.Quiet ∧ x.now.changes = 3 ∧
        x.store.visible = true ∧
        ∃ a, x.applied? = some a ∧ a.began.changes = x.now.changes := by
  intro host events
  have hwhole : ∀ e ∈ events, e.all Step.isWhole = true := by decide
  have horder : ∀ e ∈ events, e.all Step.isInOrder = true := by decide
  have hfacts : (run [⟨"/p/a.js"⟩] [.output "[[]]"] events)[0]?.map (fun x =>
      (x.session.scheduler.underway, x.waiting, x.now.changes, x.store.stale)) =
        some (0, [], 3, false) := by decide +kernel
  obtain ⟨x, hx, heq⟩ := Option.map_eq_some_iff.1 hfacts
  obtain ⟨hnone, hwaiting, hchanges, hfresh⟩ := by simpa only [Prod.mk.injEq] using heq
  have hmem : x ∈ run [⟨"/p/a.js"⟩] [.output "[[]]"] events := List.mem_of_getElem? hx
  have hquiet : x.Quiet := ⟨hnone, hwaiting⟩
  obtain ⟨_, hshown⟩ := watch_converges _ _ events hwhole horder x hmem hquiet
  obtain ⟨hvisible, a, happlied, _, _, hbegan⟩ := hshown hfresh
  refine ⟨hwhole, horder, x, hmem, hquiet, hchanges, hvisible, a, happlied, hbegan ?_⟩
  rw [hchanges, UInt64.size]
  omega

end InlineCheck.Watch
