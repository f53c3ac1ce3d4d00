import InlineCheck.Proofs.Watch.Convergence

/-!
# Changes that come too late

A check that ends hands its index to the store first, and lets the next cycle start after that.
A change in between finds the cycle still running, so it starts nothing; and the outcome of the
check was settled before it, so that handling the outcome starts nothing either.  If every check
succeeds, this is the only way in which a change is lost.

* `Succeeding` says that no check failed.
* `Outrun` says that no check began since such a change.
* `stale_iff_changed_late` tells the sessions that are stale for good from all others.
-/

namespace InlineCheck.Watch

open Scheduler (Handle History Log Moment)

/-- A change after the beginning of all checks was followed by none. -/
theorem not_caughtUp {l : Log} (hsome : 0 < l.now.changes)
    (hlt : ∀ m ∈ l.starts, m.changes < l.now.changes) : ¬ l.CaughtUp := by
  intro hall
  obtain ⟨began, hmem, hle⟩ := hall l.now.changes (Nat.le_refl _) hsome
  have hbegan := hlt began hmem
  omega

/-- A check that began at or after the last change makes up for all changes. -/
theorem caughtUp_of_mem {l : Log} {began : Moment} (hmem : began ∈ l.starts)
    (hlast : began.changes = l.now.changes) : l.CaughtUp := by
  intro change hle _
  exact ⟨began, hmem, by omega⟩

namespace Seat

variable {x : Seat}

/-! ## Checks that succeed -/

/-- No check failed. -/
def Succeeding (x : Seat) : Prop :=
  ∀ outcome ∈ x.outcomes, outcome.isApplied = true

namespace Succeeding

theorem opened {file : Path} (hfile : file.isCheckable = true) {ending : Ending}
    (hending : ending.index.isOk = true) : Succeeding (opened file ending) := by
  rcases opened_cases hfile ending with ⟨_, _, _, _, heq⟩ | ⟨error, herror, _⟩
  · rw [heq]
    intro outcome hmem
    rw [List.mem_singleton.1 hmem]
    rfl
  · rw [herror] at hending
    cases hending

theorem settle (hx : Succeeding x) {ending : Ending} (hending : ending.index.isOk = true) :
    Succeeding (x.settle ending) := by
  rcases hcycle : x.session.scheduler.inFlight with _ | ⟨cycle, rest⟩
  · rw [settle_of_nil hcycle]
    exact hx
  · rw [settle_of_cons hcycle]
    intro outcome hmem
    rcases List.mem_append.1 hmem with hold | hnew
    · exact hx outcome hold
    · rw [List.mem_singleton.1 hnew]
      rcases cycle.conclude_cases x.store ending with ⟨_, _, _, _, heq⟩ | ⟨error, herror, _⟩
      · rw [heq]
        rfl
      · rw [herror] at hending
        cases hending

theorem kept : Kept Step.succeeds Succeeding where
  receive hx := hx
  launch _ _ _ hx := hx
  take _ _ hx := hx
  settle _ hs hx := hx.settle hs
  release _ hx := hx
  finish _ hs hx := hx.settle hs

theorem getLast?_ne (hx : Succeeding x) (error : CheckError) :
    x.outcomes.getLast? ≠ some (.failed error) := by
  intro hlast
  have happlied := hx _ (List.mem_of_getLast? hlast)
  cases happlied

end Succeeding

/-! ## Changes after the end of a check -/

/-- Since a change came after the end of the last check, no check began, unless one is in
flight. -/
structure Outrun (x : Seat) : Prop extends Sound x where
  changes : 0 < x.late → x.session.scheduler.inFlight = [] →
    0 < x.now.changes ∧ ∀ m ∈ x.starts, m.changes < x.now.changes

namespace Outrun

theorem opened {file : Path} (hfile : file.isCheckable = true) (ending : Ending) :
    Outrun (opened file ending) := by
  refine ⟨(Watched.opened hfile ending).toSound, fun hlate => ?_⟩
  rw [(Whole.opened hfile ending).late] at hlate
  omega

theorem receive (hx : Outrun x) : Outrun x.receive := by
  refine ⟨hx.toSound.receive, fun _ _ => ⟨Nat.succ_pos _, fun m hm => ?_⟩⟩
  have hpast := (hx.current.past m hm).changes
  exact Nat.lt_succ_of_le hpast

theorem launch (hx : Outrun x) (mode : CheckMode) (hidle : x.session.scheduler.running = false)
    (hstale : x.store.stale = true) : Outrun (x.launch mode) := by
  refine ⟨hx.toSound.launch mode hidle hstale, fun _ hnone => ?_⟩
  have hcons : x.session.scheduler.inFlight ++ [_] = [] := hnone
  simp at hcons

theorem settle (hx : Outrun x) (ending : Ending) : Outrun (x.settle ending) := by
  have hsound := hx.toSound.settle ending
  rcases hcycle : x.session.scheduler.inFlight with _ | ⟨cycle, rest⟩
  · rw [settle_of_nil hcycle]
    exact hx
  · rw [settle_of_cons hcycle] at hsound ⊢
    refine ⟨hsound, fun hlate => ?_⟩
    cases hlate

theorem release (hx : Outrun x) : Outrun x.release := by
  have hsound := hx.toSound.release
  rcases hsettled : x.session.scheduler.settled with _ | ⟨outcome, rest⟩
  · rw [release_of_nil hsettled]
    exact hx
  · rw [release_of_cons hsettled] at hsound ⊢
    exact ⟨hsound, hx.changes⟩

theorem kept : Kept (fun _ => true) Outrun where
  receive hx := hx.receive
  launch mode hidle hstale hx := hx.launch mode hidle hstale
  take _ _ hx := ⟨hx.toSound.take _ _, hx.changes⟩
  settle ending _ hx := hx.settle ending
  release _ hx := hx.release
  finish ending _ hx := (hx.settle ending).release

end Outrun
end Seat

/-- If every check succeeds, then of a session of which no cycle is under way and no outcome
waits the following is known.  It is stale exactly if its file changed after its last check had
ended and before the cycle of that check was over.  Then no check followed that change.
Otherwise every change was followed by a check that began at or after it, unless the file
changed `2 ^ 64` times while the last check ran. -/
theorem stale_iff_changed_late (files : List Path) (endings : List Ending) (events : List Event)
    (hendings : ∀ ending ∈ endings, ending.index.isOk = true)
    (hevents : ∀ e ∈ events, e.all Step.succeeds = true) :
    ∀ x ∈ run files endings events, x.Quiet →
      (x.store.stale = true ↔ 0 < x.late) ∧
        (0 < x.late → ¬ x.toLog.CaughtUp) ∧
        (x.late = 0 → ∃ a, x.applied? = some a ∧
          (x.now.changes < a.began.changes + UInt64.size → x.toLog.CaughtUp)) := by
  intro x hx hquiet
  have hwatched := forall_run_watched files endings events x hx
  have hsucceeding : x.Succeeding :=
    forall_run (fun _ ending hfile hmem => Seat.Succeeding.opened hfile (hendings ending hmem))
      (fun _ _ => Seat.Succeeding.kept.step) hevents x hx
  have hstale : x.store.stale = true ↔ 0 < x.late := by
    rw [hwatched.stale_iff hquiet, or_iff_right]
    rintro ⟨error, hlast⟩
    exact hsucceeding.getLast?_ne error hlast
  refine ⟨hstale, fun hlate => ?_, fun hnone => ?_⟩
  · have hflight : x.session.scheduler.inFlight = [] := by
      have hunderway := hquiet.1
      rw [Scheduler.underway] at hunderway
      exact List.eq_nil_of_length_eq_zero (by omega)
    have houtrun : x.Outrun :=
      forall_run_any (fun _ ending hfile => Seat.Outrun.opened hfile ending)
        (fun _ _ => Seat.Outrun.kept.step rfl) x hx
    obtain ⟨hsome, hlt⟩ := houtrun.changes hlate hflight
    exact not_caughtUp hsome hlt
  · have hfresh : x.store.stale = false := by
      cases hcase : x.store.stale with
      | false => rfl
      | true =>
        have hlate := hstale.1 hcase
        omega
    have hpaced := forall_run_paced files endings events x hx
    obtain ⟨_, a, happlied, hmem, _, hlast⟩ := hwatched.fresh hpaced hfresh
    exact ⟨a, happlied, fun hlt => caughtUp_of_mem hmem (hlast hlt)⟩

/-- Two files change while they are checked.  The change of the first one comes before the end
of its check and is made up for.  That of the second one comes after it and is not. -/
theorem stale_iff_changed_late_of_two :
    let files : List Path := [⟨"/p/a.js"⟩, ⟨"/p/b.js"⟩]
    let endings : List Ending := [.output "[[]]", .output "[[]]"]
    let events : List Event := [.session 0 .change, .session 1 .change,
      .session 0 .change, .session 0 (.settle (.output "[[]]")), .session 0 .release,
      .session 1 (.settle (.output "[[]]")), .session 1 .change, .session 1 .release,
      .session 0 (.handle 0), .session 1 (.handle 0),
      .session 0 (.finish (.output "[[]]")), .session 0 (.handle 0)]
    (∀ ending ∈ endings, ending.index.isOk = true) ∧
      (∀ e ∈ events, e.all Step.succeeds = true) ∧
      ∃ x ∈ run files endings events, ∃ y ∈ run files endings events,
        x.Quiet ∧ x.store.stale = false ∧ x.toLog.CaughtUp ∧
          y.Quiet ∧ y.store.stale = true ∧ ¬ y.toLog.CaughtUp := by
  intro files endings events
  have hendings : ∀ ending ∈ endings, ending.index.isOk = true := by decide +kernel
  have hevents : ∀ e ∈ events, e.all Step.succeeds = true := by decide +kernel
  have hall := stale_iff_changed_late files endings events hendings hevents
  have hfirst : (run files endings events)[0]?.map (fun x =>
      (x.session.scheduler.underway, x.waiting, x.late, x.now.changes)) = some (0, [], 0, 2) := by
    decide +kernel
  have hsecond : (run files endings events)[1]?.map (fun x =>
      (x.session.scheduler.underway, x.waiting, x.late)) = some (0, [], 1) := by
    decide +kernel
  obtain ⟨x, hx, hxeq⟩ := Option.map_eq_some_iff.1 hfirst
  obtain ⟨y, hy, hyeq⟩ := Option.map_eq_some_iff.1 hsecond
  simp only [Prod.mk.injEq] at hxeq hyeq
  obtain ⟨hxnone, hxwaiting, hxlate, hxchanges⟩ := hxeq
  obtain ⟨hynone, hywaiting, hylate⟩ := hyeq
  have hxmem := List.mem_of_getElem? hx
  have hymem := List.mem_of_getElem? hy
  obtain ⟨hxstale, _, hxcaught⟩ := hall x hxmem ⟨hxnone, hxwaiting⟩
  obtain ⟨hystale, hylost, _⟩ := hall y hymem ⟨hynone, hywaiting⟩
  have hlate : 0 < y.late := by omega
  have hfresh : x.store.stale = false := by
    rw [← Bool.not_eq_true, hxstale]
    omega
  have hcaught : x.toLog.CaughtUp := by
    obtain ⟨a, _, hcaught⟩ := hxcaught hxlate
    refine hcaught ?_
    rw [hxchanges, UInt64.size]
    omega
  exact ⟨hendings, hevents, x, hxmem, y, hymem, ⟨hxnone, hxwaiting⟩, hfresh, hcaught,
    ⟨hynone, hywaiting⟩, hystale.2 hlate, hylost hlate⟩

/-- A change between the end of a check and the end of its cycle is lost, although every check
succeeds. -/
theorem late_change_lost :
    let endings : List Ending := [.output "[[]]"]
    let events : List Event := [.session 0 .change, .session 0 (.settle (.output "[[]]")),
      .session 0 .change, .session 0 .release, .session 0 (.handle 0)]
    (∀ ending ∈ endings, ending.index.isOk = true) ∧
      (∀ e ∈ events, e.all Step.succeeds = true) ∧
      ∃ x ∈ run [⟨"/p/a.js"⟩] endings events,
        x.Quiet ∧ x.store.stale = true ∧ ¬ x.toLog.CaughtUp := by
  intro endings events
  have hendings : ∀ ending ∈ endings, ending.index.isOk = true := by decide +kernel
  have hevents : ∀ e ∈ events, e.all Step.succeeds = true := by decide +kernel
  have hfacts : (run [⟨"/p/a.js"⟩] endings events)[0]?.map (fun x =>
      (x.session.scheduler.underway, x.waiting, x.store.stale, x.now.changes,
        x.starts.map Moment.changes)) = some (0, [], true, 2, [0, 1]) := by decide +kernel
  obtain ⟨x, hx, heq⟩ := Option.map_eq_some_iff.1 hfacts
  obtain ⟨hnone, hwaiting, hstale, hchanges, hstarts⟩ := by
    simpa only [Prod.mk.injEq] using heq
  refine ⟨hendings, hevents, x, List.mem_of_getElem? hx, ⟨hnone, hwaiting⟩, hstale, ?_⟩
  refine not_caughtUp (by omega) fun m hm => ?_
  have hmem : m.changes ∈ x.starts.map Moment.changes := List.mem_map_of_mem hm
  rw [hstarts, List.mem_cons, List.mem_singleton] at hmem
  omega

end InlineCheck.Watch
