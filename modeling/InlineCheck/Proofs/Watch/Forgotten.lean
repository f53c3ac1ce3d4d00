import InlineCheck.Proofs.Watch.Window

/-!
# Changes during a check that fails

A cycle that a change overtook is followed up, but one that failed is not repeated, and its
outcome does not tell whether a change came in between.  So a change during a check that fails
waits for the next change of the file.

* `Log.Followed` says which changes were made up for.
* `InTurn` says that the last check began latest, and that its index is the one in the store if
  it succeeded.
* `followed_unless_failed` tells which changes wait when nothing is under way.
-/

namespace InlineCheck

/-- A check began at or after the change. -/
def Scheduler.Log.Followed (l : Scheduler.Log) (change : Nat) : Prop :=
  ∃ began ∈ l.starts, change ≤ began.changes

namespace Watch

open Scheduler (Handle Moment)

namespace Seat

variable {x : Seat}

/-! ## The last check -/

/-- No check began earlier than those before it.  If the last check that ended succeeded, then
the index of the session is from that check. -/
structure InTurn (x : Seat) : Prop extends Sound x where
  started : x.starts ≠ []
  ascending : x.starts.Pairwise fun m n => m.changes ≤ n.changes
  applied : ∀ diagnostics fresh, x.outcomes.getLast? = some (.applied diagnostics fresh) →
    ∃ a, x.applied? = some a ∧ x.starts[x.outcomes.length - 1]? = some a.began

namespace InTurn

theorem opened {file : Path} (hfile : file.isCheckable = true) (ending : Ending) :
    InTurn (opened file ending) := by
  have hsound := (Watched.opened hfile ending).toSound
  rcases opened_cases hfile ending with ⟨_, _, _, _, heq⟩ | ⟨_, _, heq⟩
  · rw [heq] at hsound ⊢
    exact ⟨hsound, List.cons_ne_nil _ _, List.pairwise_singleton _ _, fun _ _ _ => ⟨_, rfl, rfl⟩⟩
  · rw [heq] at hsound ⊢
    exact ⟨hsound, List.cons_ne_nil _ _, List.pairwise_singleton _ _, nofun⟩

theorem launch (hx : InTurn x) (mode : CheckMode) (hidle : x.session.scheduler.running = false)
    (hstale : x.store.stale = true) : InTurn (x.launch mode) where
  toSound := hx.toSound.launch mode hidle hstale
  started := by
    rw [starts_launch]
    exact List.append_ne_nil_of_right_ne_nil _ (List.cons_ne_nil _ _)
  ascending := by
    rw [starts_launch]
    refine List.pairwise_append.2 ⟨hx.ascending, List.pairwise_singleton _ _, ?_⟩
    intro m hm n hn
    rw [List.mem_singleton.1 hn]
    exact (hx.current.past m hm).changes
  applied diagnostics fresh hlast := by
    obtain ⟨a, happlied, hbegan⟩ := hx.applied diagnostics fresh hlast
    refine ⟨a, happlied, ?_⟩
    rw [starts_launch]
    obtain ⟨hlt, _⟩ := List.getElem?_eq_some_iff.1 hbegan
    rw [← hbegan]
    exact List.getElem?_append_left hlt

theorem settle (hx : InTurn x) (ending : Ending) : InTurn (x.settle ending) := by
  have hsound := hx.toSound.settle ending
  rcases hcycle : x.session.scheduler.inFlight with _ | ⟨cycle, rest⟩
  · rw [settle_of_nil hcycle]
    exact hx
  · rw [settle_of_cons hcycle] at hsound ⊢
    refine ⟨hsound, hx.started, hx.ascending, fun diagnostics fresh hlast => ?_⟩
    have hlast' : (x.outcomes ++ [(cycle.conclude x.store ending).2]).getLast? =
        some (.applied diagnostics fresh) := hlast
    rw [List.getLast?_concat] at hlast'
    rcases cycle.conclude_cases x.store ending with ⟨text, index, rfl, hparse, _⟩ | ⟨_, _, heq⟩
    -- The check that ends is the one that began next after those that ended before.
    · obtain ⟨m, hnext, _, _, happlied⟩ :=
        hx.current.appliedAfter (h := x.history) hcycle hparse
      refine ⟨⟨text, m⟩, happlied, ?_⟩
      show x.starts[(x.outcomes ++ [_]).length - 1]? = some m
      rw [List.length_append, List.length_singleton, Nat.add_sub_cancel]
      exact hnext
    · rw [heq] at hlast'
      cases hlast'

theorem release (hx : InTurn x) : InTurn x.release := by
  have hsound := hx.toSound.release
  rcases hsettled : x.session.scheduler.settled with _ | ⟨outcome, rest⟩
  · rw [release_of_nil hsettled]
    exact hx
  · rw [release_of_cons hsettled] at hsound ⊢
    exact ⟨hsound, hx.started, hx.ascending, hx.applied⟩

theorem kept : Kept (fun _ => true) InTurn where
  receive hx := ⟨hx.toSound.receive, hx.started, hx.ascending, hx.applied⟩
  launch mode hidle hstale hx := hx.launch mode hidle hstale
  take _ _ hx := ⟨hx.toSound.take _ _, hx.started, hx.ascending, hx.applied⟩
  settle ending _ hx := hx.settle ending
  release _ hx := hx.release
  finish ending _ hx := (hx.settle ending).release

/-- The changes that the last check made up for are all that were made up for. -/
theorem followed_iff (hx : InTurn x) {last : Moment} (hlast : x.starts.getLast? = some last)
    (change : Nat) : x.toLog.Followed change ↔ change ≤ last.changes := by
  refine ⟨fun ⟨began, hmem, hle⟩ => Nat.le_trans hle ?_, fun hle => ⟨last, ?_, hle⟩⟩
  · obtain ⟨earlier, heq⟩ := List.getLast?_eq_some_iff.1 hlast
    have hascending := hx.ascending
    rw [heq] at hmem hascending
    rcases List.mem_append.1 hmem with hold | hnew
    · exact (List.pairwise_append.1 hascending).2.2 _ hold _ (List.mem_singleton_self _)
    · exact Nat.le_of_eq (congrArg Moment.changes (List.mem_singleton.1 hnew))
  · exact List.mem_of_getLast? hlast

/-- When no check is in flight, the last one that began has ended last. -/
theorem exists_last (hx : InTurn x) (hnone : x.session.scheduler.inFlight = []) :
    ∃ last outcome, x.starts.getLast? = some last ∧ x.outcomes.getLast? = some outcome ∧
      (outcome.isApplied = true → ∃ a, x.applied? = some a ∧ a.began = last) := by
  have hlength : x.starts.length = x.outcomes.length := by
    have hchecks : x.outcomes.length + x.session.scheduler.inFlight.length = x.handles.length :=
      hx.current.checks
    rw [Scheduler.Log.starts, List.length_map, ← hchecks, hnone]
    rfl
  have hended : x.outcomes ≠ [] := by
    intro hnil
    rw [hnil] at hlength
    exact hx.started (List.length_eq_zero_iff.1 hlength)
  have hlast := List.getLast?_eq_some_getLast hx.started
  refine ⟨_, _, hlast, List.getLast?_eq_some_getLast hended, fun happlies => ?_⟩
  cases houtcome : x.outcomes.getLast hended with
  | failed error =>
    rw [houtcome] at happlies
    cases happlies
  | applied diagnostics fresh =>
    obtain ⟨a, happlied, hbegan⟩ := hx.applied diagnostics fresh
      ((List.getLast?_eq_some_getLast hended).trans (congrArg some houtcome))
    refine ⟨a, happlied, ?_⟩
    rw [← hlength, ← List.getLast?_eq_getElem?, hlast] at hbegan
    exact (Option.some.inj hbegan).symm

end InTurn

/-- When nothing is left to be handled, the error is that of the last outcome. -/
theorem Orderly.lastError_eq (hx : Orderly x) (hsettled : x.session.scheduler.settled = [])
    (hwaiting : x.waiting = []) {outcome : Outcome}
    (hlast : x.outcomes.getLast? = some outcome) :
    x.session.lastError = outcome.error? := by
  obtain ⟨handled, houtcomes, herror⟩ := hx
  rw [hsettled, hwaiting, List.append_nil, List.append_nil] at houtcomes
  rw [herror, ← houtcomes, hlast]
  rfl

end Seat

/-- Whatever happened to a watching run, and in whatever order: of a session of which no cycle is
under way and no outcome waits the following is known.  If its last check succeeded, every change
was followed by a check that began at or after it, unless the file changed `2 ^ 64` times since
that check began.  If its last check failed, the session is stale and tells the error, and just
the changes since that check began were not followed.  Checks end together with their cycles, and
outcomes of one session are handled in the order of its cycles. -/
theorem followed_unless_failed (files : List Path) (endings : List Ending) (events : List Event)
    (hwhole : ∀ e ∈ events, e.all Step.isWhole = true)
    (horder : ∀ e ∈ events, e.all Step.isInOrder = true) :
    ∀ x ∈ run files endings events, x.Quiet →
      ∃ last outcome, x.starts.getLast? = some last ∧ x.outcomes.getLast? = some outcome ∧
        (outcome.isApplied = true → x.now.changes < last.changes + UInt64.size →
          x.toLog.CaughtUp) ∧
        ∀ error, outcome = .failed error →
          x.store.stale = true ∧ x.session.lastError = some error.message ∧
            ∀ change, x.toLog.Followed change ↔ change ≤ last.changes := by
  intro x hx hquiet
  have hwatched := forall_run_watched files endings events x hx
  have hpaced := forall_run_paced files endings events x hx
  have hsettled : x.Whole :=
    forall_run (fun _ ending hfile _ => Seat.Whole.opened hfile ending)
      (fun _ _ => Seat.Whole.kept.step) hwhole x hx
  have horderly : x.Orderly :=
    forall_run (fun _ ending hfile _ => Seat.Orderly.opened hfile ending)
      (fun _ _ => Seat.Orderly.kept.step) horder x hx
  have hturn : x.InTurn :=
    forall_run_any (fun _ ending hfile => Seat.InTurn.opened hfile ending)
      (fun _ _ => Seat.InTurn.kept.step rfl) x hx
  obtain ⟨last, outcome, hlast, houtcome, hbehind⟩ := hturn.exists_last hquiet.inFlight
  refine ⟨last, outcome, hlast, houtcome, fun happlies hlt => ?_, ?_⟩
  · have hfresh : x.store.stale = false := by
      rw [← Bool.not_eq_true, hwatched.stale_iff hquiet, hsettled.late, houtcome]
      rintro (⟨error, heq⟩ | hlate)
      · rw [Option.some.inj heq] at happlies
        cases happlies
      · cases hlate
    obtain ⟨_, a, happlied, hmem, _, hbegan⟩ := hwatched.fresh hpaced hfresh
    obtain ⟨a', happlied', rfl⟩ := hbehind happlies
    obtain rfl := Option.some.inj (happlied.symm.trans happlied')
    exact caughtUp_of_mem hmem (hbegan hlt)
  · rintro error rfl
    exact ⟨hwatched.failed error houtcome,
      horderly.lastError_eq hsettled.settled hquiet.2 houtcome, hturn.followed_iff hlast⟩

/-- The second of two changes comes while a check is in flight that fails, and is forgotten until
the file changes once more. -/
theorem followed_unless_failed_then_followed :
    let failing : List Event := [.session 0 .change, .session 0 .change,
      .session 0 (.finish (.failed .emptyOutput)), .session 0 (.handle 0)]
    let events : List Event := failing ++ [.session 0 .change,
      .session 0 (.finish (.output "[[]]")), .session 0 (.handle 0)]
    (∀ e ∈ events, e.all Step.isWhole = true) ∧ (∀ e ∈ events, e.all Step.isInOrder = true) ∧
      (∃ x ∈ run [⟨"/p/a.js"⟩] [.output "[[]]"] failing, x.Quiet ∧
        x.toLog.Followed 1 ∧ ¬ x.toLog.Followed 2 ∧
        x.session.lastError = some CheckError.emptyOutput.message) ∧
      ∃ x ∈ run [⟨"/p/a.js"⟩] [.output "[[]]"] events, x.Quiet ∧ x.now.changes = 3 ∧
        x.toLog.CaughtUp := by
  intro failing events
  have hwhole : ∀ e ∈ events, e.all Step.isWhole = true := by decide
  have horder : ∀ e ∈ events, e.all Step.isInOrder = true := by decide
  have hfailing : (run [⟨"/p/a.js"⟩] [.output "[[]]"] failing)[0]?.map (fun x =>
      (x.session.scheduler.underway, x.waiting, x.outcomes.getLast?,
        x.starts.getLast?.map Moment.changes)) =
        some (0, [], some (.failed .emptyOutput), some 1) := by decide +kernel
  have hafter : (run [⟨"/p/a.js"⟩] [.output "[[]]"] events)[0]?.map (fun x =>
      (x.session.scheduler.underway, x.waiting, x.now.changes,
        x.outcomes.getLast?.map Outcome.isApplied)) = some (0, [], 3, some true) := by
    decide +kernel
  obtain ⟨x, hx, hxeq⟩ := Option.map_eq_some_iff.1 hfailing
  obtain ⟨y, hy, hyeq⟩ := Option.map_eq_some_iff.1 hafter
  simp only [Prod.mk.injEq] at hxeq hyeq
  obtain ⟨hxnone, hxwaiting, hxfailed, hxlast⟩ := hxeq
  obtain ⟨hynone, hywaiting, hychanges, hyapplied⟩ := hyeq
  have hxmem := List.mem_of_getElem? hx
  have hymem := List.mem_of_getElem? hy
  refine ⟨hwhole, horder, ⟨x, hxmem, ⟨hxnone, hxwaiting⟩, ?_⟩, y, hymem, ⟨hynone, hywaiting⟩,
    hychanges, ?_⟩
  · have hsub : ∀ e ∈ failing, e ∈ events := fun e he => List.mem_append_left _ he
    obtain ⟨last, outcome, hlast, houtcome, _, hfails⟩ :=
      followed_unless_failed _ _ failing (fun e he => hwhole e (hsub e he))
        (fun e he => horder e (hsub e he)) x hxmem ⟨hxnone, hxwaiting⟩
    obtain ⟨_, herror, hfollowed⟩ :=
      hfails _ (Option.some.inj (houtcome.symm.trans hxfailed))
    have hbegan : last.changes = 1 := by
      rw [hlast] at hxlast
      exact Option.some.inj hxlast
    rw [hfollowed, hfollowed, hbegan]
    exact ⟨Nat.le_refl 1, by omega, herror⟩
  · obtain ⟨last, outcome, _, houtcome, happlied, _⟩ :=
      followed_unless_failed _ _ events hwhole horder y hymem ⟨hynone, hywaiting⟩
    rw [houtcome] at hyapplied
    refine happlied (Option.some.inj hyapplied) ?_
    rw [hychanges, UInt64.size]
    omega

/-- A change that comes during a check that fails is not followed by another check, although
nothing is under way any more. -/
theorem failed_check_forgets_change :
    let events : List Event := [.session 0 .change, .session 0 .change,
      .session 0 (.finish (.failed .emptyOutput)), .session 0 (.handle 0)]
    (∀ e ∈ events, e.all Step.isWhole = true) ∧ (∀ e ∈ events, e.all Step.isInOrder = true) ∧
      ∃ x ∈ run [⟨"/p/a.js"⟩] [.output "[[]]"] events, x.Quiet ∧ ¬ x.toLog.CaughtUp := by
  intro events
  have hfacts : (run [⟨"/p/a.js"⟩] [.output "[[]]"] events)[0]?.map (fun x =>
      (x.session.scheduler.underway, x.waiting, x.now.changes, x.starts.map Moment.changes)) =
        some (0, [], 2, [0, 1]) := by decide +kernel
  obtain ⟨x, hx, heq⟩ := Option.map_eq_some_iff.1 hfacts
  obtain ⟨hnone, hwaiting, hchanges, hstarts⟩ := by simpa only [Prod.mk.injEq] using heq
  refine ⟨by decide, by decide, x, List.mem_of_getElem? hx, ⟨hnone, hwaiting⟩, ?_⟩
  refine not_caughtUp (by omega) fun m hm => ?_
  have hmem : m.changes ∈ x.starts.map Moment.changes := List.mem_map_of_mem hm
  rw [hstarts, List.mem_cons, List.mem_singleton] at hmem
  omega

end Watch
end InlineCheck
