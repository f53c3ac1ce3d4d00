import InlineCheck.Proofs.Watch.History

/-!
# Which sessions are due

A session that is stale has to be checked again, unless its last check failed.  Its next check
may be on its way in several manners: one is in flight, a cycle is not over, or an outcome that
tells of a stale store waits to be handled.  What can go wrong is told in `Excused`.

* `Sound` says how the store of a session, its cycles and its outcomes fit together.  All parts
  of a step keep it.
* `Watched` adds that a session that is stale and idle is excused.  All steps keep it, and so
  does the first check establish it.
* `stale_iff` says which sessions are stale when nothing is under way.
-/

namespace InlineCheck.Watch

namespace Seat

open Scheduler (Handle History Moment)
open Scheduler.History (Current)

variable {x : Seat}

/-- Why a session may be stale although no check of it is in flight: its last check failed, a
change came after the end of its last check, or one of the given outcomes tells that a change
came during its check. -/
def Excused (x : Seat) (outcomes : List Outcome) : Prop :=
  (∃ error, x.outcomes.getLast? = some (.failed error)) ∨ 0 < x.late ∨
    ∃ diagnostics, .applied diagnostics false ∈ outcomes

theorem Excused.mono {outcomes outcomes' : List Outcome} (h : x.Excused outcomes)
    (hsub : ∀ diagnostics, .applied diagnostics false ∈ outcomes →
      .applied diagnostics false ∈ outcomes') : x.Excused outcomes' :=
  h.imp_right (Or.imp_right fun ⟨diagnostics, hmem⟩ => ⟨diagnostics, hsub diagnostics hmem⟩)

/-- How the store of a session, its cycles and its outcomes fit together. -/
structure Sound (x : Seat) : Prop where
  current : Current x.history
  checkable : x.session.file.isCheckable = true
  checking : x.session.scheduler.inFlight ≠ [] → x.store.stale = true
  visible : x.store.stale = false → x.store.visible = true
  failed : ∀ error, x.outcomes.getLast? = some (.failed error) → x.store.stale = true
  late : 0 < x.late → x.store.stale = true
  settled : x.session.scheduler.settled ≠ [] → x.store.stale = true →
    x.Excused x.session.scheduler.settled

namespace Sound

theorem receive (hx : Sound x) : Sound x.receive where
  current := Current.kept.receive rfl hx.current
  checkable := hx.checkable
  checking _ := rfl
  visible := nofun
  failed _ _ := rfl
  late _ := rfl
  settled hsome _ := by
    refine .inr (.inl ?_)
    have hnot : x.session.scheduler.settled.isEmpty = false := List.isEmpty_eq_false_iff.2 hsome
    show 0 < if x.session.scheduler.settled.isEmpty = true then x.late else x.late + 1
    rw [hnot]
    exact Nat.succ_pos _

theorem launch (hx : Sound x) (mode : CheckMode) (hidle : x.session.scheduler.running = false)
    (hstale : x.store.stale = true) : Sound (x.launch mode) where
  current := hx.current.launch mode hidle
  checkable := hx.checkable
  checking _ := hstale
  visible := hx.visible
  failed := hx.failed
  late := hx.late
  settled := hx.settled

theorem take (hx : Sound x) (number : Nat) (outcome : Outcome) : Sound (x.take number outcome) :=
  ⟨hx.current, hx.checkable, hx.checking, hx.visible, hx.failed, hx.late, hx.settled⟩

theorem settle (hx : Sound x) (ending : Ending) : Sound (x.settle ending) := by
  have hcurrent : Current (x.settle ending).history := hx.current.settle ending
  rcases hcycle : x.session.scheduler.inFlight with _ | ⟨cycle, rest⟩
  · rw [settle_of_nil hcycle]
    exact hx
  · obtain ⟨rfl, hnone, _⟩ := hx.current.of_cons hcycle
    have hstale : x.store.stale = true := hx.checking (hcycle ▸ List.cons_ne_nil _ _)
    rw [settle_of_cons hcycle] at hcurrent ⊢
    -- Either the index is put in, and is up to date or told not to be; or the store stays stale.
    rcases cycle.conclude_cases x.store ending with ⟨_, index, _, _, heq⟩ | ⟨error, _, heq⟩
    · rw [heq] at hcurrent ⊢
      exact
        { current := hcurrent
          checkable := hx.checkable
          checking := fun hsome => absurd rfl hsome
          visible := by
            intro hfresh
            have hnot : (x.store.apply index cycle.began).1.stale = false := hfresh
            have hsame : x.store.unchangedSince cycle.began = true := by simpa using hnot
            show (x.store.apply index cycle.began).1.visible = true
            simp [hsame]
          failed := by
            intro error hlast
            simp at hlast
          late := fun hlate => absurd hlate (Nat.lt_irrefl 0)
          settled := by
            intro _ hold
            have hstill : (x.store.apply index cycle.began).1.stale = true := hold
            have hother : x.store.unchangedSince cycle.began = false := by simpa using hstill
            refine .inr (.inr ⟨index.size, ?_⟩)
            simp [hother] }
    · rw [heq] at hcurrent ⊢
      exact
        { current := hcurrent
          checkable := hx.checkable
          checking := fun hsome => absurd rfl hsome
          visible := hx.visible
          failed := fun _ _ => hstale
          late := fun hlate => absurd hlate (Nat.lt_irrefl 0)
          settled := fun _ _ => .inl ⟨error, List.getLast?_concat⟩ }

theorem release (hx : Sound x) : Sound x.release := by
  have hcurrent : Current x.release.history := hx.current.release
  rcases hsettled : x.session.scheduler.settled with _ | ⟨outcome, rest⟩
  · rw [release_of_nil hsettled]
    exact hx
  · obtain ⟨_, rfl⟩ := hx.current.of_settled hsettled
    rw [release_of_cons hsettled] at hcurrent ⊢
    exact ⟨hcurrent, hx.checkable, hx.checking, hx.visible, hx.failed, hx.late,
      fun hsome => absurd rfl hsome⟩

end Sound

/-- A session that is stale while no cycle of it is running is excused by the outcomes that
wait to be handled. -/
structure Watched (x : Seat) : Prop extends Sound x where
  due : x.session.scheduler.running = false → x.store.stale = true → x.Excused x.waiting

namespace Watched

/-- While a cycle is running, nothing else is due. -/
theorem of_running (hx : Sound x) (hrunning : x.session.scheduler.running = true) :
    Watched x := by
  refine ⟨hx, fun hidle => ?_⟩
  rw [hrunning] at hidle
  cases hidle

theorem opened {file : Path} (hfile : file.isCheckable = true) (ending : Ending) :
    Watched (opened file ending) := by
  have hcurrent := opened_history Current.kept (Current.new file) ending
  rcases opened_cases hfile ending with ⟨_, index, _, _, heq⟩ | ⟨error, _, heq⟩
  · rw [heq] at hcurrent ⊢
    exact ⟨⟨hcurrent, hfile, fun h => absurd rfl h, fun _ => rfl, nofun, nofun, nofun⟩, nofun⟩
  · rw [heq] at hcurrent ⊢
    exact ⟨⟨hcurrent, hfile, fun h => absurd rfl h, fun _ => rfl, fun _ _ => rfl, nofun, nofun⟩,
      fun _ _ => .inl ⟨error, rfl⟩⟩

theorem change (hx : Watched x) : Watched x.change := by
  have hsound := hx.toSound.receive
  rw [change_eq]
  rcases x.receive.ask_cases (some .project) with
    ⟨heq, hnone | hnot | hrunning⟩ | ⟨mode, _, heq, hidle⟩
  · cases hnone
  · rw [hsound.checkable] at hnot
    cases hnot
  · rw [heq]
    exact of_running hsound hrunning
  · rw [heq]
    exact of_running (hsound.launch mode hidle rfl) rfl

theorem settle (hx : Watched x) (ending : Ending) : Watched (x.settle ending) := by
  have hsound := hx.toSound.settle ending
  rcases hcycle : x.session.scheduler.inFlight with _ | ⟨cycle, rest⟩
  · rw [settle_of_nil hcycle]
    exact hx
  · obtain ⟨_, _, hrunning⟩ := hx.current.of_cons hcycle
    rw [settle_of_cons hcycle] at hsound ⊢
    exact of_running hsound hrunning

/-- The outcome of the cycle that is over is added to those that wait, and it tells what has to
be known. -/
theorem release (hx : Watched x) : Watched x.release := by
  have hsound := hx.toSound.release
  rcases hsettled : x.session.scheduler.settled with _ | ⟨outcome, rest⟩
  · rw [release_of_nil hsettled]
    exact hx
  · obtain ⟨_, rfl⟩ := hx.current.of_settled hsettled
    have hexcused := hx.settled (hsettled ▸ List.cons_ne_nil _ _)
    rw [hsettled] at hexcused
    rw [release_of_cons hsettled] at hsound ⊢
    refine ⟨hsound, fun _ hstale => ?_⟩
    exact (hexcused hstale).mono fun _ hmem => List.mem_append_right _ hmem

theorem handle (hx : Watched x) (number : Nat) : Watched (x.handle number) := by
  rcases x.handle_cases number with ⟨heq, _⟩ | ⟨outcome, hwaiting, heq⟩
  · rw [heq]
    exact hx
  · have hsound := hx.toSound.take number outcome
    rw [heq]
    rcases (x.take number outcome).ask_cases (outcome.followUp? x.store) with
      ⟨heq, hnone | hnot | hrunning⟩ | ⟨mode, hmode, heq, hidle⟩
    · rw [heq]
      -- The outcome that was taken did not tell of a stale store, or it would be followed up.
      refine ⟨hsound, fun hidle hstale => (hx.due hidle hstale).mono fun n hmem => ?_⟩
      obtain ⟨i, hi⟩ := List.mem_iff_getElem?.1 hmem
      refine List.mem_eraseIdx_iff_getElem?.2 ⟨i, fun hsame => ?_, hi⟩
      rw [hsame, hwaiting] at hi
      obtain rfl := Option.some.inj hi
      have hsome : (Outcome.applied n false).followUp? x.store = some .project := if_pos hstale
      rw [hnone] at hsome
      cases hsome
    · rw [hsound.checkable] at hnot
      cases hnot
    · rw [heq]
      exact of_running hsound hrunning
    · rw [heq]
      exact of_running (hsound.launch mode hidle (Outcome.stale_of_followUp? hmode)) rfl

theorem step (hx : Watched x) (s : Step) : Watched (x.step s) := by
  cases s with
  | change => exact hx.change
  | settle ending => exact hx.settle ending
  | release => exact hx.release
  | finish ending => exact (hx.settle ending).release
  | handle number => exact hx.handle number

/-- When nothing is under way, a session is stale exactly if its last check failed, or a change
came after the end of that check. -/
theorem stale_iff (hx : Watched x) (hquiet : x.Quiet) :
    x.store.stale = true ↔
      (∃ error, x.outcomes.getLast? = some (.failed error)) ∨ 0 < x.late := by
  obtain ⟨hnone, hwaiting⟩ := hquiet
  constructor
  · intro hstale
    have hidle : x.session.scheduler.running = false := by
      have hunderway : x.session.scheduler.underway = x.session.scheduler.running.toNat :=
        hx.current.underway
      rw [hnone] at hunderway
      cases hrunning : x.session.scheduler.running with
      | false => rfl
      | true =>
        rw [hrunning] at hunderway
        cases hunderway
    have hexcused := hx.due hidle hstale
    rw [hwaiting] at hexcused
    rcases hexcused with hfailed | hlate | ⟨_, hmem⟩
    · exact .inl hfailed
    · exact .inr hlate
    · cases hmem
  · rintro (⟨error, hfailed⟩ | hlate)
    · exact hx.failed error hfailed
    · exact hx.late hlate

end Watched

end Seat

theorem forall_run_watched (files : List Path) (endings : List Ending) (events : List Event) :
    ∀ x ∈ run files endings events, x.Watched :=
  forall_run_any (fun _ ending hfile => Seat.Watched.opened hfile ending) fun _ s hx => hx.step s

end InlineCheck.Watch
