import InlineCheck.Proofs.Scheduler.History
import Mathlib.Data.List.Induction

/-!
# One cycle at a time

The flag that makes the next cycle wait is set when a cycle starts and taken back when it is
over, and many things may happen in between: calls that are refused, checks that fail or die,
handles that nobody waits for any more.  `Flight` is the invariant that keeps the flag and the
cycles in step.

* `Flight.kept` says that no step breaks it.
* `running_iff_inFlight` is about runs in which every check ends with its cycle, so that no cycle
  waits to be over (`settled_run`).
* `call_isSome_iff` says which calls start a cycle.
* `single_flight` puts the first and the last of them together for all runs.
-/

namespace InlineCheck.Scheduler

namespace History

/-- The flag is set exactly while one cycle is under way, and every check that was started gave
its outcome or is in flight. -/
structure Flight (h : History) : Prop where
  underway : h.scheduler.underway = h.scheduler.running.toNat
  checks : h.outcomes.length + h.scheduler.inFlight.length = h.handles.length

namespace Flight

variable {h : History}

theorem new (file : Path) : Flight (new file) := ⟨rfl, rfl⟩

theorem underway_le (hf : Flight h) : h.scheduler.underway ≤ 1 := by
  rw [hf.underway]
  exact Bool.toNat_le _

/-- While a check is in flight, it is the only one, and no other cycle waits to be over. -/
theorem of_cons (hf : Flight h) {cycle : Cycle} {rest : List Cycle}
    (hcycle : h.scheduler.inFlight = cycle :: rest) :
    rest = [] ∧ h.scheduler.settled = [] ∧ h.scheduler.running = true := by
  have hle := hf.underway_le
  have hrunning := hf.underway
  rw [Scheduler.underway, hcycle, List.length_cons] at hle hrunning
  refine ⟨List.eq_nil_of_length_eq_zero (by omega),
    List.eq_nil_of_length_eq_zero (by omega), ?_⟩
  cases hr : h.scheduler.running with
  | true => rfl
  | false =>
    rw [hr, Bool.toNat_false] at hrunning
    omega

/-- While no cycle is running, none is in flight and none waits to be over. -/
theorem of_idle (hf : Flight h) (hidle : h.scheduler.running = false) :
    h.scheduler.inFlight = [] ∧ h.scheduler.settled = [] := by
  have hnone := hf.underway
  rw [Scheduler.underway, hidle, Bool.toNat_false] at hnone
  exact ⟨List.eq_nil_of_length_eq_zero (by omega),
    List.eq_nil_of_length_eq_zero (by omega)⟩

/-- While a cycle waits to be over, no other one does, and no check is in flight. -/
theorem of_settled (hf : Flight h) {outcome : Outcome} {rest : List Outcome}
    (hsettled : h.scheduler.settled = outcome :: rest) :
    h.scheduler.inFlight = [] ∧ rest = [] := by
  have hle := hf.underway_le
  rw [Scheduler.underway, hsettled, List.length_cons] at hle
  exact ⟨List.eq_nil_of_length_eq_zero (by omega), List.eq_nil_of_length_eq_zero (by omega)⟩

theorem launch (hf : Flight h) (mode : CheckMode) (hidle : h.scheduler.running = false) :
    Flight (h.launch mode) := by
  obtain ⟨hflight, hsettled⟩ := hf.of_idle hidle
  have hchecks := hf.checks
  rw [hflight, List.length_nil] at hchecks
  constructor
  · show (h.scheduler.inFlight ++ [_]).length + h.scheduler.settled.length = 1
    rw [hflight, hsettled]
    rfl
  · show h.outcomes.length + (h.scheduler.inFlight ++ [_]).length = (h.handles ++ [_]).length
    rw [hflight, List.nil_append, List.length_singleton, List.length_append,
      List.length_singleton]
    omega

theorem settle (hf : Flight h) (ending : Ending) : Flight (h.settle ending) := by
  rcases hcycle : h.scheduler.inFlight with _ | ⟨cycle, rest⟩
  · rw [settle_of_nil hcycle]
    exact hf
  · obtain ⟨rfl, hsettled, hrunning⟩ := hf.of_cons hcycle
    have hchecks := hf.checks
    rw [hcycle, List.length_singleton] at hchecks
    rw [settle_of_cons hcycle]
    constructor
    · show 0 + (h.scheduler.settled ++ [_]).length = h.scheduler.running.toNat
      rw [hsettled, hrunning]
      rfl
    · show (h.outcomes ++ [_]).length + 0 = h.handles.length
      rw [List.length_append, List.length_singleton]
      exact hchecks

theorem release (hf : Flight h) : Flight h.release := by
  rw [History.release, Scheduler.release]
  split
  · exact hf
  · rename_i outcome rest hsettled
    obtain ⟨hflight, rfl⟩ := hf.of_settled hsettled
    refine ⟨?_, hf.checks⟩
    show h.scheduler.inFlight.length + 0 = 0
    rw [hflight, List.length_nil]

/-- Whatever happens to a scheduler, the flag and the cycles stay in step. -/
theorem kept : Kept (fun _ => True) Flight where
  receive _ hf := ⟨hf.underway, hf.checks⟩
  launch mode hidle hf := hf.launch mode hidle
  settle ending hf := hf.settle ending
  release hf := hf.release
  drop _ hf := ⟨hf.underway, hf.checks.trans (List.length_modify _ _ _).symm⟩

theorem run (file : Path) (events : List Event) : Flight (run file events) :=
  kept.run (new file) fun _ _ => trivial

end Flight

end History

/-! ## Checks that end with their cycles -/

/-- Whether a check that ends in this event ends its cycle, too. -/
def Event.isWhole : Event → Bool
  | settle _ => false
  | release => false
  | _ => true

namespace History

theorem settled_step {h : History} {e : Event} (hnone : h.scheduler.settled = [])
    (he : e.isWhole = true) : (h.step e).scheduler.settled = [] := by
  cases e with
  | call c =>
    rw [step_call]
    rcases (h.receive c).ask_cases (c.mode? h.scheduler.store) with
      ⟨hsame, _⟩ | ⟨mode, _, hlaunch, _⟩
    · rw [hsame]
      exact hnone
    · rw [hlaunch]
      exact hnone
  | finish ending =>
    rw [step]
    rcases hcycle : h.scheduler.inFlight with _ | ⟨cycle, rest⟩
    · rw [settle_of_nil hcycle, release, Scheduler.release, hnone]
      exact hnone
    · rw [settle_of_cons hcycle, hnone]
      rfl
  | drop number => exact hnone
  | settle ending | release => cases he

/-- As long as no check ends without its cycle, no cycle waits to be over. -/
theorem settled_run (file : Path) {events : List Event}
    (hwhole : ∀ e ∈ events, e.isWhole = true) : (run file events).scheduler.settled = [] := by
  induction events using List.reverseRecOn with
  | nil => rfl
  | append_singleton events e ih =>
    rw [run_concat]
    exact settled_step (ih fun e he => hwhole e (by simp [he])) (hwhole e (by simp))

/-- As long as no check ends without its cycle, the scheduler is running exactly while a check is
in flight. -/
theorem running_iff_inFlight (file : Path) {events : List Event}
    (hwhole : ∀ e ∈ events, e.isWhole = true) :
    (run file events).scheduler.running = true ↔ (run file events).scheduler.inFlight ≠ [] := by
  have hunderway := (Flight.run file events).underway
  rw [underway, settled_run file hwhole, List.length_nil, Nat.add_zero] at hunderway
  rw [← List.length_pos_iff, hunderway]
  cases (run file events).scheduler.running <;> decide

end History

/-! ## Which calls start a cycle -/

/-- A call starts a cycle exactly if it asks for a check, no cycle is running, and the file is
one that is checked. -/
theorem call_isSome_iff (s : Scheduler) (c : Call) (hfile : s.file.isCheckable = true) :
    (s.call c).2.isSome = true ↔ s.running = false ∧ (c.mode? s.store).isSome = true := by
  rw [call_eq]
  cases hmode : c.mode? s.store with
  | none => exact ⟨fun h => absurd h Bool.false_ne_true, fun h => absurd h.2 Bool.false_ne_true⟩
  | some mode =>
    rw [ask, trigger, mapStore, hfile, Bool.true_and]
    cases hrunning : s.running with
    | true =>
      exact ⟨fun h => absurd h Bool.false_ne_true, fun h => absurd h.1.symm Bool.false_ne_true⟩
    | false => exact ⟨fun _ => ⟨rfl, rfl⟩, fun _ => rfl⟩

/-- However a run goes, at most one cycle is under way, and one is exactly while the scheduler
is running; if all checks end with their cycles, that is exactly while a check is in flight
(`running_iff_inFlight`).  Every check that was ever started gave its outcome or is in flight, and
there are as many of them as handles that were given out.  A refresh, a save, a reload and a check
of a text start a cycle exactly if the scheduler is idle; a clean layout does so exactly if the
store is stale, too. -/
theorem single_flight (file : Path) (hfile : file.isCheckable = true) (events : List Event) :
    let h := History.run file events
    let s := h.scheduler
    s.underway ≤ 1 ∧
      (s.running = true ↔ s.underway = 1) ∧
      h.outcomes.length + s.inFlight.length = h.handles.length ∧
      (s.refresh.2.isSome = true ↔ s.running = false) ∧
      ((s.signal .saved).2.isSome = true ↔ s.running = false) ∧
      ((s.signal .reloaded).2.isSome = true ↔ s.running = false) ∧
      (∀ text, (s.checkContents text).2.isSome = true ↔ s.running = false) ∧
      ((s.signal (.layoutChanged false)).2.isSome = true ↔
        s.running = false ∧ s.store.stale = true) := by
  intro h s
  have hflight : History.Flight h := .run file events
  have hsame : s.file = file := (History.file_kept file).run rfl fun _ _ => trivial
  have hcall := fun c => call_isSome_iff s c (hsame ▸ hfile)
  have hasked : ∀ c, (c.mode? s.store).isSome = true →
      ((s.call c).2.isSome = true ↔ s.running = false) := fun c hc =>
    (hcall c).trans (and_iff_left hc)
  refine ⟨hflight.underway_le, ?_, hflight.checks, hasked .refresh rfl,
    hasked (.signal .saved) rfl, hasked (.signal .reloaded) rfl,
    fun text => hasked (.checkContents text) rfl, ?_⟩
  · rw [show s.underway = s.running.toNat from hflight.underway]
    cases s.running <;> decide
  · refine (hcall (.signal (.layoutChanged false))).trans (and_congr_right fun _ => ?_)
    rw [Call.mode?]
    cases s.store.stale <;> decide

/-- A check that dies without anyone waiting for it does not hold up the next one. -/
theorem refresh_after_lost_check :
    let file : Path := ⟨"/p/a.js"⟩
    let s := (History.run file [.call (.signal .saved), .drop 0, .call (.checkContents "x"),
      .finish (.died "task 1 panicked")]).scheduler
    file.isCheckable = true ∧ s.running = false ∧ s.refresh.2.isSome = true := by
  intro file s
  have hfile : file.isCheckable = true := by decide +kernel
  have hidle : s.running = false := by decide +kernel
  obtain ⟨_, _, _, hrefresh, _⟩ := single_flight file hfile
    [.call (.signal .saved), .drop 0, .call (.checkContents "x"),
      .finish (.died "task 1 panicked")]
  exact ⟨hfile, hidle, hrefresh.2 hidle⟩

end InlineCheck.Scheduler
