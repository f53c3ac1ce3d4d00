import InlineCheck.Proofs.Watch.Ledger

/-!
# Which error a watched session tells

The outcomes of a session may wait together and be handled in any order, and each of them puts
its error in the place of the one before.  So a session tells the error of the cycle whose outcome
was handled last, which need not be the cycle that ended last.

* A `Delivery` is a ledger with the numbers of the cycles whose outcomes were handled, in the
  order in which that was done.
* `Ledger.step_cases` says what a step does to the outcomes and to the error, and `Told` is what
  all steps keep.
* `tells_error_handled_last` says it for one session of a run.
-/

namespace InlineCheck.Watch

open scoped List

theorem Seat.lastError_ask (x : Seat) (mode? : Option CheckMode) :
    (x.ask mode?).session.lastError = x.session.lastError := by
  rcases x.ask_cases mode? with ⟨heq, _⟩ | ⟨_, _, heq, _⟩
  · rw [heq]
  · rw [heq]
    rfl

namespace Ledger

variable {l : Ledger}

/-- The number of the cycle whose outcome is handled in the step, if there is one. -/
def handles? (l : Ledger) : Step → Option Nat
  | .handle number => if number < l.waiting.length then l.numbers[number]? else none
  | _ => none

/-- The step handles nothing, and no check ends in it. -/
structure Passes (l : Ledger) (s : Step) : Prop where
  handles : l.handles? s = none
  numbers : (l.step s).numbers = l.numbers
  outcomes : (l.step s).outcomes = l.outcomes
  lastError : (l.step s).session.lastError = l.session.lastError

/-- A check ends in the step. -/
structure Ends (l : Ledger) (s : Step) (outcome : Outcome) : Prop where
  handles : l.handles? s = none
  numbers : (l.step s).numbers = l.numbers ++ [l.outcomes.length]
  outcomes : (l.step s).outcomes = l.outcomes ++ [outcome]
  lastError : (l.step s).session.lastError = l.session.lastError

/-- The outcome of a cycle is handled in the step. -/
structure Handles (l : Ledger) (s : Step) (cycle : Nat) (outcome : Outcome) : Prop where
  handles : l.handles? s = some cycle
  numbers : (cycle :: (l.step s).numbers).Perm l.numbers
  ended : l.outcomes[cycle]? = some outcome
  outcomes : (l.step s).outcomes = l.outcomes
  lastError : (l.step s).session.lastError = outcome.error?

theorem settle_cases (l : Ledger) (ending : Ending) :
    l.settle ending = l ∨ ∃ outcome,
      (l.settle ending).numbers = l.numbers ++ [l.outcomes.length] ∧
        (l.settle ending).outcomes = l.outcomes ++ [outcome] ∧
        (l.settle ending).session.lastError = l.session.lastError := by
  cases hflight : l.session.scheduler.inFlight with
  | nil => exact .inl (settle_of_nil hflight ending)
  | cons cycle rest =>
    refine .inr ⟨(cycle.conclude l.store ending).2, ?_⟩
    rw [settle_of_cons hflight, Seat.settle_of_cons hflight]
    exact ⟨rfl, rfl, rfl⟩

theorem step_cases (hl : Charged l) (s : Step) :
    l.Passes s ∨ (∃ outcome, l.Ends s outcome) ∨ ∃ cycle outcome, l.Handles s cycle outcome := by
  cases s with
  | change =>
    refine .inl ⟨rfl, rfl, ?_, ?_⟩
    · show l.toSeat.change.outcomes = l.outcomes
      rw [l.toSeat.change_eq, Seat.outcomes_ask]
      rfl
    · show l.toSeat.change.session.lastError = l.session.lastError
      rw [l.toSeat.change_eq, Seat.lastError_ask]
      rfl
  | settle ending | finish ending =>
    rcases l.settle_cases ending with heq | ⟨outcome, hnumbers, houtcomes, herror⟩
    · exact .inl ⟨rfl, by simp [step, release, heq], by simp [step, release, Seat.release, heq],
        by simp [step, release, Seat.release, heq]⟩
    · exact .inr (.inl ⟨outcome, rfl, hnumbers, houtcomes, herror⟩)
  | release => exact .inl ⟨rfl, rfl, rfl, rfl⟩
  | handle number =>
    rcases l.toSeat.handle_cases number with ⟨heq, hnone⟩ | ⟨outcome, hwaiting, heq⟩
    · have hge : l.waiting.length ≤ number := List.getElem?_eq_none_iff.1 hnone
      have hself : l.step (.handle number) = l := by
        rw [step, handle, hnone, heq]
      refine .inl ⟨?_, by rw [hself], by rw [hself], by rw [hself]⟩
      rw [handles?, if_neg (by omega)]
    · obtain ⟨cycle, hcycle, houtcome⟩ := hl.exists_number hwaiting
      have hlt : number < l.waiting.length := (List.getElem?_eq_some_iff.1 hwaiting).1
      have hstep : l.step (.handle number) =
          { l.proceed (l.toSeat.handle number) (.outcome cycle) with
            numbers := l.numbers.eraseIdx number } := by
        rw [step, handle, hwaiting, hcycle]
      refine .inr (.inr ⟨cycle, outcome, ?_, ?_, houtcome, ?_, ?_⟩)
      · rw [handles?, if_pos hlt, hcycle]
      · rw [hstep]
        exact cons_eraseIdx_perm hcycle
      · rw [hstep]
        show (l.toSeat.handle number).outcomes = l.outcomes
        rw [heq, Seat.outcomes_ask]
        rfl
      · rw [hstep]
        show (l.toSeat.handle number).session.lastError = _
        rw [heq, Seat.lastError_ask]
        rfl

end Ledger

/-- A ledger with the order in which outcomes were handled. -/
structure Delivery extends Ledger where
  /-- The numbers of the cycles whose outcomes were handled, in that order. -/
  handled : List Nat

namespace Delivery

/-- A session after its first check, whose outcome was handled. -/
def opened (file : Path) (ending : Ending) : Delivery :=
  ⟨.opened file ending, [0]⟩

def step (d : Delivery) (s : Step) : Delivery :=
  ⟨d.toLedger.step s, d.handled ++ (d.handles? s).toList⟩

def run (file : Path) (ending : Ending) (steps : List Step) : Delivery :=
  steps.foldl step (opened file ending)

variable {d : Delivery}

theorem toLedger_run (file : Path) (ending : Ending) (steps : List Step) :
    (run file ending steps).toLedger = Ledger.run file ending steps := by
  have hfoldl : ∀ d : Delivery,
      (steps.foldl step d).toLedger = steps.foldl Ledger.step d.toLedger := by
    induction steps with
    | nil => exact fun _ => rfl
    | cons s rest ih => exact fun d => ih (d.step s)
  exact hfoldl (opened file ending)

/-- Every outcome was handled once or is still to be handled, and the error is that of the one
that was handled last. -/
structure Told (d : Delivery) : Prop where
  charged : Ledger.Charged d.toLedger
  each : (d.numbers ++ d.handled).Perm (List.range d.outcomes.length)
  error : ∃ cycle outcome, d.handled.getLast? = some cycle ∧
    d.outcomes[cycle]? = some outcome ∧ d.session.lastError = outcome.error?

namespace Told

theorem opened {file : Path} (hfile : file.isCheckable = true) (ending : Ending) :
    Told (opened file ending) := by
  have hcharged := Ledger.Charged.opened hfile ending
  have hfirst : ∃ outcome, (Seat.opened file ending).outcomes = [outcome] ∧
      (Seat.opened file ending).session.lastError = outcome.error? := by
    rcases Seat.opened_cases hfile ending with ⟨_, _, _, _, heq⟩ | ⟨_, _, heq⟩
    · rw [heq]
      exact ⟨_, rfl, rfl⟩
    · rw [heq]
      exact ⟨_, rfl, rfl⟩
  obtain ⟨outcome, houtcomes, herror⟩ := hfirst
  refine ⟨hcharged, ?_, 0, outcome, rfl, ?_, herror⟩
  · show [0].Perm (List.range (Seat.opened file ending).outcomes.length)
    rw [houtcomes]
    exact .refl _
  · show (Seat.opened file ending).outcomes[0]? = some outcome
    rw [houtcomes]
    rfl

theorem of_passes (hd : Told d) {s : Step} (hpasses : d.Passes s) : Told (d.step s) := by
  have hhandled : (d.step s).handled = d.handled := by simp [Delivery.step, hpasses.handles]
  have hnumbers : (d.step s).numbers = d.numbers := hpasses.numbers
  have houtcomes : (d.step s).outcomes = d.outcomes := hpasses.outcomes
  have herror : (d.step s).session.lastError = d.session.lastError := hpasses.lastError
  refine ⟨hd.charged.step s, ?_, ?_⟩
  · rw [hnumbers, hhandled, houtcomes]
    exact hd.each
  · rw [hhandled, houtcomes, herror]
    exact hd.error

theorem of_ends (hd : Told d) {s : Step} {ended : Outcome} (hends : d.Ends s ended) :
    Told (d.step s) := by
  have hhandled : (d.step s).handled = d.handled := by simp [Delivery.step, hends.handles]
  have hnumbers : (d.step s).numbers = d.numbers ++ [d.outcomes.length] := hends.numbers
  have houtcomes : (d.step s).outcomes = d.outcomes ++ [ended] := hends.outcomes
  have herror : (d.step s).session.lastError = d.session.lastError := hends.lastError
  refine ⟨hd.charged.step s, ?_, ?_⟩
  · rw [hnumbers, hhandled, houtcomes, List.length_append, List.length_singleton,
      List.range_succ]
    calc d.numbers ++ [d.outcomes.length] ++ d.handled
      _ = d.numbers ++ ([d.outcomes.length] ++ d.handled) := List.append_assoc _ _ _
      _ ~ d.numbers ++ (d.handled ++ [d.outcomes.length]) :=
        List.perm_append_comm.append_left _
      _ = d.numbers ++ d.handled ++ [d.outcomes.length] := (List.append_assoc _ _ _).symm
      _ ~ List.range d.outcomes.length ++ [d.outcomes.length] := hd.each.append_right _
  · obtain ⟨cycle, outcome, hlast, houtcome, hsame⟩ := hd.error
    rw [hhandled, houtcomes, herror]
    have hlt : cycle < d.outcomes.length := (List.getElem?_eq_some_iff.1 houtcome).1
    exact ⟨cycle, outcome, hlast, (List.getElem?_append_left hlt).trans houtcome, hsame⟩

theorem of_handles (hd : Told d) {s : Step} {cycle : Nat} {outcome : Outcome}
    (hhandles : d.Handles s cycle outcome) : Told (d.step s) := by
  have hhandled : (d.step s).handled = d.handled ++ [cycle] := by
    simp [Delivery.step, hhandles.handles]
  have houtcomes : (d.step s).outcomes = d.outcomes := hhandles.outcomes
  have herror : (d.step s).session.lastError = outcome.error? := hhandles.lastError
  refine ⟨hd.charged.step s, ?_, cycle, outcome, ?_, ?_, herror⟩
  · rw [hhandled, houtcomes]
    calc (d.step s).numbers ++ (d.handled ++ [cycle])
      _ = (d.step s).numbers ++ d.handled ++ [cycle] := (List.append_assoc _ _ _).symm
      _ ~ cycle :: ((d.step s).numbers ++ d.handled) := List.perm_append_singleton _ _
      _ ~ d.numbers ++ d.handled := hhandles.numbers.append_right _
      _ ~ List.range d.outcomes.length := hd.each
  · rw [hhandled, List.getLast?_concat]
  · rw [houtcomes]
    exact hhandles.ended

theorem step (hd : Told d) (s : Step) : Told (d.step s) := by
  rcases Ledger.step_cases hd.charged s with hpasses | ⟨_, hends⟩ | ⟨_, _, hhandles⟩
  · exact hd.of_passes hpasses
  · exact hd.of_ends hends
  · exact hd.of_handles hhandles

theorem run {file : Path} (hfile : file.isCheckable = true) (ending : Ending)
    (steps : List Step) : Told (run file ending steps) := by
  have hfoldl : ∀ d : Delivery, Told d → Told (steps.foldl Delivery.step d) := by
    induction steps with
    | nil => exact fun _ hd => hd
    | cons s rest ih => exact fun d hd => ih _ (hd.step s)
  exact hfoldl _ (opened hfile ending)

/-- When nothing is under way and no outcome waits, every outcome was handled. -/
theorem numbers_of_quiet (hd : Told d) (hquiet : d.Quiet) : d.numbers = [] := by
  have hnumbered := hd.charged.numbered
  rw [Seat.unhandled, hquiet.2, hquiet.settled] at hnumbered
  simpa using hnumbered

end Told

end Delivery

/-- Whatever happened to a watching run, and in whatever order outcomes were handled: each of its
sessions tells the error of the cycle whose outcome was handled last, if that cycle failed, and
none if it succeeded.  No outcome is handled twice, and when nothing is under way and no outcome
waits, all of them were handled.  If outcomes are handled in the order of their cycles, the error
is then that of the cycle that ended last. -/
theorem tells_error_handled_last {files : List Path} {endings : List Ending} {i : Nat}
    {file : Path} {ending : Ending} (hfile : (files.filter Path.isCheckable)[i]? = some file)
    (hending : endings[i]? = some ending) (events : List Event) :
    let d := Delivery.run file ending (events.filterMap (Event.step? i file))
    (run files endings events)[i]? = some d.toSeat ∧
      (∃ cycle outcome, d.handled.getLast? = some cycle ∧ d.outcomes[cycle]? = some outcome ∧
        d.session.lastError = outcome.error?) ∧
      d.handled.Nodup ∧
      (d.Quiet → d.handled.Perm (List.range d.outcomes.length)) ∧
      (d.Quiet → (∀ e ∈ events, e.all Step.isInOrder = true) →
        ∀ outcome, d.outcomes.getLast? = some outcome → d.session.lastError = outcome.error?) := by
  intro d
  have hcheckable : file.isCheckable = true := (List.mem_filter.1 (List.mem_of_getElem? hfile)).2
  have htold : d.Told := .run hcheckable ending _
  have hseat : d.toSeat = _ := congrArg Ledger.toSeat (Delivery.toLedger_run file ending _)
  have hrun : (run files endings events)[i]? = some d.toSeat := by
    rw [getElem?_run hfile hending, hseat, Ledger.toSeat_run]
  have heach := htold.each
  refine ⟨hrun, htold.error, ?_, fun hquiet => ?_, fun hquiet horder outcome hlast => ?_⟩
  · exact (List.nodup_append.1 (heach.nodup_iff.2 List.nodup_range)).2.1
  · rwa [htold.numbers_of_quiet hquiet, List.nil_append] at heach
  · have horderly : d.toSeat.Orderly :=
      forall_run (fun _ ending hfile _ => Seat.Orderly.opened hfile ending)
        (fun _ _ => Seat.Orderly.kept.step) horder _ (List.mem_of_getElem? hrun)
    exact horderly.lastError_eq hquiet.settled hquiet.2 hlast

/-- Two cycles fail, and their outcomes are handled in the wrong order.  The session tells the
error of the older one. -/
theorem tells_error_handled_last_of_swap :
    let files : List Path := [⟨"/p/README.md"⟩, ⟨"/p/a.js"⟩]
    let endings : List Ending := [.output "[[]]"]
    let events : List Event := [.session 0 .change, .session 0 (.finish (.failed .emptyOutput)),
      .session 0 .change, .session 0 (.settle (.died "task 1 panicked")), .session 0 .release,
      .session 0 (.handle 1), .session 0 (.handle 0)]
    let d := Delivery.run ⟨"/p/a.js"⟩ (.output "[[]]")
      (events.filterMap (Event.step? 0 ⟨"/p/a.js"⟩))
    (files.filter Path.isCheckable)[0]? = some ⟨"/p/a.js"⟩ ∧
      endings[0]? = some (.output "[[]]") ∧
      (run files endings events)[0]? = some d.toSeat ∧ d.handled = [0, 2, 1] ∧
      d.session.lastError = some CheckError.emptyOutput.message ∧
      d.handled.Perm (List.range d.outcomes.length) := by
  intro files endings events d
  have hfile : (files.filter Path.isCheckable)[0]? = some ⟨"/p/a.js"⟩ := by decide +kernel
  have hending : endings[0]? = some (.output "[[]]") := rfl
  have hhandled : d.handled = [0, 2, 1] := by decide +kernel
  have houtcome : d.outcomes[1]? = some (.failed .emptyOutput) := by decide +kernel
  have hquiet : d.Quiet := ⟨by decide +kernel, by decide +kernel⟩
  clear_value files endings events
  obtain ⟨hrun, ⟨cycle, outcome, hlast, hcycle, herror⟩, _, hall, _⟩ :=
    tells_error_handled_last hfile hending events
  rw [hhandled] at hlast
  obtain rfl : 1 = cycle := Option.some.inj hlast
  obtain rfl : .failed .emptyOutput = outcome := Option.some.inj (houtcome.symm.trans hcycle)
  exact ⟨hfile, hending, hrun, hhandled, herror, hall hquiet⟩

/-- The outcome of a cycle that failed is handled after that of the next cycle, which succeeded.
The session tells the old error, although nothing is under way and no outcome waits. -/
theorem late_outcome_brings_back_error :
    let events : List Event := [.session 0 .change, .session 0 (.finish (.failed .emptyOutput)),
      .session 0 .change, .session 0 (.finish (.output "[[]]")), .session 0 (.handle 1),
      .session 0 (.handle 0)]
    ∃ x ∈ run [⟨"/p/a.js"⟩] [.output "[[]]"] events, x.Quiet ∧
      x.outcomes.getLast? = some (.applied 0 true) ∧
      x.session.lastError = some CheckError.emptyOutput.message := by
  intro events
  have hfacts : (run [⟨"/p/a.js"⟩] [.output "[[]]"] events)[0]?.map (fun x =>
      (x.session.scheduler.underway, x.waiting, x.outcomes.getLast?, x.session.lastError)) =
        some (0, [], some (.applied 0 true), some CheckError.emptyOutput.message) := by
    decide +kernel
  obtain ⟨x, hx, heq⟩ := Option.map_eq_some_iff.1 hfacts
  obtain ⟨hnone, hwaiting, hlast, herror⟩ := by simpa only [Prod.mk.injEq] using heq
  exact ⟨x, List.mem_of_getElem? hx, ⟨hnone, hwaiting⟩, hlast, herror⟩

end InlineCheck.Watch
