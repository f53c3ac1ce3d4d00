import InlineCheck.Proofs.Watch.Forgotten
import Mathlib.Data.List.Perm.Basic

/-!
# What a watching run pays for

A cycle that ends may be followed up by another one, and that one by yet another.  Every check
after the first one is paid for by a change of the file, though.  A change that starts a check
pays for it at once.  A change that comes while a cycle is under way pays for the check that
follows up this cycle, and all changes during one cycle pay for one check only.

* `reserved` counts the checks that are paid for and did not begin yet.  `Paid` says that the
  changes suffice for them, and all parts of a step keep it.
* `Ledger` is a session with a list of what caused its checks.  `Charged` ties that list to the
  log.
* `getElem?_run` singles out one session of a run.
* `watch_never_feeds_itself` puts all of it together.
-/

namespace InlineCheck

/-- Whether a change came while the check was in flight. -/
def Outcome.isOvertaken : Outcome → Bool
  | .applied _ fresh => !fresh
  | .failed _ => false

theorem Outcome.isOvertaken_of_followUp? {outcome : Outcome} {store : Store} {mode : CheckMode}
    (hsome : outcome.followUp? store = some mode) : outcome.isOvertaken = true := by
  cases outcome with
  | failed error => cases hsome
  | applied diagnostics fresh =>
    cases fresh with
    | true => cases hsome
    | false => rfl

namespace Watch

open Scheduler (Log Moment)

/-- Whether the file changes in this step. -/
def Step.isChange : Step → Bool
  | change => true
  | _ => false

theorem cons_eraseIdx_perm {α : Type} {list : List α} {i : Nat} {a : α}
    (ha : list[i]? = some a) : (a :: list.eraseIdx i).Perm list := by
  obtain ⟨hlt, rfl⟩ := List.getElem?_eq_some_iff.1 ha
  exact List.getElem_cons_eraseIdx_perm hlt

namespace Seat

variable {x : Seat}

/-! ## Checks that are paid for -/

/-- The outcomes that were not handled yet, those of cycles that are not over among them. -/
def unhandled (x : Seat) : List Outcome :=
  x.waiting ++ x.session.scheduler.settled

/-- Whether a change came since the check in flight began. -/
def overtaken (x : Seat) : Bool :=
  x.next?.any fun began => began.changes < x.now.changes

/-- How many checks may follow up the cycles that were overtaken, one check for each of them. -/
def reserved (x : Seat) : Nat :=
  x.unhandled.countP Outcome.isOvertaken + x.overtaken.toNat

/-- The first check is free, and the changes pay for all others. -/
structure Paid (x : Seat) : Prop extends Sound x where
  paced : Paced x.history
  paid : x.starts.length + x.reserved ≤ x.now.changes + 1

theorem overtaken_of_nil (hx : Sound x) (hnone : x.session.scheduler.inFlight = []) :
    x.overtaken = false := by
  have hnext : x.next? = none := hx.current.toFlight.next?_of_nil hnone
  rw [overtaken, hnext]
  rfl

theorem overtaken_launch (hx : Sound x) (mode : CheckMode)
    (hidle : x.session.scheduler.running = false) : (x.launch mode).overtaken = false := by
  have hnext : (x.launch mode).next? = some x.now := hx.current.next?_launch mode hidle
  rw [overtaken, hnext]
  exact decide_eq_false (Nat.lt_irrefl _)

/-- An index is put in as outdated only if a change came while its check was in flight. -/
theorem exists_next?_of_isOvertaken (hx : Sound x) (hpaced : Paced x.history) {cycle : Cycle}
    {rest : List Cycle} (hcycle : x.session.scheduler.inFlight = cycle :: rest) {ending : Ending}
    (hovertaken : (cycle.conclude x.store ending).2.isOvertaken = true) :
    ∃ began, x.next? = some began ∧ began.changes < x.now.changes := by
  obtain ⟨began, hnext, hepoch⟩ := hx.current.began cycle (hcycle ▸ List.mem_cons_self)
  have hmem : began ∈ x.starts := List.mem_of_getElem? hnext
  refine ⟨began, hnext, Nat.lt_of_le_of_ne (hx.current.past began hmem).changes fun heq => ?_⟩
  rcases cycle.conclude_cases x.store ending with ⟨_, index, _, _, hend⟩ | ⟨error, _, hend⟩
  · have hmarks : began.marks = x.now.marks := by
      have hbegan : began.marks = began.changes := hpaced.starts began hmem
      have hnow : x.now.marks = x.now.changes := hpaced.now
      omega
    have hsame : x.store.epoch = cycle.began := by
      rw [hepoch, hmarks]
      exact hx.current.epoch
    rw [hend, Outcome.isOvertaken, Store.unchangedSince, hsame, beq_self_eq_true] at hovertaken
    cases hovertaken
  · rw [hend] at hovertaken
    cases hovertaken

theorem unhandled_settle {cycle : Cycle} {rest : List Cycle}
    (hcycle : x.session.scheduler.inFlight = cycle :: rest) (ending : Ending) :
    (x.settle ending).unhandled = x.unhandled ++ [(cycle.conclude x.store ending).2] := by
  rw [settle_of_cons hcycle]
  exact (List.append_assoc _ _ _).symm

theorem unhandled_release (x : Seat) : x.release.unhandled = x.unhandled := by
  rcases hsettled : x.session.scheduler.settled with _ | ⟨outcome, rest⟩
  · rw [release_of_nil hsettled]
  · rw [release_of_cons hsettled, unhandled, unhandled, hsettled]
    exact List.append_assoc _ _ _

/-- An outcome that is handled is not among the others any more. -/
theorem unhandled_take {number : Nat} {outcome : Outcome}
    (hwaiting : x.waiting[number]? = some outcome) :
    (outcome :: (x.take number outcome).unhandled).Perm x.unhandled :=
  (cons_eraseIdx_perm hwaiting).append_right _

namespace Paid

theorem opened {file : Path} (hfile : file.isCheckable = true) (ending : Ending) :
    Paid (opened file ending) := by
  have hsound := (Watched.opened hfile ending).toSound
  refine ⟨hsound, opened_history Paced.kept (.new file) ending, ?_⟩
  rcases opened_cases hfile ending with ⟨_, _, _, _, heq⟩ | ⟨_, _, heq⟩
  · rw [heq]
    exact Nat.le_refl 1
  · rw [heq]
    exact Nat.le_refl 1

theorem change (hx : Paid x) : Paid x.change := by
  have hsound := hx.toSound.receive
  have hpaced : Paced x.receive.history := Paced.kept.receive rfl hx.paced
  have hpaid := hx.paid
  have hnow : x.receive.now.changes = x.now.changes + 1 := rfl
  rw [reserved] at hpaid
  rw [change_eq]
  rcases x.receive.ask_cases (some .project) with ⟨heq, _⟩ | ⟨mode, _, heq, hidle⟩
  -- The check in flight is overtaken now, if it was not so before.
  · rw [heq]
    refine ⟨hsound, hpaced, ?_⟩
    have hone := Bool.toNat_le x.receive.overtaken
    show x.starts.length + (x.unhandled.countP Outcome.isOvertaken + x.receive.overtaken.toNat) ≤ _
    omega
  · rw [heq]
    refine ⟨hsound.launch mode hidle rfl, Paced.kept.launch mode hidle hpaced, ?_⟩
    rw [reserved, overtaken_launch hsound mode hidle, starts_launch, List.length_append]
    show x.starts.length + 1 + (x.unhandled.countP Outcome.isOvertaken + 0) ≤
      x.receive.now.changes + 1
    omega

theorem settle (hx : Paid x) (ending : Ending) : Paid (x.settle ending) := by
  have hsound := hx.toSound.settle ending
  have hpaced : Paced (x.settle ending).history := Paced.kept.settle ending hx.paced
  rcases hcycle : x.session.scheduler.inFlight with _ | ⟨cycle, rest⟩
  · rw [settle_of_nil hcycle]
    exact hx
  · refine ⟨hsound, hpaced, ?_⟩
    obtain ⟨rfl, _, _⟩ := hx.current.of_cons hcycle
    have hnone : (x.settle ending).session.scheduler.inFlight = [] := by
      rw [settle_of_cons hcycle]
    -- What was reserved for the check in flight is reserved for its outcome now.
    have hmoved : (if (cycle.conclude x.store ending).2.isOvertaken = true then 1 else 0) ≤
        x.overtaken.toNat := by
      split
      · rename_i hovertaken
        obtain ⟨began, hnext, hlt⟩ :=
          exists_next?_of_isOvertaken hx.toSound hx.paced hcycle hovertaken
        have hflag : x.overtaken = true := by
          rw [overtaken, hnext]
          exact decide_eq_true hlt
        rw [hflag]
        exact Nat.le_refl 1
      · exact Nat.zero_le _
    have hpaid := hx.paid
    rw [reserved] at hpaid
    rw [reserved, overtaken_of_nil hsound hnone, unhandled_settle hcycle, List.countP_append,
      List.countP_singleton, settle_of_cons hcycle]
    show x.starts.length + (_ + _ + 0) ≤ x.now.changes + 1
    omega

theorem release (hx : Paid x) : Paid x.release := by
  refine ⟨hx.toSound.release, Paced.kept.release hx.paced, ?_⟩
  have hpaid := hx.paid
  rw [reserved] at hpaid ⊢
  rw [unhandled_release]
  exact hpaid

theorem handle (hx : Paid x) (number : Nat) : Paid (x.handle number) := by
  rcases x.handle_cases number with ⟨heq, _⟩ | ⟨outcome, hwaiting, heq⟩
  · rw [heq]
    exact hx
  · have hsound := hx.toSound.take number outcome
    have hpaced : Paced (x.take number outcome).history := hx.paced
    have hcount := (unhandled_take hwaiting).countP_eq Outcome.isOvertaken
    rw [List.countP_cons] at hcount
    have hpaid := hx.paid
    rw [reserved, ← hcount] at hpaid
    rw [heq]
    rcases (x.take number outcome).ask_cases (outcome.followUp? x.store) with
      ⟨heq, _⟩ | ⟨mode, hmode, heq, hidle⟩
    · rw [heq]
      refine ⟨hsound, hpaced, ?_⟩
      show x.starts.length + (_ + x.overtaken.toNat) ≤ x.now.changes + 1
      omega
    -- The check that begins is the one that was reserved for the outcome.
    · rw [heq]
      have hstale := Outcome.stale_of_followUp? hmode
      rw [if_pos (Outcome.isOvertaken_of_followUp? hmode)] at hpaid
      refine ⟨hsound.launch mode hidle hstale, Paced.kept.launch mode hidle hpaced, ?_⟩
      rw [reserved, overtaken_launch hsound mode hidle, starts_launch, List.length_append]
      show x.starts.length + 1 + ((x.take number outcome).unhandled.countP _ + 0) ≤
        x.now.changes + 1
      omega

end Paid

theorem changes_step (x : Seat) (s : Step) :
    (x.step s).now.changes = x.now.changes + s.isChange.toNat := by
  have hsettle (ending : Ending) : (x.settle ending).now = x.now := x.history.now_settle ending
  cases s with
  | change =>
    show x.change.now.changes = x.now.changes + 1
    rw [change_eq]
    rcases x.receive.ask_cases (some .project) with ⟨heq, _⟩ | ⟨_, _, heq, _⟩
    · rw [heq]
      rfl
    · rw [heq]
      rfl
  | settle ending | finish ending => exact congrArg Moment.changes (hsettle ending)
  | release => rfl
  | handle number =>
    show (x.handle number).now.changes = x.now.changes
    rcases x.handle_cases number with ⟨heq, _⟩ | ⟨outcome, _, heq⟩
    · rw [heq]
    · rw [heq]
      rcases (x.take number outcome).ask_cases (outcome.followUp? x.store) with
        ⟨heq, _⟩ | ⟨_, _, heq, _⟩
      · rw [heq]
        rfl
      · rw [heq]
        rfl

theorem changes_foldl (x : Seat) (steps : List Step) :
    (steps.foldl step x).now.changes = x.now.changes + steps.countP Step.isChange := by
  induction steps generalizing x with
  | nil => rfl
  | cons s rest ih =>
    have hchange : (if s.isChange = true then 1 else 0) = s.isChange.toNat := by
      cases s.isChange <;> rfl
    rw [List.foldl_cons, ih, changes_step, List.countP_cons, hchange]
    omega

theorem file_step (x : Seat) (s : Step) : (x.step s).session.file = x.session.file :=
  (Kept.of_history (Scheduler.History.file_kept x.session.file) trivial).step rfl rfl

end Seat

/-! ## One session of a run -/

/-- Of all that happens to a run, a session takes the steps that concern it. -/
theorem getElem?_foldl {seats : List Seat} {i : Nat} {x : Seat} (hx : seats[i]? = some x)
    (events : List Event) :
    (events.foldl step seats)[i]? =
      some ((events.filterMap (Event.step? i x.session.file)).foldl Seat.step x) := by
  induction events generalizing seats x with
  | nil => exact hx
  | cons e rest ih =>
    have hone : (step seats e)[i]? =
        some ((e.step? i x.session.file).elim x x.step) := by
      rw [step, List.getElem?_mapIdx, hx]
      rfl
    rw [List.foldl_cons, ih hone, List.filterMap_cons]
    cases hstep : e.step? i x.session.file with
    | none => rfl
    | some s =>
      show some ((rest.filterMap (Event.step? i (x.step s).session.file)).foldl _ (x.step s)) = _
      rw [Seat.file_step]
      rfl

theorem getElem?_run {files : List Path} {endings : List Ending} {i : Nat} {file : Path}
    {ending : Ending} (hfile : (files.filter Path.isCheckable)[i]? = some file)
    (hending : endings[i]? = some ending) (events : List Event) :
    (run files endings events)[i]? =
      some ((events.filterMap (Event.step? i file)).foldl Seat.step (.opened file ending)) := by
  have hopened : (opened files endings)[i]? = some (Seat.opened file ending) := by
    rw [opened, List.getElem?_zipWith, hfile, hending]
  have hsame : (Seat.opened file ending).session.file = file :=
    Seat.opened_history (Scheduler.History.file_kept file) rfl ending
  rw [run, getElem?_foldl hopened, hsame]

end Watch
end InlineCheck
