import InlineCheck.Proofs.Watch.Charge

/-!
# What causes the checks of a watching run

A `Ledger` is a session with a list of what caused its checks.  A check after the first one is
caused by a change, or by an outcome that was handled, which the ledger knows by the number of
its cycle.  Nothing reads the ledger to decide anything.

* `Ledger.step` does what `Seat.step` does (`toSeat_step`) and keeps the list.
* `Charged` ties the list to the log, and all steps keep it.
* `watch_never_feeds_itself` says it for one session of a run.
-/

namespace InlineCheck.Watch

open Scheduler (Moment)

/-- What made a check begin. -/
inductive Cause
  | change
  /-- The outcome of a cycle was handled.  The cycles of a session are numbered from 0. -/
  | outcome (cycle : Nat)
deriving DecidableEq, Repr

def Cause.cycle? : Cause → Option Nat
  | change => none
  | outcome cycle => some cycle

/-- A session with a list of what caused its checks. -/
structure Ledger extends Seat where
  /-- What caused the checks after the first one, in the order in which they began. -/
  causes : List Cause
  /-- When the checks ended. -/
  ends : List Moment
  /-- The numbers of the cycles whose outcomes were not handled yet, the oldest first. -/
  numbers : List Nat

namespace Seat

theorem outcomes_ask (x : Seat) (mode? : Option CheckMode) :
    (x.ask mode?).outcomes = x.outcomes := by
  rcases x.ask_cases mode? with ⟨heq, _⟩ | ⟨_, _, heq, _⟩
  · rw [heq]
  · rw [heq]
    rfl

theorem unhandled_ask (x : Seat) (mode? : Option CheckMode) :
    (x.ask mode?).unhandled = x.unhandled := by
  rcases x.ask_cases mode? with ⟨heq, _⟩ | ⟨_, _, heq, _⟩
  · rw [heq]
  · rw [heq]
    rfl

theorem starts_ask (x : Seat) (mode? : Option CheckMode) :
    (x.ask mode?).starts = x.starts ∨
      mode?.isSome = true ∧ (x.ask mode?).starts = x.starts ++ [x.now] := by
  rcases x.ask_cases mode? with ⟨heq, _⟩ | ⟨mode, hmode, heq, _⟩
  · rw [heq]
    exact .inl rfl
  · rw [heq, hmode]
    exact .inr ⟨rfl, x.starts_launch mode⟩

theorem prefix_starts_ask (x : Seat) (mode? : Option CheckMode) :
    x.starts <+: (x.ask mode?).starts := by
  rcases x.starts_ask mode? with heq | ⟨_, heq⟩
  · exact heq ▸ List.prefix_rfl
  · exact heq ▸ List.prefix_append _ _

end Seat

namespace Ledger

/-- A session after its first check, which nothing caused. -/
def opened (file : Path) (ending : Ending) : Ledger :=
  ⟨.opened file ending, [], [(Seat.opened file ending).now], []⟩

/-- The session goes on, and what begins by that has the given cause. -/
def proceed (l : Ledger) (x : Seat) (cause : Cause) : Ledger :=
  { l with
    toSeat := x
    causes := l.causes ++ .replicate (x.starts.length - l.starts.length) cause }

def settle (l : Ledger) (ending : Ending) : Ledger :=
  match l.session.scheduler.inFlight with
  | [] => l
  | _ :: _ =>
    { l with
      toSeat := l.toSeat.settle ending
      ends := l.ends ++ [l.now]
      numbers := l.numbers ++ [l.outcomes.length] }

def release (l : Ledger) : Ledger :=
  { l with toSeat := l.toSeat.release }

def handle (l : Ledger) (number : Nat) : Ledger :=
  match l.waiting[number]?, l.numbers[number]? with
  | some _, some cycle =>
    { l.proceed (l.toSeat.handle number) (.outcome cycle) with
      numbers := l.numbers.eraseIdx number }
  | _, _ => { l with toSeat := l.toSeat.handle number }

def step (l : Ledger) : Step → Ledger
  | .change => l.proceed l.toSeat.change .change
  | .settle ending => l.settle ending
  | .release => l.release
  | .finish ending => (l.settle ending).release
  | .handle number => l.handle number

/-- The ledger of a session to which the given steps happened after its first check. -/
def run (file : Path) (ending : Ending) (steps : List Step) : Ledger :=
  steps.foldl step (opened file ending)

/-- The numbers of the cycles that were followed up. -/
def followed (l : Ledger) : List Nat :=
  l.causes.filterMap Cause.cycle?

/-- The file changed between the beginning of the check with the number and its end. -/
def ChangedDuring (l : Ledger) (cycle : Nat) : Prop :=
  ∃ began ended, l.starts[cycle]? = some began ∧ l.ends[cycle]? = some ended ∧
    began.changes < ended.changes

variable {l : Ledger}

/-! ## The session goes its way -/

theorem settle_of_nil (hnone : l.session.scheduler.inFlight = []) (ending : Ending) :
    l.settle ending = l := by
  rw [settle, hnone]

theorem settle_of_cons {cycle : Cycle} {rest : List Cycle}
    (hcycle : l.session.scheduler.inFlight = cycle :: rest) (ending : Ending) :
    l.settle ending =
      { l with
        toSeat := l.toSeat.settle ending
        ends := l.ends ++ [l.now]
        numbers := l.numbers ++ [l.outcomes.length] } := by
  rw [settle, hcycle]

theorem toSeat_settle (l : Ledger) (ending : Ending) :
    (l.settle ending).toSeat = l.toSeat.settle ending := by
  rcases hcycle : l.session.scheduler.inFlight with _ | ⟨cycle, rest⟩
  · rw [settle_of_nil hcycle, Seat.settle_of_nil hcycle]
  · rw [settle_of_cons hcycle]

theorem toSeat_step (l : Ledger) (s : Step) : (l.step s).toSeat = l.toSeat.step s := by
  cases s with
  | change | release => rfl
  | settle ending => exact l.toSeat_settle ending
  | finish ending => exact congrArg Seat.release (l.toSeat_settle ending)
  | handle number =>
    show (l.handle number).toSeat = l.toSeat.handle number
    rw [handle]
    split <;> rfl

theorem toSeat_run (file : Path) (ending : Ending) (steps : List Step) :
    (run file ending steps).toSeat = steps.foldl Seat.step (.opened file ending) := by
  have hfoldl : ∀ l : Ledger, (steps.foldl step l).toSeat = steps.foldl Seat.step l.toSeat := by
    induction steps with
    | nil => exact fun _ => rfl
    | cons s rest ih =>
      intro l
      rw [List.foldl_cons, ih, toSeat_step]
      rfl
  exact hfoldl (opened file ending)

/-! ## Causes and numbers -/

theorem followed_proceed (l : Ledger) (x : Seat) (cause : Cause) :
    (l.proceed x cause).followed =
      l.followed ++ (List.replicate (x.starts.length - l.starts.length) cause).filterMap
        Cause.cycle? :=
  List.filterMap_append

theorem followed_proceed_of_same {x : Seat} (hsame : x.starts = l.starts) (cause : Cause) :
    (l.proceed x cause).followed = l.followed := by
  rw [followed_proceed, hsame, Nat.sub_self]
  exact List.append_nil _

theorem followed_proceed_of_concat {x : Seat} {m : Moment} (hnew : x.starts = l.starts ++ [m])
    (cycle : Nat) : (l.proceed x (.outcome cycle)).followed = l.followed ++ [cycle] := by
  rw [followed_proceed, hnew, List.length_append, Nat.add_sub_cancel_left]
  rfl

/-- How the list of causes, the numbers and the log of a session fit together. -/
structure Charged (l : Ledger) : Prop extends Seat.Paid l.toSeat where
  begun : l.starts.length = l.causes.length + 1
  ended : l.ends.length = l.outcomes.length
  numbered : l.numbers.map (fun cycle => l.outcomes[cycle]?) = l.unhandled.map some
  overtaken : ∀ cycle outcome, l.outcomes[cycle]? = some outcome →
    outcome.isOvertaken = true → l.ChangedDuring cycle
  followed : ∀ cycle ∈ l.followed,
    ∃ outcome, l.outcomes[cycle]? = some outcome ∧ outcome.isOvertaken = true
  once : (l.numbers ++ l.followed).Nodup

theorem getElem?_of_prefix {α : Type} {xs ys : List α} (h : xs <+: ys) {i : Nat} {a : α}
    (ha : xs[i]? = some a) : ys[i]? = some a := by
  obtain ⟨hlt, rfl⟩ := List.getElem?_eq_some_iff.1 ha
  exact List.prefix_iff_getElem?.1 h i hlt

theorem ChangedDuring.mono {l' : Ledger} {cycle : Nat} (h : l.ChangedDuring cycle)
    (hstarts : l.starts <+: l'.starts) (hends : l.ends <+: l'.ends) : l'.ChangedDuring cycle := by
  obtain ⟨began, ended, hbegan, hended, hlt⟩ := h
  exact ⟨began, ended, getElem?_of_prefix hstarts hbegan, getElem?_of_prefix hends hended, hlt⟩

namespace Charged

theorem opened {file : Path} (hfile : file.isCheckable = true) (ending : Ending) :
    Charged (opened file ending) := by
  have hpaid := Seat.Paid.opened hfile ending
  rw [show Ledger.opened file ending = ⟨.opened file ending, [], [_], []⟩ from rfl]
  rcases Seat.opened_cases hfile ending with ⟨_, _, _, _, heq⟩ | ⟨_, _, heq⟩ <;>
  · rw [heq] at hpaid ⊢
    refine ⟨hpaid, rfl, rfl, rfl, fun cycle outcome hcycle hovertaken => ?_, nofun, List.nodup_nil⟩
    obtain rfl := List.mem_singleton.1 (List.mem_of_getElem? hcycle)
    cases hovertaken

/-- The cycle with a number that is kept has ended. -/
theorem exists_outcome (hl : Charged l) {cycle : Nat} (hmem : cycle ∈ l.numbers ++ l.followed) :
    ∃ outcome, l.outcomes[cycle]? = some outcome := by
  rcases List.mem_append.1 hmem with hmem | hmem
  · have hsome : l.outcomes[cycle]? ∈ l.unhandled.map some :=
      hl.numbered ▸ List.mem_map_of_mem hmem
    obtain ⟨outcome, _, heq⟩ := List.mem_map.1 hsome
    exact ⟨outcome, heq.symm⟩
  · obtain ⟨outcome, houtcome, _⟩ := hl.followed cycle hmem
    exact ⟨outcome, houtcome⟩

/-- Checks that begin leave the outcomes alone. -/
theorem proceed (hl : Charged l) {x : Seat} {cause : Cause} {numbers : List Nat}
    (hpaid : x.Paid) (houtcomes : x.outcomes = l.outcomes) (hstarts : l.starts <+: x.starts)
    (hnumbered : numbers.map (fun cycle => l.outcomes[cycle]?) = x.unhandled.map some)
    (hfollowed : ∀ cycle ∈ (l.proceed x cause).followed,
      ∃ outcome, l.outcomes[cycle]? = some outcome ∧ outcome.isOvertaken = true)
    (honce : (numbers ++ (l.proceed x cause).followed).Nodup) :
    Charged { l.proceed x cause with numbers := numbers } where
  toPaid := hpaid
  begun := by
    have hbegun := hl.begun
    have hle := hstarts.length_le
    show x.starts.length =
      (l.causes ++ .replicate (x.starts.length - l.starts.length) cause).length + 1
    rw [List.length_append, List.length_replicate]
    omega
  ended := hl.ended.trans (congrArg List.length houtcomes.symm)
  numbered := by
    show numbers.map (fun cycle => x.outcomes[cycle]?) = _
    rw [houtcomes]
    exact hnumbered
  overtaken cycle outcome hcycle hovertaken := by
    have hold : l.outcomes[cycle]? = some outcome := houtcomes ▸ hcycle
    exact (hl.overtaken cycle outcome hold hovertaken).mono hstarts List.prefix_rfl
  followed := by
    show ∀ cycle ∈ (l.proceed x cause).followed, ∃ outcome, x.outcomes[cycle]? = some outcome ∧ _
    rw [houtcomes]
    exact hfollowed
  once := honce

theorem change (hl : Charged l) : Charged (l.step .change) := by
  have hsame : (l.proceed l.toSeat.change .change).followed = l.followed := by
    rw [followed_proceed, List.filterMap_replicate]
    exact List.append_nil _
  have houtcomes : l.toSeat.change.outcomes = l.outcomes := by
    rw [l.toSeat.change_eq, Seat.outcomes_ask]
    rfl
  have hstarts : l.starts <+: l.toSeat.change.starts := by
    rw [l.toSeat.change_eq]
    exact Seat.prefix_starts_ask l.toSeat.receive _
  have hunhandled : l.toSeat.change.unhandled = l.unhandled := by
    rw [l.toSeat.change_eq, Seat.unhandled_ask]
    rfl
  exact hl.proceed hl.toPaid.change houtcomes hstarts (hunhandled ▸ hl.numbered)
    (hsame ▸ hl.followed) (hsame ▸ hl.once)

/-- The end of a check changes nothing about the cycles with numbers that are kept. -/
theorem getElem?_outcomes_settle (hl : Charged l) (ending : Ending) {cycle : Nat}
    (hmem : cycle ∈ l.numbers ++ l.followed) :
    (l.toSeat.settle ending).outcomes[cycle]? = l.outcomes[cycle]? := by
  obtain ⟨outcome, houtcome⟩ := hl.exists_outcome hmem
  rcases hcycle : l.session.scheduler.inFlight with _ | ⟨cycle, rest⟩
  · rw [Seat.settle_of_nil hcycle]
  · rw [Seat.settle_of_cons hcycle]
    exact List.getElem?_append_left (List.getElem?_eq_some_iff.1 houtcome).1

/-- The cycle that ends has the number of the outcomes before its own.  If its outcome is an
overtaken one, then the file changed since its check began. -/
theorem changedDuring_settle (hl : Charged l) (ending : Ending) {n : Nat} {outcome : Outcome}
    (hn : (l.settle ending).outcomes[n]? = some outcome) (hovertaken : outcome.isOvertaken = true) :
    (l.settle ending).ChangedDuring n := by
  rcases hcycle : l.session.scheduler.inFlight with _ | ⟨cycle, rest⟩
  · rw [settle_of_nil hcycle] at hn ⊢
    exact hl.overtaken n outcome hn hovertaken
  · have hstarts := l.toSeat.starts_settle ending
    rw [settle_of_cons hcycle] at hn ⊢
    have hn' : (l.outcomes ++ [(cycle.conclude l.store ending).2])[n]? = some outcome := by
      rw [← hn, Seat.settle_of_cons hcycle]
    rcases Nat.lt_trichotomy n l.outcomes.length with hlt | rfl | hgt
    · rw [List.getElem?_append_left hlt] at hn'
      exact (hl.overtaken n outcome hn' hovertaken).mono (hstarts ▸ List.prefix_rfl)
        (List.prefix_append _ _)
    · rw [List.getElem?_concat_length] at hn'
      obtain rfl := Option.some.inj hn'
      obtain ⟨began, hnext, hlt⟩ :=
        Seat.exists_next?_of_isOvertaken hl.toSound hl.paced hcycle hovertaken
      refine ⟨began, l.now, hstarts ▸ hnext, ?_, hlt⟩
      show (l.ends ++ [l.now])[l.outcomes.length]? = some l.now
      rw [← hl.ended, List.getElem?_concat_length]
    · rw [List.getElem?_eq_none (by rw [List.length_append]; exact hgt)] at hn'
      cases hn'

theorem settle (hl : Charged l) (ending : Ending) : Charged (l.settle ending) := by
  have hpaid : (l.settle ending).toSeat.Paid := by
    rw [toSeat_settle]
    exact hl.toPaid.settle ending
  have hchanged : ∀ n outcome, (l.settle ending).outcomes[n]? = some outcome →
      outcome.isOvertaken = true → (l.settle ending).ChangedDuring n :=
    fun _ _ hn hovertaken => hl.changedDuring_settle ending hn hovertaken
  rcases hcycle : l.session.scheduler.inFlight with _ | ⟨cycle, rest⟩
  · rw [settle_of_nil hcycle]
    exact hl
  · rw [settle_of_cons hcycle] at hpaid hchanged ⊢
    have houtcomes : (l.toSeat.settle ending).outcomes =
        l.outcomes ++ [(cycle.conclude l.store ending).2] := by rw [Seat.settle_of_cons hcycle]
    refine ⟨hpaid, ?_, ?_, ?_, hchanged, ?_, ?_⟩
    · exact (congrArg List.length (l.toSeat.starts_settle ending)).trans hl.begun
    · show (l.ends ++ [l.now]).length = (l.toSeat.settle ending).outcomes.length
      rw [houtcomes, List.length_append, List.length_append, hl.ended]
      rfl
    · show (l.numbers ++ [l.outcomes.length]).map
        (fun n => (l.toSeat.settle ending).outcomes[n]?) =
          (l.toSeat.settle ending).unhandled.map some
      rw [Seat.unhandled_settle hcycle, List.map_append, List.map_append, ← hl.numbered]
      refine congrArg₂ _ (List.map_congr_left fun n hn => ?_) ?_
      · exact hl.getElem?_outcomes_settle ending (List.mem_append_left _ hn)
      · rw [List.map_singleton, List.map_singleton, houtcomes, List.getElem?_concat_length]
    · intro n hn
      obtain ⟨outcome, houtcome, hovertaken⟩ := hl.followed n hn
      have hsame := hl.getElem?_outcomes_settle ending (List.mem_append_right _ hn)
      exact ⟨outcome, hsame.trans houtcome, hovertaken⟩
    · show ((l.numbers ++ [l.outcomes.length]) ++ l.followed).Nodup
      rw [List.append_assoc, List.singleton_append, List.perm_middle.nodup_iff, List.nodup_cons]
      refine ⟨fun hmem => ?_, hl.once⟩
      obtain ⟨outcome, houtcome⟩ := hl.exists_outcome hmem
      exact Nat.lt_irrefl _ (List.getElem?_eq_some_iff.1 houtcome).1

theorem release (hl : Charged l) : Charged l.release where
  toPaid := hl.toPaid.release
  begun := hl.begun
  ended := hl.ended
  numbered := by
    show _ = (l.toSeat.release).unhandled.map some
    rw [Seat.unhandled_release]
    exact hl.numbered
  overtaken := hl.overtaken
  followed := hl.followed
  once := hl.once

/-- The outcomes that were not handled yet are those of the cycles with the numbers. -/
theorem exists_number (hl : Charged l) {number : Nat} {outcome : Outcome}
    (hwaiting : l.waiting[number]? = some outcome) :
    ∃ cycle, l.numbers[number]? = some cycle ∧ l.outcomes[cycle]? = some outcome := by
  have hunhandled : l.unhandled[number]? = some outcome := by
    rw [Seat.unhandled, List.getElem?_append_left (List.getElem?_eq_some_iff.1 hwaiting).1,
      hwaiting]
  have hnumbered := congrArg (fun list => list[number]?) hl.numbered
  simp only [List.getElem?_map, hunhandled, Option.map_some, Option.map_eq_some_iff] at hnumbered
  exact hnumbered

theorem handle (hl : Charged l) (number : Nat) : Charged (l.handle number) := by
  have hpaid := hl.toPaid.handle number
  rcases l.toSeat.handle_cases number with ⟨heq, hnone⟩ | ⟨outcome, hwaiting, heq⟩
  · have hself : l.handle number = l := by
      rw [Ledger.handle, hnone, heq]
    rw [hself]
    exact hl
  · obtain ⟨cycle, hcycle, houtcome⟩ := hl.exists_number hwaiting
    have hlt := (List.getElem?_eq_some_iff.1 hwaiting).1
    have houtcomes : (l.toSeat.handle number).outcomes = l.outcomes := by
      rw [heq, Seat.outcomes_ask]
      rfl
    have hnumbered : (l.numbers.eraseIdx number).map (fun n => l.outcomes[n]?) =
        (l.toSeat.handle number).unhandled.map some := by
      rw [heq, Seat.unhandled_ask, ← List.eraseIdx_map, hl.numbered, List.eraseIdx_map]
      exact congrArg _ (List.eraseIdx_append_of_lt_length hlt _)
    have hproceed : l.handle number =
        { l.proceed (l.toSeat.handle number) (.outcome cycle) with
          numbers := l.numbers.eraseIdx number } := by
      rw [Ledger.handle, hwaiting, hcycle]
    rw [hproceed]
    have hmore := (l.toSeat.take number outcome).starts_ask (outcome.followUp? l.store)
    rw [← heq] at hmore
    have hstarts : l.starts <+: (l.toSeat.handle number).starts := by
      rw [heq]
      exact Seat.prefix_starts_ask (l.toSeat.take number outcome) _
    have hperm := (cons_eraseIdx_perm hcycle).append_right l.followed
    have honce := hperm.nodup_iff.2 hl.once
    rcases hmore with hsame | ⟨hsome, hnew⟩
    · have hfollowed := followed_proceed_of_same hsame (.outcome cycle)
      exact hl.proceed hpaid houtcomes hstarts hnumbered (hfollowed ▸ hl.followed)
        (hfollowed ▸ (List.nodup_cons.1 honce).2)
    · have hfollowed := followed_proceed_of_concat hnew cycle
      obtain ⟨mode, hmode⟩ := Option.isSome_iff_exists.1 hsome
      refine hl.proceed hpaid houtcomes hstarts hnumbered ?_ ?_
      · rw [hfollowed]
        intro n hn
        rcases List.mem_append.1 hn with hold | hnew
        · exact hl.followed n hold
        · rw [List.mem_singleton.1 hnew]
          exact ⟨outcome, houtcome, Outcome.isOvertaken_of_followUp? hmode⟩
      · rw [hfollowed, ← List.append_assoc]
        exact (List.perm_append_singleton _ _).nodup_iff.2 honce

theorem step (hl : Charged l) (s : Step) : Charged (l.step s) := by
  cases s with
  | change => exact hl.change
  | settle ending => exact hl.settle ending
  | release => exact hl.release
  | finish ending => exact (hl.settle ending).release
  | handle number => exact hl.handle number

theorem run {file : Path} (hfile : file.isCheckable = true) (ending : Ending)
    (steps : List Step) : Charged (run file ending steps) := by
  have hfoldl : ∀ l : Ledger, Charged l → Charged (steps.foldl Ledger.step l) := by
    induction steps with
    | nil => exact fun _ hl => hl
    | cons s rest ih => exact fun l hl => ih _ (hl.step s)
  exact hfoldl _ (opened hfile ending)

end Charged

theorem changes_run {file : Path} (hfile : file.isCheckable = true) (ending : Ending)
    (steps : List Step) :
    (run file ending steps).now.changes = steps.countP Step.isChange := by
  have hopened : (Seat.opened file ending).now.changes = 0 := by
    rcases Seat.opened_cases hfile ending with ⟨_, _, _, _, heq⟩ | ⟨_, _, heq⟩
    · rw [heq]
    · rw [heq]
  rw [toSeat_run, Seat.changes_foldl, hopened, Nat.zero_add]

end Ledger

/-- Whatever happened to a watching run, and in whatever order, the following is known of each of
its sessions.  Its checks after the first one are not more than the changes of its file.  No
outcome caused more than one of them, and an outcome caused one only if the file changed between
the beginning and the end of the check that the outcome is from. -/
theorem watch_never_feeds_itself {files : List Path} {endings : List Ending} {i : Nat}
    {file : Path} {ending : Ending} (hfile : (files.filter Path.isCheckable)[i]? = some file)
    (hending : endings[i]? = some ending) (events : List Event) :
    let l := Ledger.run file ending (events.filterMap (Event.step? i file))
    (run files endings events)[i]? = some l.toSeat ∧
      l.starts.length = 1 + l.causes.length ∧
      l.causes.length ≤ events.countP (fun e => (e.step? i file).any Step.isChange) ∧
      l.followed.Nodup ∧ ∀ cycle ∈ l.followed, l.ChangedDuring cycle := by
  intro l
  have hcheckable : file.isCheckable = true := (List.mem_filter.1 (List.mem_of_getElem? hfile)).2
  have hcharged : l.Charged := .run hcheckable ending _
  have hcount : (events.filterMap (Event.step? i file)).countP Step.isChange =
      events.countP fun e => (e.step? i file).any Step.isChange := by
    rw [List.countP_filterMap]
    refine List.countP_congr fun e _ => ?_
    cases e.step? i file <;> rfl
  refine ⟨?_, by rw [hcharged.begun, Nat.add_comm], ?_, ?_, fun cycle hcycle => ?_⟩
  · rw [getElem?_run hfile hending, Ledger.toSeat_run]
  · have hchanges : l.now.changes = _ := Ledger.changes_run hcheckable ending _
    have hpaid := hcharged.paid
    have hbegun := hcharged.begun
    rw [hchanges, hcount] at hpaid
    omega
  · exact (List.nodup_append.1 hcharged.once).2.1
  · obtain ⟨outcome, houtcome, hovertaken⟩ := hcharged.followed cycle hcycle
    exact hcharged.overtaken cycle outcome houtcome hovertaken

/-- Two of three changes come while the cycle of the first one is under way, and the outcome of
this cycle is followed up once.  The outcome of the cycle that follows it up starts nothing. -/
theorem watch_never_feeds_itself_of_burst :
    let host := Machine.host ⟨⟨[]⟩, [], [], ⟨"/"⟩, []⟩
    let files : List Path := [⟨"/p/README.md"⟩, ⟨"/p/a.js"⟩, ⟨"/p/b.js"⟩]
    let endings : List Ending := [.output "[[]]", .died "task 1 panicked"]
    let events : List Event := [.report host [⟨"/p/b.js"⟩, ⟨"/p/./b.js"⟩],
      .report host [⟨"/p/a.js"⟩, ⟨"/p/b.js"⟩], .session 1 .change,
      .session 1 (.finish (.output "[[]]")), .session 1 (.handle 0),
      .session 1 (.finish (.output "[[]]")), .session 1 (.handle 0)]
    let l := Ledger.run ⟨"/p/b.js"⟩ (.died "task 1 panicked")
      (events.filterMap (Event.step? 1 ⟨"/p/b.js"⟩))
    (files.filter Path.isCheckable)[1]? = some ⟨"/p/b.js"⟩ ∧
      endings[1]? = some (.died "task 1 panicked") ∧
      (run files endings events)[1]? = some l.toSeat ∧ l.causes = [.change, .outcome 1] ∧
      l.starts.length = 3 ∧ l.ChangedDuring 1 := by
  intro host files endings events l
  have hfile : (files.filter Path.isCheckable)[1]? = some ⟨"/p/b.js"⟩ := by decide +kernel
  have hending : endings[1]? = some (.died "task 1 panicked") := rfl
  have hcauses : l.causes = [.change, .outcome 1] := by decide +kernel
  obtain ⟨hrun, hstarts, _, _, hchanged⟩ := watch_never_feeds_itself hfile hending events
  refine ⟨hfile, hending, hrun, hcauses, ?_, hchanged 1 ?_⟩
  · rw [hstarts, hcauses]
    rfl
  · rw [Ledger.followed, hcauses]
    exact List.mem_singleton_self 1

end InlineCheck.Watch
