import InlineCheck.Proofs.Scheduler.SingleFlight
import InlineCheck.Proofs.Since

/-!
# When a store is not stale

A document is checked again only if its store is stale, so it matters when the store is not.
Two cases are not what one would expect.  A refresh starts a check without making the store
stale, so the store may be fresh while a check is in flight, and also after that check failed.
Laying out a dirty document hides the diagnostics without making the store stale, so a fresh
store may show nothing.  Both cases are told exactly, in terms of the events of a run.

* `own_step_cases` says what one event does to the store and to the checks in flight.  It is the
  only place where the events are gone through one by one.
* `checking_fresh_iff` says when the store is fresh while a check is in flight, and
  `failed_cycle_keeps_store` what this means for a cycle that fails.
* `hidden_fresh_iff` says when a fresh store shows nothing, and `clean_layout_starts_iff` what
  this means for the next layout.

All of this needs that the host does not go past the scheduler.
-/

namespace InlineCheck.Scheduler

/-- How the oldest check in flight ends in the event, if the event is an end. -/
def Event.ending? : Event → Option Ending
  | finish ending => some ending
  | settle ending => some ending
  | _ => none

/-- A call starts at most one check. -/
theorem inFlight_call (s : Scheduler) (c : Call) :
    (s.call c).1.inFlight = s.inFlight ++ (s.call c).2.toList := by
  rw [call_eq]
  cases c.mode? s.store with
  | none => simp [ask, mapStore]
  | some mode =>
    rw [ask, trigger]
    split <;> simp [mapStore]

namespace History

/-- One of the events has the first property, and none of the later ones has the second one.
Whether an event has a property may depend on what happened before. -/
def Since (file : Path) (p q : History → Event → Prop) (events : List Event) : Prop :=
  InlineCheck.Since (fun before => p (run file before)) (fun before => q (run file before)) events

variable {h : History} {e : Event}

theorem since_concat {file : Path} {p q : History → Event → Prop} (events : List Event)
    (e : Event) :
    Since file p q (events ++ [e]) ↔
      p (run file events) e ∨ Since file p q events ∧ ¬ q (run file events) e :=
  InlineCheck.since_concat (p := fun before => p (run file before))
    (q := fun before => q (run file before)) events e

/-- A property that a new scheduler has not, that one kind of event brings about and that another
kind ends, holds since the last event of the first kind. -/
theorem iff_since {P : History → Prop} {p q : History → Event → Prop} {file : Path}
    (hnew : ¬ P (new file))
    (hstep : ∀ h e, Flight h → e.isOwn = true → (P (h.step e) ↔ p h e ∨ P h ∧ ¬ q h e))
    {events : List Event} (hown : ∀ e ∈ events, e.isOwn = true) :
    P (run file events) ↔ Since file p q events := by
  induction events using List.reverseRecOn with
  | nil => exact iff_of_false hnew not_since_nil
  | append_singleton events e ih =>
    have hearlier : ∀ e ∈ events, e.isOwn = true := by
      intro e he
      exact hown e (by simp [he])
    rw [run_concat, since_concat, ← ih hearlier]
    exact hstep _ e (.run file events) (hown e (by simp))

/-! ## What an event does -/

theorem store_ask (h : History) (mode? : Option CheckMode) :
    (h.ask mode?).scheduler.store = h.scheduler.store := by
  rcases h.ask_cases mode? with ⟨hsame, _⟩ | ⟨mode, _, hlaunch, _⟩
  · rw [hsame]
  · rw [hlaunch]
    rfl

theorem store_step_call (h : History) (c : Call) :
    (h.step (.call c)).scheduler.store = c.onStore h.scheduler.store := by
  rw [step_call, store_ask]
  rfl

theorem store_release (h : History) : h.release.scheduler.store = h.scheduler.store := by
  unfold release Scheduler.release
  split <;> rfl

theorem inFlight_release (h : History) :
    h.release.scheduler.inFlight = h.scheduler.inFlight := by
  unfold release Scheduler.release
  split <;> rfl

/-- An event in which a check ends changes the store as the end of the check does. -/
theorem step_of_ending {ending : Ending} (hends : e.ending? = some ending) :
    (h.step e).scheduler.store = (h.settle ending).scheduler.store ∧
      (h.step e).scheduler.inFlight = (h.settle ending).scheduler.inFlight ∧
      (h.step e).outcomes = (h.settle ending).outcomes := by
  cases e with
  | finish ending' =>
    obtain rfl := Option.some.inj hends
    exact ⟨store_release _, inFlight_release _, rfl⟩
  | settle ending' =>
    obtain rfl := Option.some.inj hends
    exact ⟨rfl, rfl, rfl⟩
  | call _ | release | drop _ => simp [Event.ending?] at hends

/-- A check that fails leaves the store as it was. -/
theorem settle_of_error {ending : Ending} {error : CheckError}
    (hfails : ending.index = .error error) :
    (h.settle ending).scheduler.store = h.scheduler.store ∧
      (h.scheduler.inFlight ≠ [] →
        (h.settle ending).outcomes = h.outcomes ++ [.failed error]) := by
  cases hflight : h.scheduler.inFlight with
  | nil => simp [settle_of_nil hflight]
  | cons cycle rest => simp [settle_of_cons hflight, Cycle.conclude, hfails]

/-- When a check ends, there is no other one in flight. -/
theorem Flight.inFlight_settle (hf : Flight h) (ending : Ending) :
    (h.settle ending).scheduler.inFlight = [] := by
  cases hflight : h.scheduler.inFlight with
  | nil => rw [settle_of_nil hflight, hflight]
  | cons cycle rest =>
    rw [settle_of_cons hflight]
    exact (hf.of_cons hflight).1

/-- What an event does, unless it is the end of a check.  Marks make the store stale.  Dirty
layouts hide the diagnostics and change nothing else.  Refreshes leave the store alone and may
start a check.  All other events leave a fresh store alone and start nothing while it is
fresh. -/
theorem own_step_cases (h : History) (hown : e.isOwn = true) (hends : e.ending? = none) :
    e.isMark = true ∧ (h.step e).scheduler.store.stale = true ∧ e ≠ .call .refresh ∧
        e ≠ .call (.signal (.layoutChanged true)) ∨
      e = .call (.signal (.layoutChanged true)) ∧
        (h.step e).scheduler.store = h.scheduler.store.clearVisible ∧
        (h.step e).scheduler.inFlight = h.scheduler.inFlight ∨
      e = .call .refresh ∧ (h.step e).scheduler.store = h.scheduler.store ∧
        (h.step e).scheduler.inFlight =
          h.scheduler.inFlight ++ h.scheduler.refresh.2.toList ∨
      e.isMark = false ∧ e ≠ .call .refresh ∧ e ≠ .call (.signal (.layoutChanged true)) ∧
        (h.step e).scheduler.store = h.scheduler.store ∧
        (h.scheduler.store.stale = false →
          (h.step e).scheduler.inFlight = h.scheduler.inFlight) := by
  cases e with
  | call c =>
    have hstore := h.store_step_call c
    have hflight : (h.step (.call c)).scheduler.inFlight = _ := h.scheduler.inFlight_call c
    rw [hstore, hflight]
    cases c with
    | signal signal =>
      cases signal with
      | edited | saved | reloaded => exact .inl ⟨rfl, rfl, by simp, by simp⟩
      | layoutChanged dirty =>
        cases dirty with
        | true => exact .inr (.inl ⟨rfl, rfl, by simp [call, signal]⟩)
        | false =>
          refine .inr (.inr (.inr ⟨rfl, by simp, by simp, rfl, ?_⟩))
          intro hfresh
          simp [call, signal, hfresh]
    | refresh => exact .inr (.inr (.inl ⟨rfl, rfl, rfl⟩))
    | checkContents text => exact .inl ⟨rfl, rfl, by simp, by simp⟩
    | markStale | clearVisible | replace _ => simp [Event.isOwn, Call.isOwn] at hown
  | finish _ | settle _ => simp [Event.ending?] at hends
  | release =>
    exact .inr (.inr (.inr ⟨rfl, by simp, by simp, store_release h,
      fun _ => inFlight_release h⟩))
  | drop number => exact .inr (.inr (.inr ⟨rfl, by simp, by simp, rfl, fun _ => rfl⟩))

/-! ## Fresh while a check is in flight -/

/-- A refresh starts a check of a document whose store is fresh. -/
def Rechecks (h : History) (e : Event) : Prop :=
  e = .call .refresh ∧ h.scheduler.store.stale = false ∧ h.scheduler.refresh.2.isSome = true

/-- The document is marked as changed, or a check ends. -/
def MarksOrEnds (_ : History) (e : Event) : Prop :=
  e.isMark = true ∨ e.ending?.isSome = true

/-- Of all events, only a refresh starts a check and leaves the store fresh.  That stays so until
a mark comes or the check ends. -/
theorem checking_fresh_step (hf : Flight h) (hown : e.isOwn = true) :
    (h.step e).scheduler.store.stale = false ∧ (h.step e).scheduler.inFlight ≠ [] ↔
      Rechecks h e ∨
        (h.scheduler.store.stale = false ∧ h.scheduler.inFlight ≠ []) ∧ ¬ MarksOrEnds h e := by
  cases hends : e.ending? with
  | some ending =>
    have hnone : (h.step e).scheduler.inFlight = [] := by
      rw [(step_of_ending hends).2.1, hf.inFlight_settle]
    have hcall : e ≠ .call .refresh := by
      intro he
      simp [he, Event.ending?] at hends
    simp [hnone, hcall, hends, Rechecks, MarksOrEnds]
  | none =>
    rcases h.own_step_cases hown hends with ⟨hmark, hstale, hcall, _⟩ | ⟨rfl, hstore, hflight⟩ |
      ⟨rfl, hstore, hflight⟩ | ⟨hmark, hcall, _, hstore, hflight⟩
    · simp [hmark, hstale, hcall, Rechecks, MarksOrEnds]
    · simp [hstore, hflight, Store.clearVisible, Rechecks, MarksOrEnds, Event.isMark, Call.isMark,
        Signal.isChange, Event.ending?]
    · rw [hstore, hflight]
      cases hstale : h.scheduler.store.stale <;> cases hstarted : h.scheduler.refresh.2 <;>
        simp [hstale, hstarted, Rechecks, MarksOrEnds, Event.isMark, Call.isMark, Event.ending?]
    · rw [hstore]
      cases hstale : h.scheduler.store.stale with
      | true => simp [hcall, Rechecks]
      | false => simp [hflight hstale, hmark, hcall, hends, Rechecks, MarksOrEnds]

/-- The store is fresh while a check is in flight exactly if a refresh of the fresh store started
that check and no mark came since. -/
theorem checking_fresh_iff (file : Path) {events : List Event}
    (hown : ∀ e ∈ events, e.isOwn = true) :
    (run file events).scheduler.store.stale = false ∧
        (run file events).scheduler.inFlight ≠ [] ↔
      Since file Rechecks MarksOrEnds events :=
  iff_since (P := fun h => h.scheduler.store.stale = false ∧ h.scheduler.inFlight ≠ [])
    (fun hnew => hnew.2 rfl) (fun _ _ => checking_fresh_step) hown

/-- A check that fails, dies or prints what cannot be read ends with an error, and leaves the
store as it was.  The store is stale then, unless a refresh started the check while the store was
fresh and no edit, save, reload or check of a text came since. -/
theorem failed_cycle_keeps_store (file : Path) {events : List Event}
    (hown : ∀ e ∈ events, e.isOwn = true) {e : Event} {ending : Ending} {error : CheckError}
    (hends : e.ending? = some ending) (hfails : ending.index = .error error)
    (hflight : (run file events).scheduler.inFlight ≠ []) :
    let before := run file events
    let after := before.step e
    after.outcomes = before.outcomes ++ [.failed error] ∧
      after.scheduler.store = before.scheduler.store ∧
      (after.scheduler.store.stale = false ↔ Since file Rechecks MarksOrEnds events) := by
  intro before after
  obtain ⟨hsettle, _, houtcomes⟩ := before.step_of_ending hends
  obtain ⟨hkept, hfailed⟩ := before.settle_of_error hfails
  have hstore : after.scheduler.store = before.scheduler.store := hsettle.trans hkept
  refine ⟨houtcomes.trans (hfailed hflight), hstore, ?_⟩
  rw [hstore, ← checking_fresh_iff file hown]
  exact (and_iff_left hflight).symm

/-- The dirty layout between the refresh and the end of its check makes no difference. -/
theorem failed_cycle_keeps_store_of_blank :
    let file : Path := ⟨"/p/a.js"⟩
    let events : List Event := [.call .refresh, .finish (.output "[[]]"), .call .refresh,
      .call (.signal (.layoutChanged true))]
    let e : Event := .finish (.output " ")
    let before := run file events
    let after := before.step e
    (∀ e ∈ events, e.isOwn = true) ∧ e.ending? = some (.output " ") ∧
      (Ending.output " ").index = .error .emptyOutput ∧ before.scheduler.inFlight ≠ [] ∧
      after.outcomes = before.outcomes ++ [.failed .emptyOutput] ∧
      after.scheduler.store = before.scheduler.store ∧
      Since file Rechecks MarksOrEnds events := by
  intro file events e before after
  have hown : ∀ e ∈ events, e.isOwn = true := by decide
  have hfails : (Ending.output " ").index = .error .emptyOutput := by
    rw [Ending.index, parse, if_pos (by decide +kernel)]
  have hflight : before.scheduler.inFlight ≠ [] := by decide +kernel
  have hfresh : after.scheduler.store.stale = false := by decide +kernel
  have hends : e.ending? = some (.output " ") := rfl
  -- The facts above are all that is needed of the events, so nothing is evaluated any more.
  clear_value events e
  obtain ⟨houtcomes, hstore, hstale⟩ :=
    failed_cycle_keeps_store file hown hends hfails hflight
  exact ⟨hown, hends, hfails, hflight, houtcomes, hstore, hstale.1 hfresh⟩

/-- After the refresh of a document that is up to date has failed, the store is not stale. -/
theorem failed_refresh_leaves_fresh :
    let events : List Event := [.call .refresh, .finish (.output "[[]]"), .call .refresh,
      .finish (.failed .emptyOutput)]
    let h := run ⟨"/p/a.js"⟩ events
    (∀ e ∈ events, e.isOwn = true) ∧ h.outcomes.getLast? = some (.failed .emptyOutput) ∧
      h.scheduler.store.stale = false := by
  decide +kernel

/-! ## Fresh and hidden -/

/-- A dirty document is laid out while its store is fresh. -/
def HidesFresh (h : History) (e : Event) : Prop :=
  e = .call (.signal (.layoutChanged true)) ∧ h.scheduler.store.stale = false

/-- The document is marked as changed, or a check ends with an output that can be read. -/
def Renews (h : History) (e : Event) : Prop :=
  e.isMark = true ∨ h.scheduler.inFlight ≠ [] ∧
    ∃ ending index, e.ending? = some ending ∧ ending.index = .ok index

/-- A check that succeeds leaves the store stale or visible, and one that fails leaves it as it
was. -/
theorem hidden_fresh_settle (h : History) (ending : Ending) :
    (h.settle ending).scheduler.store.stale = false ∧
        (h.settle ending).scheduler.store.visible = false ↔
      (h.scheduler.store.stale = false ∧ h.scheduler.store.visible = false) ∧
        ¬ (h.scheduler.inFlight ≠ [] ∧ ∃ index, ending.index = .ok index) := by
  cases hflight : h.scheduler.inFlight with
  | nil => simp [settle_of_nil hflight]
  | cons cycle rest =>
    cases hindex : ending.index with
    | error error => simp [(settle_of_error hindex).1]
    | ok index =>
      rw [settle_of_cons hflight]
      simp +contextual [Cycle.conclude, hindex]

/-- Of all events, only the layout of a dirty document hides what a fresh store shows.  That
stays so until a mark comes or a check succeeds. -/
theorem hidden_fresh_step (hown : e.isOwn = true) :
    (h.step e).scheduler.store.stale = false ∧ (h.step e).scheduler.store.visible = false ↔
      HidesFresh h e ∨
        (h.scheduler.store.stale = false ∧ h.scheduler.store.visible = false) ∧
          ¬ Renews h e := by
  cases hends : e.ending? with
  | some ending =>
    have hcall : e ≠ .call (.signal (.layoutChanged true)) := by
      intro he
      simp [he, Event.ending?] at hends
    have hmark : e.isMark = false := by
      cases e <;> simp [Event.ending?, Event.isMark] at *
    rw [(step_of_ending hends).1, hidden_fresh_settle]
    simp [hcall, hmark, hends, HidesFresh, Renews]
  | none =>
    rcases h.own_step_cases hown hends with ⟨hmark, hstale, _, hcall⟩ | ⟨rfl, hstore, _⟩ |
      ⟨rfl, hstore, _⟩ | ⟨hmark, _, hcall, hstore, _⟩
    · simp [hmark, hstale, hcall, HidesFresh, Renews]
    · rw [hstore]
      cases hstale : h.scheduler.store.stale <;>
        simp [hstale, Store.clearVisible, HidesFresh]
    · simp [hstore, HidesFresh, Renews, Event.isMark, Call.isMark, Event.ending?]
    · simp [hstore, hmark, hcall, hends, HidesFresh, Renews]

theorem hidden_fresh_iff (file : Path) {events : List Event}
    (hown : ∀ e ∈ events, e.isOwn = true) :
    (run file events).scheduler.store.stale = false ∧
        (run file events).scheduler.store.visible = false ↔
      Since file HidesFresh Renews events :=
  iff_since (P := fun h => h.scheduler.store.stale = false ∧ h.scheduler.store.visible = false)
    (by simp [new, Scheduler.new, Store.new]) (fun _ _ _ => hidden_fresh_step) hown

/-- While the diagnostics are hidden, the store is stale, so that the next clean layout starts a
check if the scheduler is idle.  There is one exception: the layout of a dirty document hid what a
fresh store showed, and since then no edit, save, reload or check of a text came and no check
succeeded. -/
theorem clean_layout_starts_iff (file : Path) (hfile : file.isCheckable = true)
    {events : List Event} (hown : ∀ e ∈ events, e.isOwn = true) :
    let s := (run file events).scheduler
    s.store.visible = false →
      (s.store.stale = true ↔ ¬ Since file HidesFresh Renews events) ∧
        (s.running = false →
          ((s.signal (.layoutChanged false)).2.isSome = true ↔
            ¬ Since file HidesFresh Renews events)) := by
  intro s hhidden
  have hstale : s.store.stale = true ↔ ¬ Since file HidesFresh Renews events := by
    rw [← hidden_fresh_iff file hown, and_iff_left hhidden, Bool.not_eq_false]
  refine ⟨hstale, fun hidle => ?_⟩
  have hsame : s.file = file := (file_kept file).run rfl fun _ _ => trivial
  have hstarts : (s.signal (.layoutChanged false)).2.isSome = true ↔ _ :=
    call_isSome_iff s (.signal (.layoutChanged false)) (hsame ▸ hfile)
  rw [hstarts, ← hstale, and_iff_right hidle, Call.mode?]
  cases s.store.stale <;> simp

/-- An edit after the dirty layout makes the store stale, and a check that dies does not show
anything again, so that the next clean layout starts a check. -/
theorem clean_layout_starts_after_edit :
    let file : Path := ⟨"/p/a.js"⟩
    let events : List Event := [.call .refresh, .finish (.output "[[]]"),
      .call (.signal (.layoutChanged true)), .call (.signal .edited), .call .refresh,
      .finish (.died "task 1 panicked")]
    let s := (run file events).scheduler
    file.isCheckable = true ∧ (∀ e ∈ events, e.isOwn = true) ∧ s.store.visible = false ∧
      s.running = false ∧ (s.signal (.layoutChanged false)).2.isSome = true ∧
      ¬ Since file HidesFresh Renews events := by
  intro file events s
  have hfile : file.isCheckable = true := by decide +kernel
  have hown : ∀ e ∈ events, e.isOwn = true := by decide
  have hhidden : s.store.visible = false := by decide +kernel
  have hidle : s.running = false := by decide +kernel
  have hstale : s.store.stale = true := by decide +kernel
  clear_value events
  obtain ⟨hiff, hstarts⟩ := clean_layout_starts_iff file hfile hown hhidden
  have hnot := hiff.1 hstale
  exact ⟨hfile, hown, hhidden, hidle, (hstarts hidle).2 hnot, hnot⟩

/-- The layout of a dirty document hides what a fresh store shows, and the next clean layout does
not start a check. -/
theorem dirty_layout_hides_fresh :
    let file : Path := ⟨"/p/a.js"⟩
    let events : List Event := [.call .refresh, .finish (.output "[[]]"),
      .call (.signal (.layoutChanged true))]
    let s := (run file events).scheduler
    file.isCheckable = true ∧ (∀ e ∈ events, e.isOwn = true) ∧ s.running = false ∧
      s.store.visible = false ∧ s.store.stale = false ∧
      (s.signal (.layoutChanged false)).2.isSome = false := by
  decide +kernel

end History

end InlineCheck.Scheduler
