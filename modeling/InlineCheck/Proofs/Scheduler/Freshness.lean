import InlineCheck.Proofs.Scheduler.SingleFlight

/-!
# What the store shows is up to date

Whether an index is up to date is decided by two numbers: the epoch of the store when the check
began, and the epoch when it ends.  This module says what that decision is worth over whole
runs.

* Moments.  `Moment.UpTo` is the order of what had been received at two moments.  The epoch is
  the number of marks as a 64-bit word, so it tells two moments apart unless a multiple of
  `2 ^ 64` marks lies between them (`marks_eq_of_epoch_eq`).
* `Timed` ties the epochs that the cycles remember to the log.  All parts of a step keep it,
  whatever the host calls.
* `Current` ties the store to the log: where its index comes from, and what it means that it
  is not stale.  It holds as long as the host does not go past the scheduler.
* `Shown` adds what it means that the diagnostics are visible.
-/

namespace InlineCheck.Scheduler

/-! ## Moments -/

/-- The second moment is not before the first one.  Every change between them was also
marked. -/
structure Moment.UpTo (m n : Moment) : Prop where
  marks : m.marks ≤ n.marks
  changes : m.changes ≤ n.changes
  marked : n.changes + m.marks ≤ m.changes + n.marks

namespace Moment.UpTo

variable {l m n : Moment}

theorem refl (m : Moment) : UpTo m m :=
  ⟨Nat.le_refl _, Nat.le_refl _, Nat.le_refl _⟩

theorem trans (h : UpTo l m) (h' : UpTo m n) : UpTo l n := by
  have hl := h.marked
  have hm := h'.marked
  exact ⟨Nat.le_trans h.marks h'.marks, Nat.le_trans h.changes h'.changes, by omega⟩

/-- Without a mark in between there is no change in between. -/
theorem changes_eq (h : UpTo m n) (hmarks : m.marks = n.marks) : m.changes = n.changes := by
  have hle := h.changes
  have hmarked := h.marked
  omega

end Moment.UpTo

namespace Call

/-- Every change is a mark. -/
theorem isChange_le_isMark (c : Call) : c.isChange.toNat ≤ c.isMark.toNat := by
  cases c with
  | signal signal => exact Nat.le_refl _
  | refresh | checkContents _ | markStale | clearVisible | replace _ => exact Nat.zero_le _

/-- The epoch counts the marks. -/
theorem onStore_epoch (c : Call) (store : Store) :
    (c.onStore store).epoch = store.epoch + .ofNat c.isMark.toNat := by
  have hsame : store.epoch = store.epoch + .ofNat 0 := (UInt64.add_zero _).symm
  cases c with
  | signal signal =>
    cases signal with
    | edited | saved | reloaded => rfl
    | layoutChanged dirty => cases dirty <;> exact hsame
  | checkContents _ | markStale => rfl
  | refresh | clearVisible | replace _ => exact hsame

/-- A call that does not go past the scheduler leaves the index alone.  After a mark the store
is stale, and after a change nothing is visible. -/
theorem onStore_own {c : Call} (hown : c.isOwn = true) (store : Store) :
    (c.onStore store).index = store.index ∧
      ((c.onStore store).stale = false → store.stale = false ∧ c.isMark = false) ∧
      ((c.onStore store).visible = true → store.visible = true ∧ c.isChange = false) := by
  cases c with
  | signal signal =>
    cases signal with
    | edited | saved | reloaded => exact ⟨rfl, nofun, nofun⟩
    | layoutChanged dirty =>
      cases dirty with
      | true => exact ⟨rfl, fun h => ⟨h, rfl⟩, nofun⟩
      | false => exact ⟨rfl, fun h => ⟨h, rfl⟩, fun h => ⟨h, rfl⟩⟩
  | refresh => exact ⟨rfl, fun h => ⟨h, rfl⟩, fun h => ⟨h, rfl⟩⟩
  | checkContents _ => exact ⟨rfl, nofun, fun h => ⟨h, rfl⟩⟩
  | markStale | clearVisible | replace _ => cases hown

end Call

theorem Log.upTo_receive (l : Log) (c : Call) : l.now.UpTo (l.receive c).now := by
  have hle := c.isChange_le_isMark
  refine ⟨Nat.le_add_right _ _, Nat.le_add_right _ _, ?_⟩
  show l.now.changes + c.isChange.toNat + l.now.marks ≤
    l.now.changes + (l.now.marks + c.isMark.toNat)
  omega

/-- The epoch tells two numbers of marks apart that are less than its range apart. -/
theorem marks_eq_of_epoch_eq {a b : Nat} (heq : UInt64.ofNat a = UInt64.ofNat b) (hle : a ≤ b)
    (hlt : b < a + UInt64.size) : a = b := by
  have hmod := congrArg UInt64.toNat heq
  rw [UInt64.toNat_ofNat', UInt64.toNat_ofNat'] at hmod
  rw [UInt64.size] at hlt
  omega

namespace History

variable {h : History}

/-! ## The epochs that cycles remember -/

/-- The epoch is the number of marks, and the check in flight remembers that of the moment when
it began. -/
structure Timed (h : History) : Prop extends Flight h where
  epoch : h.scheduler.store.epoch = .ofNat h.now.marks
  began : ∀ cycle ∈ h.scheduler.inFlight,
    ∃ m, h.next? = some m ∧ cycle.began = .ofNat m.marks
  past : ∀ m ∈ h.starts, m.UpTo h.now

/-- The check that was started last is the next one to end, if no other one is in flight. -/
theorem Flight.next?_launch (hf : Flight h) (mode : CheckMode)
    (hidle : h.scheduler.running = false) : (h.launch mode).next? = some h.now := by
  have hchecks := hf.checks
  rw [(hf.of_idle hidle).1, List.length_nil, Nat.add_zero] at hchecks
  show ((h.handles ++ [Handle.mk h.now true]).map Handle.began)[h.outcomes.length]? = some h.now
  rw [hchecks, List.getElem?_map, List.getElem?_concat_length]
  rfl

/-- While no check is in flight, none ends next. -/
theorem Flight.next?_of_nil (hf : Flight h) (hnone : h.scheduler.inFlight = []) :
    h.next? = none := by
  have hchecks := hf.checks
  rw [hnone, List.length_nil, Nat.add_zero] at hchecks
  refine List.getElem?_eq_none ?_
  rw [Log.starts, List.length_map]
  exact Nat.le_of_eq hchecks.symm

/-- Once the check in flight has ended, there is no next one. -/
theorem Flight.next?_settle (hf : Flight h) {cycle : Cycle} {rest : List Cycle}
    (hcycle : h.scheduler.inFlight = cycle :: rest) (ending : Ending) :
    (h.settle ending).next? = none := by
  refine (hf.settle ending).next?_of_nil ?_
  rw [settle_of_cons hcycle]
  exact (hf.of_cons hcycle).1

namespace Timed

theorem new (file : Path) : Timed (new file) :=
  ⟨.new file, rfl, nofun, nofun⟩

theorem receive (ht : Timed h) (c : Call) : Timed (h.receive c) where
  toFlight := Flight.kept.receive trivial ht.toFlight
  epoch := by
    show (c.onStore h.scheduler.store).epoch = .ofNat (h.now.marks + c.isMark.toNat)
    rw [c.onStore_epoch, ht.epoch, UInt64.ofNat_add]
  began := ht.began
  past m hm := (ht.past m hm).trans (h.upTo_receive c)

theorem launch (ht : Timed h) (mode : CheckMode) (hidle : h.scheduler.running = false) :
    Timed (h.launch mode) where
  toFlight := ht.toFlight.launch mode hidle
  epoch := ht.epoch
  began cycle hcycle := by
    refine ⟨h.now, ht.next?_launch mode hidle, ?_⟩
    have hmem : cycle ∈ h.scheduler.inFlight ++ [_] := hcycle
    rw [(ht.of_idle hidle).1, List.nil_append, List.mem_singleton] at hmem
    rw [hmem]
    exact ht.epoch
  past m hm := by
    have hmem : m ∈ (h.handles ++ [Handle.mk h.now true]).map Handle.began := hm
    rw [List.map_append, List.mem_append, List.map_singleton, List.mem_singleton] at hmem
    rcases hmem with hold | rfl
    · exact ht.past m hold
    · exact .refl _

theorem settle (ht : Timed h) (ending : Ending) : Timed (h.settle ending) := by
  have hflight := ht.toFlight.settle ending
  rcases hcycle : h.scheduler.inFlight with _ | ⟨cycle, rest⟩
  · rw [settle_of_nil hcycle]
    exact ht
  · obtain ⟨rfl, _, _⟩ := ht.of_cons hcycle
    rw [settle_of_cons hcycle] at hflight ⊢
    exact ⟨hflight, (cycle.conclude_epoch _ _).trans ht.epoch, nofun, ht.past⟩

theorem release (ht : Timed h) : Timed h.release := by
  have hflight := ht.toFlight.release
  rw [History.release, Scheduler.release] at hflight ⊢
  split at hflight
  · exact ht
  · exact ⟨hflight, ht.epoch, ht.began, ht.past⟩

theorem drop (ht : Timed h) (number : Nat) : Timed (h.drop number) := by
  have hstarts := h.starts_drop number
  refine ⟨Flight.kept.drop number ht.toFlight, ht.epoch, fun cycle hcycle => ?_, ?_⟩
  · show ∃ m, (h.toLog.drop number).starts[h.outcomes.length]? = some m ∧ _
    rw [hstarts]
    exact ht.began cycle hcycle
  · show ∀ m ∈ (h.toLog.drop number).starts, _
    rw [hstarts]
    exact ht.past

/-- A check in flight that ends with an output that can be read is the last such check from then
on. -/
theorem appliedAfter (ht : Timed h) {cycle : Cycle} {rest : List Cycle}
    (hcycle : h.scheduler.inFlight = cycle :: rest) {text : String} {index : Index}
    (hparse : parse text = .ok index) :
    ∃ m, h.next? = some m ∧ m ∈ h.starts ∧ cycle.began = .ofNat m.marks ∧
      h.appliedAfter (.output text) = some ⟨text, m⟩ := by
  have hmem : cycle ∈ h.scheduler.inFlight := hcycle ▸ List.mem_cons_self
  obtain ⟨m, hnext, hbegan⟩ := ht.began cycle hmem
  refine ⟨m, hnext, List.mem_of_getElem? hnext, hbegan, ?_⟩
  rw [h.appliedAfter_of_ok hparse, hnext]
  rfl

end Timed

/-! ## Where the index comes from -/

/-- The index is the one that the checks found.  While the store is not stale, its epoch is that
of the check behind the index. -/
structure Current (h : History) : Prop extends Timed h where
  index : h.toLog.index = .ok h.scheduler.store.index
  begun : ∀ a, h.applied? = some a → a.began ∈ h.starts
  fresh : h.scheduler.store.stale = false →
    ∃ a, h.applied? = some a ∧ h.scheduler.store.epoch = .ofNat a.began.marks

namespace Current

theorem new (file : Path) : Current (new file) :=
  ⟨.new file, rfl, nofun, nofun⟩

theorem receive (hc : Current h) {c : Call} (hown : c.isOwn = true) :
    Current (h.receive c) := by
  obtain ⟨hindex, hstale, _⟩ := c.onStore_own hown h.scheduler.store
  refine ⟨hc.toTimed.receive c, ?_, hc.begun, ?_⟩
  · show h.toLog.index = .ok (c.onStore h.scheduler.store).index
    rw [hindex]
    exact hc.index
  · intro hnot
    obtain ⟨hwas, hmark⟩ := hstale hnot
    obtain ⟨a, happlied, hepoch⟩ := hc.fresh hwas
    refine ⟨a, happlied, ?_⟩
    show (c.onStore h.scheduler.store).epoch = .ofNat a.began.marks
    rw [c.onStore_epoch, hmark, hepoch]
    exact UInt64.add_zero _

theorem launch (hc : Current h) (mode : CheckMode) (hidle : h.scheduler.running = false) :
    Current (h.launch mode) where
  toTimed := hc.toTimed.launch mode hidle
  index := hc.index
  begun a happlied := by
    show a.began ∈ (h.handles ++ [Handle.mk h.now true]).map Handle.began
    rw [List.map_append]
    exact List.mem_append_left _ (hc.begun a happlied)
  fresh := hc.fresh

theorem settle (hc : Current h) (ending : Ending) : Current (h.settle ending) := by
  have htimed := hc.toTimed.settle ending
  rcases hcycle : h.scheduler.inFlight with _ | ⟨cycle, rest⟩
  · rw [settle_of_nil hcycle]
    exact hc
  · rw [settle_of_cons hcycle] at htimed ⊢
    rcases cycle.conclude_cases h.scheduler.store ending with
      ⟨text, index, rfl, hparse, heq⟩ | ⟨error, herror, heq⟩
    · obtain ⟨m, _, hmem, hbegan, happlied⟩ := hc.appliedAfter hcycle hparse
      refine ⟨htimed, ?_, ?_, ?_⟩
      · show Log.index { h.toLog with outcomes := _, applied? := _ } = _
        rw [heq, Log.index, happlied]
        exact hparse
      · show ∀ a, h.appliedAfter (.output text) = some a → a.began ∈ h.starts
        rw [happlied]
        rintro a ⟨⟩
        exact hmem
      · show (cycle.conclude h.scheduler.store (.output text)).1.stale = false →
          ∃ a, h.appliedAfter (.output text) = some a ∧
            (cycle.conclude h.scheduler.store (.output text)).1.epoch = _
        rw [cycle.conclude_epoch, heq, happlied]
        intro hfresh
        refine ⟨⟨text, m⟩, rfl, ?_⟩
        rw [← hbegan]
        simpa [Store.unchangedSince] using hfresh
    · have happlied := h.appliedAfter_of_error herror
      refine ⟨htimed, ?_, ?_, ?_⟩
      · show Log.index { h.toLog with outcomes := _, applied? := _ } = _
        rw [heq, Log.index, happlied]
        exact hc.index
      · show ∀ a, h.appliedAfter ending = some a → _
        rw [happlied]
        exact hc.begun
      · show (cycle.conclude h.scheduler.store ending).1.stale = false →
          ∃ a, h.appliedAfter ending = some a ∧
            (cycle.conclude h.scheduler.store ending).1.epoch = _
        rw [heq, happlied]
        exact hc.fresh

theorem release (hc : Current h) : Current h.release := by
  have htimed := hc.toTimed.release
  rw [History.release, Scheduler.release] at htimed ⊢
  split at htimed
  · exact hc
  · exact ⟨htimed, hc.index, hc.begun, hc.fresh⟩

theorem drop (hc : Current h) (number : Nat) : Current (h.drop number) := by
  refine ⟨hc.toTimed.drop number, hc.index, ?_, hc.fresh⟩
  show ∀ a, h.applied? = some a → a.began ∈ (h.toLog.drop number).starts
  rw [h.starts_drop number]
  exact hc.begun

/-- As long as the host does not go past the scheduler, the store goes with the log. -/
theorem kept : Kept (fun c => c.isOwn = true) Current where
  receive hown hc := hc.receive hown
  launch mode hidle hc := hc.launch mode hidle
  settle ending hc := hc.settle ending
  release hc := hc.release
  drop number hc := hc.drop number

/-- While the store is not stale, the check behind its index began after the last mark, unless
the epoch went round while that check ran. -/
theorem began_marks_eq (hc : Current h) (hnot : h.scheduler.store.stale = false) :
    ∃ a, h.applied? = some a ∧ a.began.UpTo h.now ∧
      (h.now.marks < a.began.marks + UInt64.size → a.began.marks = h.now.marks) := by
  obtain ⟨a, happlied, hepoch⟩ := hc.fresh hnot
  have hpast := hc.past _ (hc.begun a happlied)
  refine ⟨a, happlied, hpast, fun hlt => marks_eq_of_epoch_eq ?_ hpast.marks hlt⟩
  rw [← hepoch, hc.epoch]

end Current

/-! ## What is visible -/

/-- Checks end in the order in which they began.  While the diagnostics are visible, the check
behind them began after the last change. -/
structure Shown (h : History) : Prop extends Current h where
  order : ∀ a m, h.applied? = some a → h.next? = some m → a.began.changes ≤ m.changes
  visible : h.now.marks < UInt64.size → h.scheduler.store.visible = true → 0 < h.now.changes →
    ∃ a, h.applied? = some a ∧ a.began.changes = h.now.changes

namespace Shown

theorem new (file : Path) : Shown (new file) :=
  ⟨.new file, nofun, fun _ _ => nofun⟩

theorem receive (hs : Shown h) {c : Call} (hown : c.isOwn = true) : Shown (h.receive c) := by
  obtain ⟨_, _, hvisible⟩ := c.onStore_own hown h.scheduler.store
  refine ⟨hs.toCurrent.receive hown, hs.order, ?_⟩
  intro hmarks hshown hsome
  obtain ⟨hwas, hchange⟩ := hvisible hshown
  have hnow : (h.receive c).now.changes = h.now.changes := by
    show h.now.changes + c.isChange.toNat = h.now.changes
    rw [hchange]
    rfl
  have hle : h.now.marks ≤ (h.receive c).now.marks := (h.upTo_receive c).marks
  rw [hnow] at hsome ⊢
  exact hs.visible (Nat.lt_of_le_of_lt hle hmarks) hwas hsome

theorem launch (hs : Shown h) (mode : CheckMode) (hidle : h.scheduler.running = false) :
    Shown (h.launch mode) := by
  refine ⟨hs.toCurrent.launch mode hidle, ?_, hs.visible⟩
  intro a m happlied hnext
  rw [hs.next?_launch mode hidle] at hnext
  obtain rfl := Option.some.inj hnext
  exact (hs.past _ (hs.begun a happlied)).changes

/-- The index of a check that ends is visible only if the check began after the last change: it
is up to date, or the older index was visible already and began even earlier. -/
theorem changes_eq (hs : Shown h) (hmarks : h.now.marks < UInt64.size) {m : Moment}
    (hnext : h.next? = some m) (hsome : 0 < h.now.changes)
    (hshown : h.scheduler.store.visible = true ∨
      h.scheduler.store.epoch = .ofNat m.marks) : m.changes = h.now.changes := by
  have hpast : m.UpTo h.now := hs.past m (List.mem_of_getElem? hnext)
  rcases hshown with hwas | hfresh
  · obtain ⟨a, happlied, ha⟩ := hs.visible hmarks hwas hsome
    have horder := hs.order a m happlied hnext
    have hle := hpast.changes
    omega
  · refine hpast.changes_eq (marks_eq_of_epoch_eq ?_ hpast.marks ?_)
    · rw [← hfresh, hs.epoch]
    · exact Nat.lt_of_lt_of_le hmarks (Nat.le_add_left _ _)

theorem settle (hs : Shown h) (ending : Ending) : Shown (h.settle ending) := by
  have hcurrent := hs.toCurrent.settle ending
  rcases hcycle : h.scheduler.inFlight with _ | ⟨cycle, rest⟩
  · rw [settle_of_nil hcycle]
    exact hs
  · have hnone := hs.next?_settle hcycle ending
    refine ⟨hcurrent, fun a m _ hnext => ?_, ?_⟩
    · rw [hnone] at hnext
      cases hnext
    · rw [settle_of_cons hcycle]
      rcases cycle.conclude_cases h.scheduler.store ending with
        ⟨text, index, rfl, hparse, heq⟩ | ⟨error, herror, heq⟩
      · obtain ⟨m, hnext, _, hbegan, happlied⟩ := hs.appliedAfter hcycle hparse
        intro hmarks hshown hsome
        refine ⟨⟨text, m⟩, happlied, hs.changes_eq hmarks hnext hsome ?_⟩
        have hor : (h.scheduler.store.visible ||
            h.scheduler.store.unchangedSince cycle.began) = true := by
          simpa [heq] using hshown
        rw [Bool.or_eq_true] at hor
        refine hor.imp_right fun hfresh => ?_
        rw [← hbegan]
        exact beq_iff_eq.1 hfresh
      · show _ → (cycle.conclude h.scheduler.store ending).1.visible = true → _ →
          ∃ a, h.appliedAfter ending = some a ∧ _
        rw [heq, h.appliedAfter_of_error herror]
        exact hs.visible

theorem release (hs : Shown h) : Shown h.release := by
  have hcurrent := hs.toCurrent.release
  rw [History.release, Scheduler.release] at hcurrent ⊢
  split at hcurrent
  · exact hs
  · exact ⟨hcurrent, hs.order, hs.visible⟩

theorem drop (hs : Shown h) (number : Nat) : Shown (h.drop number) := by
  refine ⟨hs.toCurrent.drop number, ?_, hs.visible⟩
  intro a m happlied hnext
  have hsame : (h.drop number).next? = h.next? := by
    show (h.toLog.drop number).starts[h.outcomes.length]? = h.starts[h.outcomes.length]?
    rw [h.starts_drop number]
  rw [hsame] at hnext
  exact hs.order a m happlied hnext

theorem kept : Kept (fun c => c.isOwn = true) Shown where
  receive hown hs := hs.receive hown
  launch mode hidle hs := hs.launch mode hidle
  settle ending hs := hs.settle ending
  release hs := hs.release
  drop number hs := hs.drop number

end Shown
end History

/-- No diagnostics that are out of date pass for current ones.  Whatever cycles failed, died or
were abandoned, the index in the store is that of the last check whose output could be read, or
empty if there was none.  While the store is not stale, that check began after all edits,
saves, reloads and checks of a text.  While the diagnostics are visible, it began after all
edits, saves and reloads, if there were any.  The host must not go past the scheduler, and must
mark the document fewer than `2 ^ 64` times. -/
theorem diagnostics_current (file : Path) (events : List Event)
    (hown : ∀ e ∈ events, e.isOwn = true) (hmarks : events.countP Event.isMark < UInt64.size) :
    let h := History.run file events
    let store := h.scheduler.store
    h.toLog.index = .ok store.index ∧
      (store.stale = false → ∃ a, h.applied? = some a ∧ a.began.marks = h.now.marks) ∧
      (store.visible = true → 0 < h.now.changes →
        ∃ a, h.applied? = some a ∧ a.began.changes = h.now.changes) := by
  intro h store
  have hshown : History.Shown h :=
    History.Shown.kept.run (.new file) fun c hc => hown (.call c) hc
  have hlt : h.now.marks < UInt64.size := by
    rw [History.marks_run]
    exact hmarks
  refine ⟨hshown.index, fun hnot => ?_, hshown.visible hlt⟩
  obtain ⟨a, happlied, _, heq⟩ := hshown.began_marks_eq hnot
  exact ⟨a, happlied, heq (Nat.lt_of_lt_of_le hlt (Nat.le_add_left _ _))⟩

/-- An edit hides what was found before it.  A check of the edited text that fails brings
nothing back, and one that succeeds shows its own index, which began after the edit. -/
theorem diagnostics_current_after_edit :
    let events : List Event := [.call .refresh, .finish (.output "[[]]"),
      .call (.signal .edited), .call (.checkContents "x"), .finish (.died "task 1 panicked"),
      .call (.checkContents "y"), .finish (.output "[[[]]]")]
    let h := History.run ⟨"/p/a.js"⟩ events
    (∀ e ∈ events, e.isOwn = true) ∧ events.countP Event.isMark < UInt64.size ∧
      h.scheduler.store.visible = true ∧ h.now.changes = 1 ∧
      ∃ a, h.applied? = some a ∧ a.began.changes = h.now.changes := by
  intro events h
  have hown : ∀ e ∈ events, e.isOwn = true := by decide
  have hmarks : events.countP Event.isMark < UInt64.size := by decide
  obtain ⟨_, _, hshown⟩ := diagnostics_current ⟨"/p/a.js"⟩ events hown hmarks
  have hvisible : h.scheduler.store.visible = true := by decide +kernel
  have hchanges : h.now.changes = 1 := by decide +kernel
  have hsome : 0 < h.now.changes := hchanges ▸ Nat.one_pos
  exact ⟨hown, hmarks, hvisible, hchanges, hshown hvisible hsome⟩

end InlineCheck.Scheduler
