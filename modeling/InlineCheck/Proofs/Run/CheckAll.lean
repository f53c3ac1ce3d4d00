import InlineCheck.Run

/-!
# The checks of a run, in any order

All checks of a run are in flight at the same time, and the host decides in which order they
end.  Each of them belongs to one session and leaves the others alone, so the order makes no
difference.

* `Session.checked` is what the check of a session makes of it, and `Idle.conclude_trigger` what
  any check makes of a session of which no cycle is under way.
* `conclude_eq` says that the end of a check changes one session only.
* `checkAll_eq` says what all checks make of all sessions.  No order occurs in it any more.
-/

namespace InlineCheck

namespace Session

/-- Ends the cycle of a session, and gives its outcome. -/
def finish (s : Session) (ending : Ending) : Session × Option Outcome :=
  s.mapScheduler fun scheduler => scheduler.finish ending

/-- Ends the cycle of a session and notes how. -/
def conclude (s : Session) (ending : Ending) : Session :=
  match s.finish ending with
  | (s, some outcome) => s.record outcome
  | (s, none) => s

/-- Checks a session once, with the given ending. -/
def checked (s : Session) (ending : Ending) : Session :=
  (s.mapScheduler Scheduler.refresh).1.conclude ending

/-- The file is one that is checked, and no cycle is under way. -/
structure Idle (s : Session) : Prop where
  isCheckable : s.file.isCheckable = true
  running : s.scheduler.running = false
  inFlight : s.scheduler.inFlight = []
  settled : s.scheduler.settled = []

theorem idle_new {file : Path} (hfile : file.isCheckable = true) : (new file).Idle :=
  ⟨hfile, rfl, rfl, rfl⟩

/-- A check that a session starts when no cycle is under way puts its own index into the store, or
leaves the store as it is. -/
theorem Idle.conclude_trigger {s : Session} (hs : s.Idle) (mode : CheckMode) (ending : Ending) :
    (s.mapScheduler fun scheduler => scheduler.trigger mode).1.conclude ending =
      match ending.index with
      | .ok index =>
        ⟨s.scheduler.mapStore fun store => (store.apply index store.epoch).1, none⟩
      | .error error => ⟨s.scheduler, some error.message⟩ := by
  obtain ⟨⟨file, store, _, _, _⟩, lastError⟩ := s
  obtain ⟨hfile, rfl, rfl, rfl⟩ := hs
  have htrigger : (Scheduler.mk file store false [] []).trigger mode =
      (⟨file, store, true, [⟨⟨file, mode⟩, store.epoch⟩], []⟩,
        some ⟨⟨file, mode⟩, store.epoch⟩) := by
    rw [Scheduler.trigger]
    exact if_pos (by rw [show file.isCheckable = true from hfile]; rfl)
  rw [mapScheduler, htrigger, conclude, finish, mapScheduler, Scheduler.finish, Scheduler.settle]
  cases hindex : ending.index with
  | ok index | error error =>
    simp only [Cycle.conclude, hindex]
    rfl

end Session

namespace Sessions

/-- Two changes of one session make no difference if they do the same to it. -/
theorem modify_congr {sessions : Sessions} {position : Nat} {f g : Session → Session}
    (hsame : ∀ s, sessions[position]? = some s → f s = g s) :
    sessions.modify position f = sessions.modify position g := by
  refine List.ext_getElem? fun i => ?_
  by_cases hi : position = i
  · subst hi
    rw [List.getElem?_modify_eq, List.getElem?_modify_eq]
    cases hs : sessions[position]? with
    | none => rfl
    | some s => exact congrArg some (hsame s hs)
  · rw [List.getElem?_modify_ne _ _ hi, List.getElem?_modify_ne _ _ hi]

/-- An update changes the session at its position only, and gives what comes of that. -/
theorem update_eq {α : Type} (sessions : Sessions) (position : Nat)
    (f : Session → Session × Option α) :
    sessions.update position f =
      (sessions.modify position fun s => (f s).1, sessions[position]?.bind fun s => (f s).2) := by
  rw [update]
  cases hs : sessions[position]? with
  | none => rw [List.modify_eq_self (List.getElem?_eq_none_iff.1 hs)]; rfl
  | some s =>
    refine Prod.ext (List.ext_getElem? fun i => ?_) rfl
    show (sessions.set position (f s).1)[i]? = _
    by_cases hi : position = i
    · subst hi
      rw [List.getElem?_modify_eq, List.getElem?_set_self', hs]
      rfl
    · rw [List.getElem?_modify_ne _ _ hi, List.getElem?_set_ne hi]

/-- The end of a check changes the session at its position only. -/
theorem conclude_eq (sessions : Sessions) (position : Nat) (ending : Ending) :
    sessions.conclude position ending =
      sessions.modify position fun s => s.conclude ending := by
  rw [conclude, finish, update_eq]
  cases hs : sessions[position]? with
  | none =>
    refine modify_congr fun s hsome => ?_
    rw [hs] at hsome
    cases hsome
  | some s =>
    rw [Option.bind_some]
    cases hfinish : s.mapScheduler fun scheduler => scheduler.finish ending with
    | mk after outcome? =>
      cases outcome? with
      | none =>
        refine modify_congr fun s' hs' => ?_
        obtain rfl := Option.some.inj (hs.symm.trans hs')
        rw [Session.conclude, Session.finish, hfinish]
      | some outcome =>
        show (sessions.modify _ _).modify _ _ = _
        rw [List.modify_modify_eq]
        refine modify_congr fun s' hs' => ?_
        obtain rfl := Option.some.inj (hs.symm.trans hs')
        rw [Session.conclude, Function.comp_apply, Session.finish, hfinish]

/-- The sessions whose checks ended are concluded, and the others are as they were. -/
theorem getElem?_concludeAll (endings : List Ending) (i : Nat) {order : List Nat}
    (hnodup : order.Nodup) (sessions : Sessions) :
    (sessions.concludeAll endings order)[i]? =
      if i ∈ order then
        match endings[i]? with
        | some ending => sessions[i]?.map fun s => s.conclude ending
        | none => sessions[i]?
      else sessions[i]? := by
  induction order generalizing sessions with
  | nil => exact (if_neg List.not_mem_nil).symm
  | cons position rest ih =>
    obtain ⟨hfirst, hrest⟩ := List.nodup_cons.1 hnodup
    have hcons : sessions.concludeAll endings (position :: rest) =
        (match endings[position]? with
          | some ending => sessions.conclude position ending
          | none => sessions).concludeAll endings rest := rfl
    by_cases hi : position = i
    -- Its position does not come up again, so nothing more happens to this session.
    · subst hi
      rw [hcons, ih hrest, if_neg hfirst, if_pos List.mem_cons_self]
      cases endings[position]? with
      | none => rfl
      | some ending =>
        show (sessions.conclude position ending)[position]? = _
        rw [conclude_eq, List.getElem?_modify_eq]
        rfl
    · have hsame : (match endings[position]? with
          | some ending => sessions.conclude position ending
          | none => sessions)[i]? = sessions[i]? := by
        cases endings[position]? with
        | none => rfl
        | some ending =>
          show (sessions.conclude position ending)[i]? = _
          rw [conclude_eq, List.getElem?_modify_ne _ _ hi]
      have hmem : i ∈ position :: rest ↔ i ∈ rest := by
        rw [List.mem_cons, or_iff_right fun h => hi h.symm]
      rw [hcons, ih hrest, hsame]
      simp only [hmem]

/-- In whatever order the checks end, every session is checked once, with its own ending. -/
theorem checkAll_eq (sessions : Sessions) {endings : List Ending} {order : List Nat}
    (hendings : endings.length = sessions.length)
    (horder : order.Perm (List.range sessions.length)) :
    sessions.checkAll endings order = List.zipWith Session.checked sessions endings := by
  refine List.ext_getElem? fun i => ?_
  have hnodup : order.Nodup := horder.nodup_iff.2 List.nodup_range
  rw [checkAll, getElem?_concludeAll endings i hnodup, refreshAll, List.getElem?_map,
    List.getElem?_zipWith]
  by_cases hi : i < sessions.length
  · have hmem : i ∈ order := horder.mem_iff.2 (List.mem_range.2 hi)
    rw [if_pos hmem, List.getElem?_eq_getElem hi, List.getElem?_eq_getElem (hendings ▸ hi)]
    rfl
  · have hmem : i ∉ order := fun h => hi (List.mem_range.1 (horder.mem_iff.1 h))
    rw [if_neg hmem, List.getElem?_eq_none (Nat.le_of_not_lt hi)]
    rfl

end Sessions

end InlineCheck
