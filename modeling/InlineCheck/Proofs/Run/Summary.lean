import InlineCheck.Proofs.Index.Answers
import InlineCheck.Run
import Mathlib.Data.List.Count

/-!
# What a run counts

A run counts what it shows.  `summarize_eq` gives the counters as counts over all that is shown,
and `failed_summarize_iff` says when the run fails: if one of the diagnostics shown is an
error, or if there is any and warnings count as failures.
-/

namespace InlineCheck

theorem Severity.eq_warning_or_error (severity : Severity) :
    severity = .warning ∨ severity = .error := by
  cases severity <;> simp

/-- Counting diagnostics adds to the two counters and leaves the rest alone. -/
theorem Summary.record_eq (s : Summary) (entries : List (Nat × Diagnostic)) :
    s.record entries =
      { s with
        errors := s.errors + entries.countP fun x => x.2.severity == .error
        warnings := s.warnings + entries.countP fun x => x.2.severity == .warning } := by
  induction entries generalizing s with
  | nil => rfl
  | cons x rest ih =>
    show (s.count x.2.severity).record rest = _
    rw [ih]
    rcases x.2.severity.eq_warning_or_error with hx | hx
    · simp [hx, count]
      omega
    · simp [hx, count]
      omega

namespace Run

variable (settings : Settings)

theorem foldl_tally (sessions : Sessions) (summary : Summary) :
    sessions.foldl (tally settings) summary =
      { summary with
        unchecked := summary.unchecked + sessions.countP fun s => s.lastError.isSome
        errors := summary.errors +
          (sessions.flatMap (shown settings)).countP fun x => x.2.severity == .error
        warnings := summary.warnings +
          (sessions.flatMap (shown settings)).countP fun x => x.2.severity == .warning } := by
  induction sessions generalizing summary with
  | nil => rfl
  | cons s rest ih =>
    rw [List.foldl_cons, ih, tally, Summary.record_eq]
    cases hs : s.lastError.isSome
    · simp [hs, List.countP_append]
      omega
    · simp [hs, List.countP_append]
      omega

/-- The counters of a run are counts over its sessions and over all that they show. -/
theorem summarize_eq (sessions : Sessions) :
    summarize settings sessions =
      { files := sessions.length
        unchecked := sessions.countP fun s => s.lastError.isSome
        errors := (sessions.flatMap (shown settings)).countP fun x => x.2.severity == .error
        warnings := (sessions.flatMap (shown settings)).countP fun x => x.2.severity == .warning
        failOnWarnings := settings.failOnWarnings } := by
  rw [summarize, foldl_tally]
  simp

/-- A run fails exactly if it shows an error, or shows anything and warnings count as
failures. -/
theorem failed_summarize_iff (sessions : Sessions) :
    (summarize settings sessions).failed = true ↔
      ∃ s ∈ sessions, ∃ x ∈ shown settings s,
        x.2.severity = .error ∨ settings.failOnWarnings = true := by
  rw [summarize_eq]
  simp only [Summary.failed, Bool.or_eq_true, Bool.and_eq_true, decide_eq_true_eq,
    List.countP_pos_iff, List.mem_flatMap, beq_iff_eq]
  constructor
  · rintro (⟨x, ⟨s, hs, hx⟩, herror⟩ | ⟨⟨x, ⟨s, hs, hx⟩, _⟩, hfail⟩)
    · exact ⟨s, hs, x, hx, .inl herror⟩
    · exact ⟨s, hs, x, hx, .inr hfail⟩
  · rintro ⟨s, hs, x, hx, hor⟩
    rcases x.2.severity.eq_warning_or_error with hseverity | hseverity
    · refine .inr ⟨⟨x, ⟨s, hs, hx⟩, hseverity⟩, hor.resolve_left ?_⟩
      simp [hseverity]
    · exact .inl ⟨x, ⟨s, hs, hx⟩, hseverity⟩

/-- What a session shows are the diagnostics of the lines of its file, as far as the threshold
admits them. -/
theorem mem_shown_iff (s : Session) (line : Nat) (d : Diagnostic) :
    (line, d) ∈ shown settings s ↔
      s.scheduler.store.visible = true ∧
        s.scheduler.store.index.get? s.file line = some d ∧
        settings.threshold.admits d.severity = true := by
  rw [shown, List.mem_filter, Store.currentFor]
  split
  · next hvisible => simp [hvisible, Index.mem_forPath_iff]
  · next hvisible => simp [hvisible]

end Run

end InlineCheck
