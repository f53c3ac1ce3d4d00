import InlineCheck.Proofs.Report.Parse
import InlineCheck.Proofs.Scheduler.History
import InlineCheck.Run
import Mathlib.Data.List.DropRight

/-!
# Outputs that are cut off

The checker's exit code does not tell whether it printed its whole report, so nothing but the
report itself can.  A report is an array or an object, and so it is over exactly where its last
bracket is closed: whatever a document is cut down to cannot be read any more, unless all that
was cut off are blanks.
-/

namespace InlineCheck

open Json (isSpace)

/-- A text that goes on behind a report only goes on with blanks. -/
theorem Report.isSpace_of_read {text rest : String} {report whole : Report}
    (htext : Report.read text = .ok report) (hwhole : Report.read (text ++ rest) = .ok whole) :
    ∀ c ∈ rest.toList, isSpace c = true := by
  obtain ⟨v, hv, _⟩ := Report.read_eq_ok_iff.1 htext
  obtain ⟨w, hw, _⟩ := Report.read_eq_ok_iff.1 hwhole
  rw [String.toList_append] at hw
  exact Json.isSpace_of_reads?_append rfl hv hw

/-- What a document is cut down to misses more than blanks, unless it is all of the document but
the blanks at its end. -/
theorem exists_solid_of_cut {cut whole : List Char}
    (hcut : cut <+: whole.rdropWhile isSpace) (hproper : cut ≠ whole.rdropWhile isSpace) :
    ∃ rest, whole = cut ++ rest ∧ ∃ c ∈ rest, isSpace c = false := by
  obtain ⟨lost, hlost⟩ := hcut
  have hsome : lost ≠ [] := by
    rintro rfl
    exact hproper (by simpa using hlost)
  have hne : whole.rdropWhile isSpace ≠ [] := by
    rw [← hlost]
    exact List.append_ne_nil_of_right_ne_nil cut hsome
  have hlast := List.rdropWhile_last_not isSpace whole hne
  refine ⟨lost ++ whole.rtakeWhile isSpace, ?_, lost.getLast hsome, ?_, ?_⟩
  · rw [← List.append_assoc, hlost, List.rdropWhile_append_rtakeWhile]
  · exact List.mem_append_left _ (List.getLast_mem hsome)
  · simpa [← hlost, List.getLast_append_of_ne_nil _ hsome] using hlast

theorem Report.read_of_cut {output cut : String} {whole : Report}
    (hread : Report.read output = .ok whole)
    (hcut : cut.toList <+: output.toList.rdropWhile isSpace)
    (hproper : cut.toList ≠ output.toList.rdropWhile isSpace) :
    ∃ fault, Report.read cut = .error fault := by
  obtain ⟨rest, hrest, c, hc, hsolid⟩ := exists_solid_of_cut hcut hproper
  have houtput : output = cut ++ String.ofList rest := by
    rw [← String.toList_inj, String.toList_append, String.toList_ofList, hrest]
  cases hread' : Report.read cut with
  | error fault => exact ⟨fault, rfl⟩
  | ok report =>
    have hblanks := Report.isSpace_of_read hread' (houtput ▸ hread)
    rw [String.toList_ofList] at hblanks
    have hspace := hblanks c hc
    rw [hsolid] at hspace
    cases hspace

/-- A check ends with what the checker printed, if it ends with an output at all. -/
theorem Checker.eq_of_outputOf {exit : Exit} {output : String}
    (h : Checker.outputOf exit = .ok output) : output = Text.decodeLossy exit.out := by
  cases hblank : Text.isBlankText (Text.decodeLossy exit.out) with
  | false => simpa [Checker.outputOf, hblank] using h.symm
  | true =>
    by_cases hcode : exit.code = some 0
    · simp [Checker.outputOf, hblank, hcode] at h
    · simp [Checker.outputOf, hblank, hcode] at h

/-- What cannot be read yields no index, whatever the exit code of the checker was. -/
theorem index_endingOf_of_error {exit : Exit} {error : CheckError}
    (h : parse (Text.decodeLossy exit.out) = .error error) :
    ∃ error, (Run.endingOf (Checker.outputOf exit)).index = .error error := by
  cases hresult : Checker.outputOf exit with
  | error error => exact ⟨error, rfl⟩
  | ok output =>
    rw [← Checker.eq_of_outputOf hresult] at h
    exact ⟨error, h⟩

/-- A report that is cut off, however little is missing of it, is refused.  A cycle whose check
printed no more than that leaves the store as it was, whatever the exit code. -/
theorem truncated_output_refused {output cut : String} {index : Index}
    (hparse : parse output = .ok index)
    (hcut : cut.toList <+: output.toList.rdropWhile isSpace)
    (hproper : cut.toList ≠ output.toList.rdropWhile isSpace) :
    (Text.isBlankText cut = true → parse cut = .error .emptyOutput) ∧
      (Text.isBlankText cut = false → ∃ message, parse cut = .error (.parseFailed message)) ∧
      ∀ (s : Scheduler) (exit : Exit), Text.decodeLossy exit.out = cut →
        (s.finish (Run.endingOf (Checker.outputOf exit))).1.store = s.store := by
  obtain ⟨whole, hwhole, _⟩ := parse_eq_ok_iff.1 hparse
  obtain ⟨fault, hfault⟩ := Report.read_of_cut hwhole hcut hproper
  have hfailed : ∃ error, parse cut = .error error := by
    cases hblank : Text.isBlankText cut with
    | true => exact ⟨_, parse_of_blank hblank⟩
    | false => exact ⟨_, parse_of_error hblank hfault⟩
  refine ⟨parse_of_blank, fun hblank => ⟨_, parse_of_error hblank hfault⟩, ?_⟩
  intro s exit hexit
  obtain ⟨error, herror⟩ := hfailed
  rw [← hexit] at herror
  obtain ⟨_, hindex⟩ := index_endingOf_of_error herror
  exact s.store_finish_of_error hindex

/-- A report is refused if its last brace is missing, although its list of errors is whole.  The
blanks at the end of the report do not matter. -/
theorem truncated_output_refused_of_last :
    let output := "\x7b\"errors\":[[\"warning\",[1e5,\"\\u005d\x7d\"]]]\x7d \n"
    let cut := "\x7b\"errors\":[[\"warning\",[1e5,\"\\u005d\x7d\"]]]"
    (parse output).isOk = true ∧ cut.toList <+: output.toList.rdropWhile isSpace ∧
      cut.toList ≠ output.toList.rdropWhile isSpace ∧
      ∃ message, parse cut = .error (.parseFailed message) := by
  intro output cut
  have hisOk : (parse output).isOk = true := by decide +kernel
  have hcut : cut.toList <+: output.toList.rdropWhile isSpace := by decide +kernel
  have hproper : cut.toList ≠ output.toList.rdropWhile isSpace := by decide +kernel
  cases hparse : parse output with
  | error error => simp [hparse, Except.isOk, Except.toBool] at hisOk
  | ok index =>
    have hrefused := truncated_output_refused hparse hcut hproper
    exact ⟨rfl, hcut, hproper, hrefused.2.1 (by decide +kernel)⟩

end InlineCheck
