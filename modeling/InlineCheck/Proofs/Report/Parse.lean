import InlineCheck.Proofs.Json.Reading
import InlineCheck.Report

/-!
# What becomes of an output

There are three ways to read an output: it is blank, it is no report, or it is one.  The lemmas
tell them apart, and say by which state of the reader a report is found.
-/

namespace InlineCheck

/-- The state of the reader in front of a report. -/
abbrev Report.begin : Json.State :=
  .place (.value Report.shape [])

theorem Report.read_eq_ok_iff {text : String} {report : Report} :
    Report.read text = .ok report ↔
      ∃ v, Report.begin.reads? text.toList = some v ∧ report = .ofValue v := by
  have hread := Report.shape.toOption_read text.toList
  rw [Report.read]
  cases hshape : Report.shape.read text.toList with
  | error fault =>
    rw [hshape] at hread
    simp [Except.map, ← hread, Except.toOption]
  | ok v =>
    rw [hshape] at hread
    simp [Except.map, ← hread, Except.toOption, eq_comm]

/-- No value begins with a blank character. -/
theorem openValue_of_isBlank {shape : Json.Shape} {slots : List Json.Slot} {c : Char}
    (h : Text.isBlank c = true) :
    Json.openValue shape slots c = .error (.after .expectedValue) := by
  have hne : ∀ d, Text.isBlank d = false → c ≠ d := by
    rintro d hd rfl
    rw [hd] at h
    cases h
  have hdigit : Json.Numeral.digit? c = none := by
    rw [Json.Numeral.digit?, if_neg]
    rintro ⟨hlow, hhigh⟩
    have hlow : 48 ≤ c.toNat := hlow
    have hhigh : c.toNat ≤ 57 := hhigh
    simp [Text.isBlank] at h
    omega
  simp [Json.openValue, Json.Numeral.start?, hdigit, hne 'n' (by decide), hne 't' (by decide),
    hne 'f' (by decide), hne '"' (by decide), hne '[' (by decide), hne '\x7b' (by decide),
    hne '-' (by decide)]

theorem Report.reads?_of_blank {text : List Char} (h : ∀ c ∈ text, Text.isBlank c = true) :
    Report.begin.reads? text = none := by
  induction text with
  | nil => rfl
  | cons c cs ih =>
    obtain ⟨hc, hcs⟩ := List.forall_mem_cons.1 h
    by_cases hspace : Json.isSpace c = true
    · rw [Json.reads?_blank _ hspace, ih hcs]
    · rw [Json.reads?_solid _ (by simpa using hspace), Json.Place.stepSolid,
        openValue_of_isBlank hc]
      rfl

/-- A blank text is no report. -/
theorem Report.read_of_blank {text : String} (h : Text.isBlankText text = true) :
    ∃ fault, Report.read text = .error fault := by
  cases hread : Report.read text with
  | error fault => exact ⟨fault, rfl⟩
  | ok report =>
    obtain ⟨v, hv, _⟩ := Report.read_eq_ok_iff.1 hread
    rw [Report.reads?_of_blank (List.all_eq_true.1 h)] at hv
    cases hv

theorem parse_of_blank {output : String} (h : Text.isBlankText output = true) :
    parse output = .error .emptyOutput := if_pos h

theorem parse_of_error {output : String} (hblank : Text.isBlankText output = false)
    {fault : Json.Fault} (h : Report.read output = .error fault) :
    parse output = .error (.parseFailed (fault.message output.toList)) := by
  rw [parse, if_neg (by simp [hblank]), h]

theorem parse_of_ok {output : String} (hblank : Text.isBlankText output = false)
    {report : Report} (h : Report.read output = .ok report) :
    parse output = .ok report.index := by
  rw [parse, if_neg (by simp [hblank]), h]

theorem parse_eq_ok_iff {output : String} {index : Index} :
    parse output = .ok index ↔
      ∃ report, Report.read output = .ok report ∧ index = report.index := by
  cases hblank : Text.isBlankText output with
  | true =>
    obtain ⟨fault, hfault⟩ := Report.read_of_blank hblank
    simp [parse_of_blank hblank, hfault]
  | false =>
    cases hread : Report.read output with
    | error fault => simp [parse_of_error hblank hread]
    | ok report => simp [parse_of_ok hblank hread, eq_comm]

end InlineCheck
