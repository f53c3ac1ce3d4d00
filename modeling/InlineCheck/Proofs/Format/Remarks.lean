import InlineCheck.Format
import Mathlib.Data.List.Basic

/-!
# Machine output

Machine output has no quotes, and the path of the file or a message may look like further lines of
it.  It can be read nevertheless by a reader that knows the file: the path ends where it is known to
end, the line number in front of a space, and the message at the line feed.

* `readRemark?` reads what was written for one diagnostic, and `readRemark?_machineLine` says that
  it is read back, whatever follows.
* `readRemarks` goes on to the end of the output.
* `readRemarks_render` is the result.  It counts the line feeds too.
-/

namespace InlineCheck.Format

/-- What machine output says of a diagnostic, apart from the file. -/
structure Remark where
  severity : Severity
  line : Nat
  text : String
deriving DecidableEq, Repr

/-- The remark about a diagnostic, with a space for every line feed of its text. -/
def remark (entry : Nat × Diagnostic) : Remark where
  severity := entry.2.severity
  line := entry.1
  text := entry.2.text.map fun c => if c = '\n' then ' ' else c

/-! ## Reading -/

/-- What stands in front of the line number. -/
def lead (severity : Severity) (file : Path) : List Char :=
  severity.capitals.toList ++ ' ' :: (file.text.toList ++ [':'])

/-- The severity of the remark about the file that a text begins with, and the text behind what
stands in front of the line number. -/
def readLead? (file : Path) (cs : List Char) : Option (Severity × List Char) :=
  [Severity.error, .warning].findSome? fun severity =>
    (cs.dropPrefix? (lead severity file)).map fun rest => (severity, rest)

/-- The characters up to the first one that fails the test, and those behind it. -/
def cutAt (test : Char → Bool) (cs : List Char) : List Char × List Char :=
  (cs.takeWhile test, (cs.dropWhile test).drop 1)

/-- A line number and a text, and what follows the line feed. -/
def readBody (severity : Severity) (cs : List Char) : Remark × List Char :=
  let (digits, cs) := cutAt Char.isDigit cs
  let (text, rest) := cutAt (· ≠ '\n') cs
  (⟨severity, Nat.ofDigitChars 10 digits 0, String.ofList text⟩, rest)

/-- The remark about the file that a text begins with, and what follows. -/
def readRemark? (file : Path) (cs : List Char) : Option (Remark × List Char) :=
  (readLead? file cs).map fun x => readBody x.1 x.2

theorem length_cutAt_le (test : Char → Bool) (cs : List Char) :
    (cutAt test cs).2.length ≤ cs.length := by
  rw [cutAt, List.length_drop]
  exact Nat.le_trans (Nat.sub_le _ _) (List.dropWhile_suffix test).length_le

theorem length_readBody_le (severity : Severity) (cs : List Char) :
    (readBody severity cs).2.length ≤ cs.length :=
  Nat.le_trans (length_cutAt_le _ _) (length_cutAt_le _ _)

theorem length_lt_of_readLead? {file : Path} {cs rest : List Char} {severity : Severity}
    (h : readLead? file cs = some (severity, rest)) : rest.length < cs.length := by
  obtain ⟨severity', _, h⟩ := List.exists_of_findSome?_eq_some h
  obtain ⟨body, hdrop, heq⟩ := Option.map_eq_some_iff.1 h
  obtain ⟨rfl, rfl⟩ := Prod.mk.inj heq
  obtain ⟨front, rfl, hfront⟩ := List.dropPrefix?_eq_some_iff.1 hdrop
  have hlength : front.length = (lead severity' file).length := by rw [beq_iff_eq.1 hfront]
  rw [lead, List.length_append, List.length_cons] at hlength
  rw [List.length_append]
  omega

/-- Something is read with each remark. -/
theorem length_lt_of_readRemark? {file : Path} {cs rest : List Char} {r : Remark}
    (h : readRemark? file cs = some (r, rest)) : rest.length < cs.length := by
  obtain ⟨⟨severity, body⟩, hlead, hbody⟩ := Option.map_eq_some_iff.1 h
  have hle := length_readBody_le severity body
  rw [hbody] at hle
  exact Nat.lt_of_le_of_lt hle (length_lt_of_readLead? hlead)

/-- All remarks about the file in a text, up to where there is none. -/
def readRemarks (file : Path) (cs : List Char) : List Remark :=
  match h : readRemark? file cs with
  | some (r, rest) =>
    have := length_lt_of_readRemark? h
    r :: readRemarks file rest
  | none => []
termination_by cs.length

/-! ## Reading back -/

theorem cutAt_append {test : Char → Bool} {cs : List Char} (h : ∀ c ∈ cs, test c = true) {d : Char}
    (hd : test d = false) (rest : List Char) : cutAt test (cs ++ d :: rest) = (cs, rest) := by
  rw [cutAt, List.takeWhile_append_of_pos h, List.dropWhile_append_of_pos h]
  simp [hd]

/-- The two severities do not begin alike. -/
theorem readLead?_append (severity : Severity) (file : Path) (rest : List Char) :
    readLead? file (lead severity file ++ rest) = some (severity, rest) := by
  have hdrop : ∀ severity, (lead severity file ++ rest).dropPrefix? (lead severity file) =
      some rest := fun severity => List.dropPrefix?_append_of_beq rest (beq_self_eq_true _)
  cases severity with
  | error => simp [readLead?, hdrop]
  | warning =>
    have hother : (lead .warning file ++ rest).dropPrefix? (lead .error file) = none := rfl
    simp [readLead?, hother, hdrop]

theorem toList_flatten (text : String) :
    (flatten text).toList = text.toList.map fun c => if c = '\n' then ' ' else c :=
  String.toList_map

theorem newline_notMem_flatten (text : String) : '\n' ∉ (flatten text).toList := by
  rw [toList_flatten]
  intro hmem
  obtain ⟨c, _, hc⟩ := List.mem_map.1 hmem
  split at hc
  · cases hc
  · next hne => exact hne hc

theorem toList_machineLine (file : Path) (entry : Nat × Diagnostic) :
    (machineLine file entry).toList =
      lead entry.2.severity file ++ (Nat.toDigits 10 entry.1 ++ ' ' ::
        ((flatten entry.2.text).toList ++ ['\n'])) := by
  simp [machineLine, lead]

theorem readBody_append (entry : Nat × Diagnostic) (rest : List Char) :
    readBody entry.2.severity (Nat.toDigits 10 entry.1 ++ ' ' ::
      ((flatten entry.2.text).toList ++ '\n' :: rest)) = (remark entry, rest) := by
  have hdigits : ∀ c ∈ Nat.toDigits 10 entry.1, c.isDigit = true := fun c hc =>
    Nat.isDigit_of_mem_toDigits (by decide) (by decide) hc
  have htext : ∀ c ∈ (flatten entry.2.text).toList, decide (c ≠ '\n') = true := by
    intro c hc
    refine decide_eq_true ?_
    rintro rfl
    exact newline_notMem_flatten _ hc
  simp only [readBody, cutAt_append hdigits (show Char.isDigit ' ' = false from rfl),
    cutAt_append htext (show decide ('\n' ≠ '\n') = false from rfl)]
  rw [Nat.ofDigitChars_ten_toDigits, String.ofList_toList]
  rfl

/-- What was written for a diagnostic is read back, whatever follows. -/
theorem readRemark?_machineLine (file : Path) (entry : Nat × Diagnostic) (rest : List Char) :
    readRemark? file ((machineLine file entry).toList ++ rest) = some (remark entry, rest) := by
  rw [toList_machineLine, List.append_assoc, readRemark?, readLead?_append]
  simp only [List.append_assoc, List.cons_append, List.nil_append, Option.map_some,
    readBody_append]

theorem toList_render_machine (file : Path) (source : Option String)
    (entries : List (Nat × Diagnostic)) :
    (render .machine file source entries).toList =
      entries.flatMap fun entry => (machineLine file entry).toList := by
  simp [render, String.toList_join, List.flatMap_map]

theorem readRemarks_of_some {file : Path} {cs rest : List Char} {r : Remark}
    (h : readRemark? file cs = some (r, rest)) :
    readRemarks file cs = r :: readRemarks file rest := by
  rw [readRemarks]
  split
  · next r' rest' h' =>
    obtain ⟨rfl, rfl⟩ := Prod.mk.inj (Option.some.inj (h'.symm.trans h))
    rfl
  · next hnone => cases hnone.symm.trans h

theorem readRemarks_nil (file : Path) : readRemarks file [] = [] := by
  rw [readRemarks]
  split
  · next h => exact absurd (length_lt_of_readRemark? h) (Nat.not_lt_zero _)
  · rfl

theorem readRemarks_machine (file : Path) (source : Option String)
    (entries : List (Nat × Diagnostic)) :
    readRemarks file (render .machine file source entries).toList = entries.map remark := by
  rw [toList_render_machine]
  induction entries with
  | nil => exact readRemarks_nil file
  | cons entry entries ih =>
    rw [List.flatMap_cons, readRemarks_of_some (readRemark?_machineLine file entry _), ih,
      List.map_cons]

/-! ## Line feeds -/

/-- A line for a diagnostic has one line feed of its own and those of the path. -/
theorem count_machineLine (file : Path) (entry : Nat × Diagnostic) :
    (machineLine file entry).toList.count '\n' = 1 + file.text.toList.count '\n' := by
  have hseverity : entry.2.severity.capitals.toList.count '\n' = 0 := by
    cases entry.2.severity <;> decide
  have hdigits : (Nat.toDigits 10 entry.1).count '\n' = 0 := by
    refine List.count_eq_zero.2 fun hmem => ?_
    have hdigit := Nat.isDigit_of_mem_toDigits (by decide) (by decide) hmem
    cases hdigit
  have htext : (flatten entry.2.text).toList.count '\n' = 0 :=
    List.count_eq_zero.2 (newline_notMem_flatten _)
  rw [toList_machineLine, lead]
  simp [hseverity, hdigits, htext, Nat.add_comm]

theorem count_render_machine (file : Path) (source : Option String)
    (entries : List (Nat × Diagnostic)) :
    (render .machine file source entries).toList.count '\n' =
      entries.length * (1 + file.text.toList.count '\n') := by
  rw [toList_render_machine, List.count_flatMap]
  simp [Function.comp_def, count_machineLine]

/-- Machine output is read back by a reader that knows the file, so two outputs for one file are
the same only if they say the same of the same number of diagnostics.  Whatever the messages hold,
there is one line feed for each diagnostic, and besides it there are those of the path. -/
theorem readRemarks_render (file : Path) (source : Option String)
    (entries : List (Nat × Diagnostic)) :
    readRemarks file (render .machine file source entries).toList = entries.map remark ∧
      (∀ source' others, render .machine file source entries = render .machine file source' others →
        entries.length = others.length ∧ entries.map remark = others.map remark) ∧
      (render .machine file source entries).toList.count '\n' =
        entries.length * (1 + file.text.toList.count '\n') ∧
      ('\n' ∉ file.text.toList →
        (render .machine file source entries).toList.count '\n' = entries.length) := by
  refine ⟨readRemarks_machine file source entries, fun source' others heq => ?_,
    count_render_machine file source entries, fun hfile => ?_⟩
  · have hremarks : entries.map remark = others.map remark := by
      rw [← readRemarks_machine file source entries, heq, readRemarks_machine]
    exact ⟨by simpa using congrArg List.length hremarks, hremarks⟩
  · rw [count_render_machine, List.count_eq_zero.2 hfile, Nat.add_zero, Nat.mul_one]

/-- A message that looks like a further line is told from two messages, also if the path looks like
the end of one. -/
theorem readRemarks_render_of_imitation :
    let file : Path := ⟨"a b:3 c"⟩
    let finding (text : String) : Nat × Diagnostic := (2, ⟨file, 2, .error, text, .null⟩)
    let one := [finding "x\nERROR a b:3 c:2 y"]
    let two := [finding "x", finding "y"]
    '\n' ∉ file.text.toList ∧
      render .machine file none one ≠ render .machine file none two ∧
      (render .machine file none one).toList.count '\n' = 1 := by
  intro file finding one two
  obtain ⟨_, hsame, _, hcount⟩ := readRemarks_render file none one
  have hfile : '\n' ∉ file.text.toList := by decide
  refine ⟨hfile, fun heq => ?_, hcount hfile⟩
  obtain ⟨hlength, _⟩ := hsame none two heq
  cases hlength

end InlineCheck.Format
