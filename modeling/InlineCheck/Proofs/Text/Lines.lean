import InlineCheck.Text.Lines
import Mathlib.Data.List.Basic

/-!
# The lines of a text

`Lines` says of which lines a text consists, without any way to find them: each line is followed by
its end, and the last one need not be.  A carriage return belongs to the end if a line feed comes
right after it, and to the line otherwise.

`lines_iff` says that a text consists of exactly one list of lines, and that splitting finds it.
-/

namespace InlineCheck.Text

/-- The text consists of these lines. -/
inductive Lines : List Char → List (List Char) → Prop
  | none : Lines [] []
  | unended {line : List Char} (hne : line ≠ []) (hfeed : '\n' ∉ line) : Lines line [line]
  | feed {line rest : List Char} {lines : List (List Char)} (hfeed : '\n' ∉ line)
      (hreturn : line.getLast? ≠ some '\r') (hrest : Lines rest lines) :
      Lines (line ++ '\n' :: rest) (line :: lines)
  | returnFeed {line rest : List Char} {lines : List (List Char)} (hfeed : '\n' ∉ line)
      (hrest : Lines rest lines) : Lines (line ++ '\r' :: '\n' :: rest) (line :: lines)

variable {line rest gathered : List Char}

theorem splitLines_of_notMem (h : '\n' ∉ line) (gathered : List Char) :
    splitLines gathered line =
      if (gathered.reverse ++ line).isEmpty then [] else [gathered.reverse ++ line] := by
  induction line generalizing gathered with
  | nil => simp [splitLines]
  | cons c cs ih =>
    obtain ⟨hc, hcs⟩ := not_or.1 (List.mem_cons.not.1 h)
    rw [splitLines.eq_3 _ _ _ (Ne.symm hc), ih hcs]
    simp

theorem splitLines_append (h : '\n' ∉ line) (gathered rest : List Char) :
    splitLines gathered (line ++ '\n' :: rest) =
      closeLine (line.reverse ++ gathered) :: splitLines [] rest := by
  induction line generalizing gathered with
  | nil => rfl
  | cons c cs ih =>
    obtain ⟨hc, hcs⟩ := not_or.1 (List.mem_cons.not.1 h)
    rw [List.cons_append, splitLines.eq_3 _ _ _ (Ne.symm hc), ih hcs]
    simp

theorem closeLine_of_getLast?_ne (h : line.getLast? ≠ some '\r') :
    closeLine line.reverse = line := by
  rw [closeLine.eq_def]
  split
  · next hreverse => simp [← List.head?_reverse, hreverse] at h
  · exact List.reverse_reverse line

theorem closeLine_return (line : List Char) : closeLine (line ++ ['\r']).reverse = line := by
  simp [closeLine]

theorem Lines.splitLines_eq {text : List Char} {lines : List (List Char)} (h : Lines text lines) :
    splitLines [] text = lines := by
  induction h with
  | none => rfl
  | unended hne hfeed => simp [splitLines_of_notMem hfeed, hne]
  | feed hfeed hreturn _ ih =>
    rw [splitLines_append hfeed, List.append_nil, closeLine_of_getLast?_ne hreturn, ih]
  | @returnFeed line rest lines hfeed _ ih =>
    have hfeed' : '\n' ∉ line ++ ['\r'] := by simpa using hfeed
    rw [List.append_cons, splitLines_append hfeed', List.append_nil, closeLine_return, ih]

/-- Splitting a text finds lines of which it consists. -/
theorem lines_splitLines (text : List Char) : Lines text (splitLines [] text) := by
  induction hn : text.length using Nat.strongRecOn generalizing text with
  | _ n ih =>
    by_cases hfeed : '\n' ∈ text
    · obtain ⟨line, rest, rfl, hline⟩ := List.eq_append_cons_of_mem hfeed
      have hrest := ih rest.length (by simp [← hn]; omega) rest rfl
      rw [splitLines_append hline, List.append_nil]
      by_cases hreturn : line.getLast? = some '\r'
      · obtain ⟨body, rfl⟩ := List.getLast?_eq_some_iff.1 hreturn
        rw [closeLine_return, List.append_assoc]
        exact .returnFeed (fun hmem => hline (List.mem_append_left _ hmem)) hrest
      · rw [closeLine_of_getLast?_ne hreturn]
        exact .feed hline hreturn hrest
    · rw [splitLines_of_notMem hfeed]
      by_cases hne : text = []
      · simpa [hne] using Lines.none
      · simpa [hne] using Lines.unended hne hfeed

/-- A text consists of one list of lines. -/
theorem lines_iff {text : List Char} {lines : List (List Char)} :
    Lines text lines ↔ splitLines [] text = lines :=
  ⟨Lines.splitLines_eq, fun h => h ▸ lines_splitLines text⟩

end InlineCheck.Text
