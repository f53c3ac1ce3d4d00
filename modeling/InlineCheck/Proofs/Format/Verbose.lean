import InlineCheck.Format
import InlineCheck.Proofs.Text.Lines

/-!
# Verbose output

Verbose output is plain output with source lines in it.  `Inserted` says so block by block, with the
lines of the source given as those it consists of, and `inserted_render` shows that the two formats
stay in step.
-/

namespace InlineCheck.Format

/-- A source line as it stands in a block, with its number. -/
def quotedLine (number : Nat) (line : List Char) : String :=
  "  " ++ toString number ++ " | " ++ String.ofList line ++ "\n"

/-- The second text shows the diagnostics as the first one does, and in each block, in front of the
empty line at its end, the source line of the diagnostic if the source has it. -/
inductive Inserted (file : Path) (lines : List (List Char)) :
    List (Nat × Diagnostic) → String → String → Prop
  | none : Inserted file lines [] "" ""
  | shown {number : Nat} {d : Diagnostic} {line : List Char} {entries : List (Nat × Diagnostic)}
      {plain verbose : String} (hpos : 1 ≤ number) (hline : lines[number - 1]? = some line)
      (hrest : Inserted file lines entries plain verbose) :
      Inserted file lines ((number, d) :: entries) (humanHead file number d ++ "\n" ++ plain)
        (humanHead file number d ++ quotedLine number line ++ "\n" ++ verbose)
  | missing {number : Nat} {d : Diagnostic} {entries : List (Nat × Diagnostic)}
      {plain verbose : String} (hnumber : ¬ (1 ≤ number ∧ number ≤ lines.length))
      (hrest : Inserted file lines entries plain verbose) :
      Inserted file lines ((number, d) :: entries) (humanHead file number d ++ "\n" ++ plain)
        (humanHead file number d ++ "\n" ++ verbose)

variable {file : Path} {lines : List (List Char)} {text : String}

/-- A block shows the source line of its number, or there is no such line. -/
theorem snippet_cases (h : Text.Lines text.toList lines) (number : Nat) :
    (∃ line, 1 ≤ number ∧ lines[number - 1]? = some line ∧
        snippet (Text.lines text) number = quotedLine number line) ∨
      ¬ (1 ≤ number ∧ number ≤ lines.length) ∧ snippet (Text.lines text) number = "" := by
  have hlines : Text.lines text = lines.map String.ofList := by
    rw [Text.lines, Text.lines_iff.1 h]
  cases number with
  | zero => exact .inr ⟨by simp, rfl⟩
  | succ n =>
    have hat : sourceLine? (Text.lines text) (n + 1) = lines[n]?.map String.ofList := by
      rw [sourceLine?, hlines, List.getElem?_map]
    rw [snippet, hat]
    cases hline : lines[n]? with
    | none =>
      have hlength : lines.length ≤ n := List.getElem?_eq_none_iff.1 hline
      exact .inr ⟨by omega, rfl⟩
    | some line => exact .inl ⟨line, by omega, hline, rfl⟩

theorem Inserted.cons (h : Text.Lines text.toList lines) (entry : Nat × Diagnostic)
    {entries : List (Nat × Diagnostic)} {plain verbose : String}
    (hrest : Inserted file lines entries plain verbose) :
    Inserted file lines (entry :: entries) (humanBlock file entry ++ plain)
      (verboseBlock file (Text.lines text) entry ++ verbose) := by
  obtain ⟨number, d⟩ := entry
  rcases snippet_cases h number with ⟨line, hpos, hline, hsnippet⟩ | ⟨hnumber, hsnippet⟩
  · simp only [humanBlock, verboseBlock, hsnippet]
    exact .shown hpos hline hrest
  · simp only [humanBlock, verboseBlock, hsnippet, String.append_empty]
    exact .missing hnumber hrest

theorem inserted_join (h : Text.Lines text.toList lines) (entries : List (Nat × Diagnostic)) :
    Inserted file lines entries (.join (entries.map (humanBlock file)))
      (.join (entries.map (verboseBlock file (Text.lines text)))) := by
  induction entries with
  | nil => exact .none
  | cons entry entries ih =>
    rw [List.map_cons, List.map_cons, String.join_cons, String.join_cons]
    exact ih.cons h entry

theorem Inserted.eq_of_nil {entries : List (Nat × Diagnostic)} {plain verbose : String}
    (h : Inserted file [] entries plain verbose) : verbose = plain := by
  induction h with
  | none => rfl
  | shown hpos hline _ _ => cases hline
  | missing _ _ ih => rw [ih]

/-- A source consists of one list of lines, and the verbose output is the plain one with these lines
inserted.  If there is no source or nothing in it, the two are the same. -/
theorem inserted_render (file : Path) (source other : Option String)
    (entries : List (Nat × Diagnostic)) :
    (∃! lines, Text.Lines (source.getD "").toList lines) ∧
      (∀ lines, Text.Lines (source.getD "").toList lines →
        Inserted file lines entries (render .human file other entries)
          (render .humanVerbose file source entries)) ∧
      (source = none ∨ source = some "" →
        render .humanVerbose file source entries = render .human file other entries) := by
  have hinserted : ∀ lines, Text.Lines (source.getD "").toList lines →
      Inserted file lines entries (render .human file other entries)
        (render .humanVerbose file source entries) :=
    fun lines h => inserted_join h entries
  refine ⟨⟨_, Text.lines_splitLines _, fun lines h => (Text.lines_iff.1 h).symm⟩, hinserted, ?_⟩
  rintro (rfl | rfl) <;> exact (hinserted [] .none).eq_of_nil

/-- Of a source with an empty line and a line that ends in a lone carriage return, the last line is
shown whole, and nothing is shown for numbers that are no lines. -/
theorem inserted_render_of_lines :
    let file : Path := ⟨"a.js"⟩
    let d : Diagnostic := ⟨file, 3, .warning, "e", .null⟩
    let source := "x\r\n\ny\r"
    let entries := [(3, d), (0, d), (4, d), (4294967295, d)]
    let lines : List (List Char) := [['x'], [], ['y', '\r']]
    Text.Lines source.toList lines ∧
      Inserted file lines entries (render .human file none entries)
        (render .humanVerbose file (some source) entries) ∧
      render .humanVerbose file (some "") entries = render .human file none entries := by
  intro file d source entries lines
  have hlines : Text.Lines source.toList lines := Text.lines_iff.2 (by decide)
  obtain ⟨_, hinserted, _⟩ := inserted_render file (some source) none entries
  obtain ⟨_, _, hempty⟩ := inserted_render file (some "") none entries
  exact ⟨hlines, hinserted lines hlines, hempty (.inr rfl)⟩

end InlineCheck.Format
