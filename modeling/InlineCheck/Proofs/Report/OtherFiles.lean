import InlineCheck.Proofs.Report.FirstMessage
import InlineCheck.Store

/-!
# Other files do not interfere

A report of a whole project has messages about many files, and messages about none.  What is
shown for one file depends on the messages about that file alone, in their order and with the
severities of their errors.

* `Report.about` leaves out the messages that are not about a file, and `concerns_iff` says
  which ones these are.
* `Report.get?_index_eq_about` gives the diagnostic of a line from what is left.
* `shown_of_about_eq` is about two reports that differ in the other messages only.
-/

namespace InlineCheck

open Json (Value)

/-- Whether the message is about a line of the file. -/
def concerns (file : Path) (message : Value) : Bool :=
  (messageLine? message).isSome && (messagePath? message).any fun path => path.same file

theorem concerns_iff {file : Path} {message : Value} :
    concerns file message = true ↔ ∃ line, About message file line := by
  simp only [concerns, Bool.and_eq_true, Option.isSome_iff_exists, Option.any_eq_true]
  constructor
  · intro ⟨⟨line, hline⟩, path, hpath, hsame⟩
    obtain ⟨hmember, hpos, hlt⟩ := messageLine?_eq_some_iff.1 hline
    obtain ⟨htext, hne⟩ := messagePath?_eq_some_iff.1 hpath
    refine ⟨line, hmember, hpos, hlt, path.text, htext, hne, ?_⟩
    simpa [Path.same] using hsame
  · intro ⟨line, habout⟩
    obtain ⟨text, htext, hne, hcomponents⟩ := habout.path_eq
    refine ⟨⟨line, messageLine?_eq_some_iff.2 ⟨habout.line_eq, habout.line_pos, habout.line_lt⟩⟩,
      ⟨text⟩, messagePath?_eq_some_iff.2 ⟨htext, hne⟩, ?_⟩
    simpa [Path.same] using hcomponents

namespace Report

/-- The messages about the file in the order of the report, each with the severity of its
error. -/
def about (r : Report) (file : Path) : List (Severity × Value) :=
  (r.messages.filter fun x => concerns file x.2).map fun x => (x.1.severity, x.2)

/-- The diagnostic of a line of a file, found among the messages about the file. -/
theorem get?_index_eq_about (r : Report) (file : Path) (line : Nat) :
    r.index.get? file line =
      ((r.about file).find? fun x =>
        (diagnostic? x.1 x.2).any fun d => d.site == (file.components, line)).bind
      fun x => diagnostic? x.1 x.2 := by
  have hconcerns : ∀ x : Entry × Value,
      ((diagnostic? x.1.severity x.2).any fun d => d.site == (file.components, line)) = true →
        concerns file x.2 = true := by
    intro x hx
    exact concerns_iff.2 ⟨line, any_site_iff.1 hx⟩
  have hfilter : (fun x : Entry × Value => decide (concerns file x.2 = true ∧
      ((diagnostic? x.1.severity x.2).any fun d => d.site == (file.components, line)) = true)) =
        fun x => (diagnostic? x.1.severity x.2).any fun d =>
          d.site == (file.components, line) := by
    funext x
    rw [Bool.eq_iff_iff, decide_eq_true_iff]
    exact and_iff_right_of_imp (hconcerns x)
  rw [get?_index, about, List.find?_map, List.find?_filter]
  simp only [Function.comp_def]
  rw [hfilter, Option.bind_map]
  rfl

/-- Reports with the same messages about a file have the same diagnostics for it. -/
theorem forPath_index_eq {r r' : Report} {file : Path} (h : r.about file = r'.about file) :
    r.index.forPath file = r'.index.forPath file := by
  apply Index.forPath_congr
  intro line
  rw [get?_index_eq_about, get?_index_eq_about, h]

end Report

/-- Two stores that show their diagnostics show the same ones for a file, each after the index
of its own report, if the reports have the same messages about the file.  Messages about other
files or about none may be added, left out or put elsewhere. -/
theorem shown_of_about_eq {r r' : Report} {file : Path} (h : r.about file = r'.about file)
    {s s' : Store} (hs : s.visible = true) (hs' : s'.visible = true) (began began' : Epoch) :
    (s.apply r.index began).1.currentFor file = (s'.apply r'.index began').1.currentFor file := by
  have hforPath := Report.forPath_index_eq h
  simp [Store.apply, Store.currentFor, hs, hs', hforPath]

/-- A message about the same line of another file, one about no line and another spelling of the
path make no difference. -/
theorem shown_of_about_eq_of_another_file :
    let located (path : String) : Value :=
      .object [("line", .number (.whole 3)), ("path", .string path)]
    let r : Report := ⟨[⟨some "warning", [located "/p/b.js", .null]⟩,
      ⟨none, [located "/p/a.js", located "/p/a.js/"]⟩]⟩
    let r' : Report := ⟨[⟨none, [located "/p/a.js", .string "/p/a.js", located "/p/a.js/",
      located "/p/b.js"]⟩]⟩
    let hidden : Store := Store.new.markStale.clearVisible
    let s : Store := hidden.replace .empty
    r.about ⟨"/p/./a.js"⟩ = r'.about ⟨"/p/./a.js"⟩ ∧ s.visible = true ∧
      Store.new.visible = true ∧
      (s.apply r.index 0).1.currentFor ⟨"/p/./a.js"⟩ =
        (Store.new.apply r'.index 0).1.currentFor ⟨"/p/./a.js"⟩ := by
  intro located r r' hidden s
  have habout : r.about ⟨"/p/./a.js"⟩ = r'.about ⟨"/p/./a.js"⟩ := rfl
  exact ⟨habout, rfl, rfl, shown_of_about_eq habout rfl rfl 0 0⟩

end InlineCheck
