import InlineCheck.Program
import InlineCheck.Proofs.Report.FirstMessage
import InlineCheck.Proofs.Run.CheckAll
import InlineCheck.Proofs.Run.Summary
import InlineCheck.Proofs.Scheduler.History

/-!
# When a run fails

A run shows the diagnostics of its files and fails on what it shows.  The lemmas follow a report
from the output of a check to the exit code.

* `Report.Condemns` and `Report.Mentions` say what a report tells about a file; by
  `exists_error_iff` and `exists_get?_iff`, its index tells the same.
* `Session.Shows` is what a check leaves behind, and `Run.Printed` which check of which run that
  was.
* `run_fails_of_report` puts the two together with the summary of the run.

A warning hides the errors of later messages about its line: `error_behind_warning_passes`.
-/

namespace InlineCheck

namespace Report

/-- Some message is about a line of the file. -/
def Mentions (r : Report) (file : Path) : Prop :=
  ∃ x ∈ r.messages, ∃ line, About x.2 file line

/-- A message of an error that is no warning is about a line of the file, and no message of a
warning before it is about that line. -/
def Condemns (r : Report) (file : Path) : Prop :=
  ∃ before e message after line, r.messages = before ++ (e, message) :: after ∧
    ¬ e.IsWarning ∧ About message file line ∧
    ∀ x ∈ before, x.1.IsWarning → ¬ About x.2 file line

theorem exists_get?_iff (r : Report) (file : Path) :
    (∃ line d, r.index.get? file line = some d) ↔ r.Mentions file := by
  constructor
  · rintro ⟨line, d, hget⟩
    obtain ⟨before, e, message, after, hmessages, _, habout, _⟩ :=
      (r.get?_index_eq_some_iff file line d).1 hget
    exact ⟨(e, message), by simp [hmessages], line, habout⟩
  · rintro ⟨x, hx, line, habout⟩
    refine ⟨line, Option.ne_none_iff_exists'.1 fun hnone => ?_⟩
    exact (r.get?_index_eq_none_iff file line).1 hnone x hx habout

/-- A line of the file is taken by an error exactly if no warning took it before. -/
theorem exists_error_iff (r : Report) (file : Path) :
    (∃ line d, r.index.get? file line = some d ∧ d.severity = .error) ↔ r.Condemns file := by
  constructor
  · rintro ⟨line, d, hget, herror⟩
    obtain ⟨before, e, message, after, hmessages, hbefore, habout, _, htells⟩ :=
      (r.get?_index_eq_some_iff file line d).1 hget
    refine ⟨before, e, message, after, line, hmessages, ?_, habout, fun x hx _ => hbefore x hx⟩
    rw [← htells.severity_iff, herror]
    simp
  · rintro ⟨before, e, message, after, line, hmessages, herror, habout, hbefore⟩
    cases hget : r.index.get? file line with
    | none =>
      exact absurd habout ((r.get?_index_eq_none_iff file line).1 hget (e, message)
        (by simp [hmessages]))
    | some d =>
      obtain ⟨first, e', message', rest, hfirst, hnone, habout', _, htells⟩ :=
        (r.get?_index_eq_some_iff file line d).1 hget
      refine ⟨line, d, hget, d.severity.eq_warning_or_error.resolve_left fun hwarning => ?_⟩
      have hwarning := htells.severity_iff.1 hwarning
      -- The first message about the line is no later than that of the error.
      rcases List.append_eq_append_iff.1 (hmessages.symm.trans hfirst) with
        ⟨between, rfl, heq⟩ | ⟨between, rfl, heq⟩
      · rcases between with _ | ⟨x, between⟩
        · obtain ⟨⟨rfl, rfl⟩, rfl⟩ := by simpa using heq
          exact herror hwarning
        · obtain ⟨rfl, -⟩ := List.cons.inj heq
          exact hnone (e, message) (by simp) habout
      · rcases between with _ | ⟨x, between⟩
        · obtain ⟨⟨rfl, rfl⟩, rfl⟩ := by simpa using heq
          exact herror hwarning
        · obtain ⟨rfl, -⟩ := List.cons.inj heq
          exact hbefore (e', message') (by simp) hwarning habout'

end Report

/-! ## Sessions -/

namespace Session

/-- The session shows what the report says about the file. -/
structure Shows (s : Session) (file : Path) (r : Report) : Prop where
  file_eq : s.file = file
  index_eq : s.scheduler.store.index = r.index
  visible_eq : s.scheduler.store.visible = true

variable {file : Path} {output : String} {r : Report}

/-- A session shows the report of a check that it starts when no cycle is under way. -/
theorem Idle.shows_conclude {s : Session} (hs : s.Idle)
    (hvisible : s.scheduler.store.visible = true) (hread : Report.read output = .ok r)
    (mode : CheckMode) :
    ((s.mapScheduler fun scheduler => scheduler.trigger mode).1.conclude
      (.output output)).Shows s.file r := by
  have hindex : (Ending.output output).index = .ok r.index :=
    parse_eq_ok_iff.2 ⟨r, hread, rfl⟩
  rw [hs.conclude_trigger, hindex]
  refine ⟨rfl, rfl, ?_⟩
  show (s.scheduler.store.apply r.index s.scheduler.store.epoch).1.visible = true
  rw [Store.visible_apply, hvisible]
  rfl

theorem shows_checked (hcheckable : file.isCheckable = true) (hread : Report.read output = .ok r) :
    ((new file).checked (.output output)).Shows file r :=
  (idle_new hcheckable).shows_conclude rfl hread .project

theorem file_checkContents (s : Session) (text : String) :
    (s.mapScheduler fun scheduler => scheduler.checkContents text).1.file = s.file := by
  show (s.scheduler.checkContents text).1.file = s.scheduler.file
  rw [Scheduler.checkContents, Scheduler.trigger]
  split <;> rfl

/-- Before a text is checked in place of a file, the store is told that the document changed. -/
theorem idle_markStale (hcheckable : file.isCheckable = true) :
    (mk ((Scheduler.new file).mapStore Store.markStale) none).Idle :=
  ⟨hcheckable, rfl, rfl, rfl⟩

theorem shows_checkContents (hcheckable : file.isCheckable = true)
    (hread : Report.read output = .ok r) (text : String) :
    (((new file).mapScheduler fun scheduler => scheduler.checkContents text).1.conclude
      (.output output)).Shows file r :=
  (idle_markStale hcheckable).shows_conclude rfl hread (.contents text)

end Session

/-! ## Runs -/

/-- The report makes every run fail that checks the file and has these settings. -/
def Report.Fails (r : Report) (settings : Settings) (file : Path) : Prop :=
  r.Condemns file ∨
    settings.failOnWarnings = true ∧ settings.threshold = .warning ∧ r.Mentions file

theorem Session.Shows.exists_shown_iff {s : Session} {file : Path} {r : Report}
    (hs : s.Shows file r) (settings : Settings) :
    (∃ x ∈ Run.shown settings s, x.2.severity = .error ∨ settings.failOnWarnings = true) ↔
      r.Fails settings file := by
  have hshown : ∀ line d, (line, d) ∈ Run.shown settings s ↔
      r.index.get? file line = some d ∧ settings.threshold.admits d.severity = true := by
    intro line d
    rw [Run.mem_shown_iff, hs.file_eq, hs.index_eq, hs.visible_eq]
    exact and_iff_right rfl
  constructor
  · rintro ⟨⟨line, d⟩, hx, hor⟩
    obtain ⟨hget, hadmits⟩ := (hshown line d).1 hx
    rcases d.severity.eq_warning_or_error with hwarning | herror
    · have hthreshold : settings.threshold = .warning := by
        rw [show d.severity = .warning from hwarning] at hadmits
        revert hadmits
        cases settings.threshold <;> decide
      have hfail := hor.resolve_left (by simp [hwarning])
      exact .inr ⟨hfail, hthreshold, (r.exists_get?_iff file).1 ⟨line, d, hget⟩⟩
    · exact .inl ((r.exists_error_iff file).1 ⟨line, d, hget, herror⟩)
  · rintro (hcondemns | ⟨hfail, hthreshold, hmentions⟩)
    · obtain ⟨line, d, hget, herror⟩ := (r.exists_error_iff file).2 hcondemns
      refine ⟨(line, d), (hshown line d).2 ⟨hget, ?_⟩, .inl herror⟩
      rw [herror]
      cases settings.threshold <;> rfl
    · obtain ⟨line, d, hget⟩ := (r.exists_get?_iff file).2 hmentions
      refine ⟨(line, d), (hshown line d).2 ⟨hget, ?_⟩, .inr hfail⟩
      rw [hthreshold]
      rfl

namespace Run

variable {σ : Type} {host : Host (StateM σ)} {settings : Settings} {start : σ}

/-- In the run from the state, the check of the file printed the output.  A run checks all its
files at once, or the text on its standard input in place of its first file. -/
inductive Printed (host : Host (StateM σ)) (settings : Settings) (start : σ) (file : Path)
    (output : String) : Prop
  | once {position : Nat} {endings : List Ending} {checked : σ}
      (stdin_eq : settings.stdin = false) (watch_eq : settings.watch = false)
      (endings_eq : (endingsOf host ⟨settings.flowBin?⟩ (.ofFiles settings.files)).run start =
        (endings, checked))
      (order : ((host.endOrder (Sessions.ofFiles settings.files).length).run checked).1.Perm
        (List.range (Sessions.ofFiles settings.files).length))
      (file_eq : (settings.files.filter Path.isCheckable)[position]? = some file)
      (ending_eq : endings[position]? = some (.output output))
  | buffer {bytes : List UInt8} {text : String} {loaded : σ} (stdin_eq : settings.stdin = true)
      (file_eq : (settings.files.filter Path.isCheckable).head? = some file)
      (input_eq : host.input.run start = (bytes, loaded))
      (text_eq : Text.decodeStrict bytes = .ok text)
      (output_eq : ((Checker.check host ⟨settings.flowBin?⟩ (.contents file text)).run loaded).1 =
        .ok output)

theorem length_endingsOf (host : Host (StateM σ)) (checker : Checker) (sessions : Sessions)
    (start : σ) : ((endingsOf host checker sessions).run start).1.length = sessions.length := by
  induction sessions generalizing start with
  | nil => rfl
  | cons s rest ih =>
    exact congrArg Nat.succ (ih _)

theorem map_fst_withSources (host : Host (StateM σ)) (settings : Settings) (sessions : Sessions)
    (start : σ) :
    ((withSources host settings sessions).run start).1.map Prod.fst = sessions := by
  induction sessions generalizing start with
  | nil => rfl
  | cons s rest ih =>
    rw [withSources]
    split
    · exact congrArg (List.cons s) (ih _)
    · exact congrArg (List.cons s) (ih _)

theorem run_eq_once {first : Session} {rest : Sessions}
    (hsessions : Sessions.ofFiles settings.files = first :: rest)
    (hstdin : settings.stdin = false) (hwatch : settings.watch = false) :
    ((Run.run host settings).run start).1 =
      let shown := ((once host ⟨settings.flowBin?⟩ settings (.ofFiles settings.files)).run
        start).1
      (shown.1, .ok shown.2) := by
  rw [Run.run]
  simp only [hsessions, hstdin, hwatch]
  rfl

theorem once_eq (host : Host (StateM σ)) (checker : Checker) (sessions : Sessions) (start : σ) :
    let endings := (endingsOf host checker sessions).run start
    ((once host checker settings sessions).run start).1.2 =
      summarize settings (sessions.checkAll endings.1
        ((host.endOrder sessions.length).run endings.2).1) := by
  exact congrArg (summarize settings) (map_fst_withSources ..)

theorem run_bind {α β : Type} (c : StateM σ α) (f : α → StateM σ β) (start : σ) :
    (c >>= f).run start = (f (c.run start).1).run (c.run start).2 := rfl

theorem run_eq_buffer {first : Session} {rest : Sessions} {bytes : List UInt8} {text : String}
    {loaded : σ} (hsessions : Sessions.ofFiles settings.files = first :: rest)
    (hstdin : settings.stdin = true) (hinput : host.input.run start = (bytes, loaded))
    (htext : Text.decodeStrict bytes = .ok text) :
    ((Run.run host settings).run start).1 =
      let shown := ((buffer host ⟨settings.flowBin?⟩ settings first text).run loaded).1
      (shown.1, .ok shown.2) := by
  rw [Run.run]
  simp only [hsessions, hstdin, if_true]
  rw [run_bind, hinput]
  simp only [htext]
  rw [run_bind]
  -- What the check gives need not be looked at, which is why it gets a name.
  generalize (buffer host ⟨settings.flowBin?⟩ settings first text).run loaded = shown
  rfl

theorem buffer_eq (host : Host (StateM σ)) (checker : Checker) (settings : Settings)
    (s : Session) (text : String) (loaded : σ) :
    let opened := (s.mapScheduler fun scheduler => scheduler.checkContents text).1
    ((buffer host checker settings s text).run loaded).1 =
      render settings [(opened.conclude
        (endingOf ((checker.check host (.contents opened.file text)).run loaded).1),
        some text)] := by
  intro opened
  rw [buffer, run_bind]
  generalize (checker.check host (.contents opened.file text)).run loaded = checked
  show render settings ((Sessions.conclude [opened] 0 (endingOf checked.1)).map fun s =>
    (s, some text)) = _
  rw [Sessions.conclude_eq]
  rfl

/-- The summary of a run is about sessions of which one shows what was printed for the file. -/
theorem Printed.exists_shows {file : Path} {output : String} {r : Report}
    (h : Printed host settings start file output) (hread : Report.read output = .ok r) :
    ∃ sessions : Sessions, ((Run.run host settings).run start).1.2 =
        .ok (summarize settings sessions) ∧
      (∃ s ∈ sessions, s.Shows file r) ∧
      (settings.files.filter Path.isCheckable = [file] → sessions.length = 1) := by
  cases h with
  | @once position endings checked hstdin hwatch hendings horder hfile hending =>
    have hcheckable : file.isCheckable = true :=
      (List.mem_filter.1 (List.mem_of_getElem? hfile)).2
    have hposition : (Sessions.ofFiles settings.files)[position]? = some (.new file) := by
      rw [Sessions.ofFiles, List.getElem?_map, hfile]
      rfl
    obtain ⟨first, rest, hsessions⟩ :=
      List.exists_cons_of_ne_nil (List.ne_nil_of_mem (List.mem_of_getElem? hposition))
    have hlength : endings.length = (Sessions.ofFiles settings.files).length := by
      have := length_endingsOf host ⟨settings.flowBin?⟩ (Sessions.ofFiles settings.files)
        start
      rwa [hendings] at this
    -- In whatever order the checks end, each session is left with its own ending.
    refine ⟨List.zipWith Session.checked (Sessions.ofFiles settings.files) endings, ?_, ?_, ?_⟩
    · rw [run_eq_once hsessions hstdin hwatch]
      refine congrArg Except.ok ((once_eq ..).trans ?_)
      rw [hendings, Sessions.checkAll_eq _ hlength horder]
    · refine ⟨(Session.new file).checked (.output output), ?_, ?_⟩
      · refine List.mem_of_getElem? (i := position) ?_
        rw [List.getElem?_zipWith, hposition, hending]
      · exact Session.shows_checked hcheckable hread
    · intro honly
      rw [List.length_zipWith, hlength, Nat.min_self, Sessions.ofFiles, honly]
      rfl
  | @buffer bytes text loaded hstdin hfile hinput htext houtput =>
    have hcheckable : file.isCheckable = true :=
      (List.mem_filter.1 (List.mem_of_mem_head? hfile)).2
    obtain ⟨rest, hrest⟩ := List.head?_eq_some_iff.1 hfile
    have hsessions : Sessions.ofFiles settings.files = .new file :: rest.map .new := by
      rw [Sessions.ofFiles, hrest]
      rfl
    -- The text takes the place of the first file, and the others are not checked.
    have hopened : ((Session.new file).mapScheduler fun scheduler =>
        scheduler.checkContents text).1.file = file := Session.file_checkContents _ _
    refine ⟨[((Session.new file).mapScheduler fun scheduler =>
      scheduler.checkContents text).1.conclude (.output output)], ?_, ⟨_, List.mem_singleton_self _,
        Session.shows_checkContents hcheckable hread text⟩, fun _ => rfl⟩
    rw [run_eq_buffer hsessions hstdin hinput htext, buffer_eq, hopened, houtput]
    rfl

/-- The exit code of a run that has a summary. -/
theorem code_runWith {summary : Summary}
    (h : ((Run.run host settings).run start).1.2 = .ok summary) :
    ((Program.runWith host settings).run start).1.code = if summary.failed then 1 else 0 := by
  rw [Program.runWith, StateT.run_bind]
  rcases hrun : (Run.run host settings).run start with ⟨⟨screen, result⟩, finished⟩
  rw [hrun] at h
  subst h
  rfl

end Run

/-- A run whose check of a file printed a report fails, and ends with code 1, if the report has
an error about a line of the file that no warning before it is about, or if warnings count as
failures and the report mentions the file at all.  A run of this file alone fails only then. -/
theorem run_fails_of_report {σ : Type} {host : Host (StateM σ)} {settings : Settings} {start : σ}
    {file : Path} {output : String} {r : Report}
    (hprinted : Run.Printed host settings start file output)
    (hread : Report.read output = .ok r) :
    ∃ summary, ((Run.run host settings).run start).1.2 = .ok summary ∧
      ((Program.runWith host settings).run start).1.code = (if summary.failed then 1 else 0) ∧
      (r.Fails settings file → summary.failed = true) ∧
      (settings.files.filter Path.isCheckable = [file] → summary.failed = true →
        r.Fails settings file) := by
  obtain ⟨sessions, hrun, ⟨s, hs, hshows⟩, hlength⟩ := hprinted.exists_shows hread
  refine ⟨Run.summarize settings sessions, hrun, Run.code_runWith hrun, ?_, ?_⟩
  · intro hfails
    obtain ⟨x, hx, hor⟩ := (hshows.exists_shown_iff settings).2 hfails
    exact (Run.failed_summarize_iff settings sessions).2 ⟨s, hs, x, hx, hor⟩
  · intro honly hfailed
    obtain ⟨only, rfl⟩ := List.length_eq_one_iff.1 (hlength honly)
    obtain ⟨s', hs', x, hx, hor⟩ := (Run.failed_summarize_iff settings _).1 hfailed
    obtain rfl := List.mem_singleton.1 hs
    obtain rfl := List.mem_singleton.1 hs'
    exact (hshows.exists_shown_iff settings).1 ⟨x, hx, hor⟩

/-- A host whose checker prints one text, whatever it is asked. -/
def Host.printing (output : String) : Host (StateM Unit) where
  currentDir := pure (.ok ⟨"/p"⟩)
  isFile _ := pure true
  isProgram _ := pure false
  canonical? _ := pure none
  readText? _ := pure none
  environment? _ := pure none
  accountHome? := pure none
  launch _ := pure (.ok ⟨some 2, Text.encode output, []⟩)
  endOrder count := pure (List.range count)
  input := pure []
  watch _ := pure (.ok ())

/-- The settings of a run that checks one file and tells its result by the exit code. -/
def Settings.checking (file : Path) : Settings where
  workspace := ⟨"/p"⟩
  files := [file]
  output := .machine
  threshold := .warning
  stdin := false
  watch := false
  preserveWatchOutput := false
  failOnWarnings := false
  flowBin? := some ⟨"/p/flow"⟩

/-- A warning about another line does not keep an error from making the run fail. -/
theorem run_fails_of_report_behind_warning :
    let output := "[[[\"warning\",[\x7b\"line\":2,\"path\":\"/p/a.js\"\x7d]]," ++
      "[null,[\x7b\"line\":3,\"path\":\"/p/a.js\"\x7d]]]]"
    let settings := Settings.checking ⟨"/p/a.js"⟩
    Run.Printed (.printing output) settings () ⟨"/p/a.js"⟩ output ∧
      ((Program.runWith (.printing output) settings).run ()).1.code = 1 := by
  intro output settings
  let message (line : Nat) : Json.Value :=
    .object [("line", .number (.whole line)), ("path", .string "/p/a.js")]
  let warning : Entry := ⟨some "warning", [message 2]⟩
  let error : Entry := ⟨none, [message 3]⟩
  have hprinted : Run.Printed (.printing output) settings () ⟨"/p/a.js"⟩ output :=
    @Run.Printed.once Unit _ settings () ⟨"/p/a.js"⟩ output 0 [.output output] () rfl rfl
      (by show (_ : List Ending × Unit) = _; decide +kernel) (.refl _) (by decide +kernel) rfl
  have hread : Report.read output = .ok ⟨[warning, error]⟩ := by
    rw [Report.read]
    simp only [output, String.reduceAppend, String.reduceToList]
    rfl
  have habout : About (message 3) ⟨"/p/a.js"⟩ 3 :=
    ⟨rfl, by decide, by decide, "/p/a.js", rfl, by decide, rfl⟩
  have hcondemns : (Report.mk [warning, error]).Condemns ⟨"/p/a.js"⟩ := by
    refine ⟨[(warning, message 2)], error, message 3, [], 3, rfl, ?_, habout, ?_⟩
    · rintro ⟨level, hlevel, _⟩
      cases hlevel
    · intro x hx _ hother
      obtain rfl := List.mem_singleton.1 hx
      cases hother.line_eq
  obtain ⟨summary, _, hcode, hfails, _⟩ := run_fails_of_report hprinted hread
  refine ⟨hprinted, ?_⟩
  rw [hcode, hfails (.inl hcondemns)]
  rfl

/-- An error about a line that a warning took before is not shown, and the run passes. -/
theorem error_behind_warning_passes :
    let output := "[[[\"warning\",[\x7b\"line\":3,\"path\":\"/p/a.js\"\x7d]]," ++
      "[null,[\x7b\"line\":3,\"path\":\"/p/a.js\"\x7d]]]]"
    let settings := Settings.checking ⟨"/p/a.js"⟩
    Run.Printed (.printing output) settings () ⟨"/p/a.js"⟩ output ∧
      (∃ r, Report.read output = .ok r ∧ ∃ x ∈ r.messages, ¬ x.1.IsWarning ∧
        ∃ line, About x.2 ⟨"/p/a.js"⟩ line) ∧
      ((Program.runWith (.printing output) settings).run ()).1.code = 0 := by
  intro output settings
  let message : Json.Value := .object [("line", .number (.whole 3)), ("path", .string "/p/a.js")]
  let error : Entry := ⟨none, [message]⟩
  have hread : Report.read output = .ok ⟨[⟨some "warning", [message]⟩, error]⟩ := by
    rw [Report.read]
    simp only [output, String.reduceAppend, String.reduceToList]
    rfl
  have hmem : (error, message) ∈ (Report.mk [⟨some "warning", [message]⟩, error]).messages := by
    simp [Report.messages, error]
  refine ⟨?_, ⟨_, hread, (error, message), hmem, ?_, 3, ?_⟩, ?_⟩
  · exact @Run.Printed.once Unit _ settings () ⟨"/p/a.js"⟩ output 0 [.output output] () rfl rfl
      (by show (_ : List Ending × Unit) = _; decide +kernel) (.refl _) (by decide +kernel) rfl
  · rintro ⟨level, hlevel, _⟩
    cases hlevel
  · exact ⟨rfl, by decide, by decide, "/p/a.js", rfl, by decide, rfl⟩
  · decide +kernel

end InlineCheck
