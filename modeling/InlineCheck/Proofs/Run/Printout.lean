import InlineCheck.Proofs.Run.Failure

/-!
# What a run prints

A run over files starts all checks at once, waits for all of them and then prints what they
found.  A `Subject` is one of its files with the ending of its check.  `Printout` says what is
printed about the subjects, and what is counted; the order in which the checks ended does not
occur in it.

* `Subject.finds` says which diagnostics of a file are printed, and in which order.
* `printout_render` says that showing the sessions of the subjects gives their printout.
* `shownAfter_eq` says that no order of the ends makes a difference.
* `run_prints_findings` puts this together for a whole run.
-/

namespace InlineCheck

namespace Run

/-! ## Subjects -/

/-- One file of a run, with the ending of its check, and with its text if the format shows
it. -/
structure Subject where
  file : Path
  ending : Ending
  source : Option String

namespace Subject

variable (settings : Settings) (x : Subject)

/-- Why the check failed, if it did. -/
def error? : Option CheckError :=
  match x.ending.index with
  | .ok _ => none
  | .error error => some error

/-- The diagnostics of the file that are shown, with their lines. -/
def entries : List (Nat × Diagnostic) :=
  match x.ending.index with
  | .ok index =>
    (index.forPath x.file).filter fun entry => settings.threshold.admits entry.2.severity
  | .error _ => []

/-- The line about a check that failed. -/
def complaint : String :=
  match x.error? with
  | some error => "Error: could not check " ++ x.file.text ++ ": " ++ error.message ++ "\n"
  | none => ""

/-- The session of the file after its check. -/
def session : Session :=
  (Session.new x.file).checked x.ending

/-- The entries are the diagnostics of the index that are about the file and pass the threshold,
in ascending order of their lines. -/
structure Finds (entries : List (Nat × Diagnostic)) : Prop where
  ascending : entries.Pairwise fun a b => a.1 < b.1
  mem_iff : ∀ line d, (line, d) ∈ entries ↔
    ∃ index, x.ending.index = .ok index ∧ d ∈ index.entries ∧ d.path.same x.file = true ∧
      d.line = line ∧ settings.threshold.admits d.severity = true

theorem finds : x.Finds settings (x.entries settings) := by
  rw [entries]
  cases hindex : x.ending.index with
  | error error => exact ⟨.nil, by simp [hindex]⟩
  | ok index =>
    refine ⟨(index.pairwise_forPath x.file).filter _, fun line d => ?_⟩
    rw [List.mem_filter, Index.mem_forPath_iff, Index.get?_eq_some_iff]
    simp only [hindex, Except.ok.injEq, exists_eq_left', Diagnostic.site, Prod.mk.injEq,
      Path.same, beq_iff_eq, and_assoc]

/-- The session shows what the check of the subject found. -/
structure Ended (s : Session) : Prop where
  file_eq : s.file = x.file
  shown_eq : ∀ settings, shown settings s = x.entries settings
  lastError_eq : s.lastError = x.error?.map CheckError.message

variable {x}

/-- Whatever is checked for the file, its session shows what was found. -/
theorem ended_conclude {s : Session} (hs : s.Idle) (hfile : s.file = x.file)
    (hempty : s.scheduler.store.index = .empty) (hvisible : s.scheduler.store.visible = true)
    (mode : CheckMode) :
    x.Ended ((s.mapScheduler fun scheduler => scheduler.trigger mode).1.conclude x.ending) := by
  rw [hs.conclude_trigger]
  cases hindex : x.ending.index with
  | ok index =>
    refine ⟨hfile, fun settings => ?_, by rw [error?, hindex]; rfl⟩
    simp only [shown, entries, hindex, Session.file] at hfile ⊢
    simp [Scheduler.mapStore, Store.apply, Store.currentFor, hvisible, hfile]
  | error error =>
    refine ⟨hfile, fun settings => ?_, by rw [error?, hindex]; rfl⟩
    simp [shown, entries, hindex, Store.currentFor, hempty, Index.forPath, Index.empty]

theorem ended_session (hfile : x.file.isCheckable = true) : x.Ended x.session :=
  ended_conclude (Session.idle_new hfile) rfl rfl rfl .project

theorem Ended.complaint_eq {s : Session} (h : x.Ended s) : Run.complaint s = x.complaint := by
  rw [Run.complaint, h.lastError_eq, h.file_eq, complaint]
  cases x.error? <;> rfl

end Subject

/-! ## Printouts -/

variable (settings : Settings)

/-- What is printed about the subjects: one array of objects, or a block for each subject, and
below the blocks what was counted, unless a machine reads them. -/
def text (subjects : List Subject) (summary : Summary) : String :=
  let blocks := String.join (subjects.map fun x =>
    settings.output.render x.file x.source (x.entries settings))
  match settings.output with
  | .json =>
    (Json.Value.array (subjects.flatMap fun x =>
      (x.entries settings).map (Format.jsonObject x.file))).pretty ++ "\n"
  | .machine => blocks
  | .human => blocks ++ summary.text ++ "\n"
  | .humanVerbose => blocks ++ summary.text ++ "\n"

/-- What is printed about the subjects, and what is counted. -/
structure Printout (subjects : List Subject) (screen : Screen) (summary : Summary) : Prop where
  files : summary.files = subjects.length
  unchecked : summary.unchecked = subjects.countP fun x => x.error?.isSome
  finds : ∀ x ∈ subjects, x.Finds settings (x.entries settings)
  errors : summary.errors =
    (subjects.flatMap (Subject.entries settings)).countP fun x => x.2.severity == .error
  warnings : summary.warnings =
    (subjects.flatMap (Subject.entries settings)).countP fun x => x.2.severity == .warning
  failOnWarnings : summary.failOnWarnings = settings.failOnWarnings
  failed_iff : summary.failed = true ↔
    0 < summary.errors ∨ settings.failOnWarnings = true ∧ 0 < summary.warnings
  out : screen.out = text settings subjects summary
  err : screen.err = .join (subjects.map Subject.complaint)

variable {settings} {subjects : List Subject}

theorem map_fst_subjects (subjects : List Subject) :
    (subjects.map fun x => (x.session, x.source)).map Prod.fst = subjects.map Subject.session := by
  rw [List.map_map]
  rfl

theorem output_eq (hfiles : ∀ x ∈ subjects, x.file.isCheckable = true) :
    output settings (subjects.map fun x => (x.session, x.source)) =
      text settings subjects (summarize settings (subjects.map Subject.session)) := by
  have hblocks : (subjects.map fun x =>
      settings.output.render x.session.file x.source (shown settings x.session)) =
        subjects.map fun x => settings.output.render x.file x.source (x.entries settings) := by
    refine List.map_congr_left fun x hx => ?_
    rw [(x.ended_session (hfiles x hx)).file_eq, (x.ended_session (hfiles x hx)).shown_eq]
  have hobjects : (subjects.flatMap fun x =>
      (shown settings x.session).map (Format.jsonObject x.session.file)) =
        subjects.flatMap fun x => (x.entries settings).map (Format.jsonObject x.file) := by
    refine List.flatMap_congr fun x hx => ?_
    rw [(x.ended_session (hfiles x hx)).file_eq, (x.ended_session (hfiles x hx)).shown_eq]
  rw [text, ← hblocks, ← hobjects, output, map_fst_subjects, List.map_map, List.flatMap_map]
  rfl

/-- The counters of the sessions are those of the subjects. -/
theorem summarize_session (hfiles : ∀ x ∈ subjects, x.file.isCheckable = true) :
    summarize settings (subjects.map Subject.session) =
      { files := subjects.length
        unchecked := subjects.countP fun x => x.error?.isSome
        errors :=
          (subjects.flatMap (Subject.entries settings)).countP fun x => x.2.severity == .error
        warnings :=
          (subjects.flatMap (Subject.entries settings)).countP fun x => x.2.severity == .warning
        failOnWarnings := settings.failOnWarnings } := by
  have hentries : (subjects.map Subject.session).flatMap (shown settings) =
      subjects.flatMap (Subject.entries settings) := by
    rw [List.flatMap_map]
    exact List.flatMap_congr fun x hx => (x.ended_session (hfiles x hx)).shown_eq settings
  have hcount : (subjects.map Subject.session).countP (fun s => s.lastError.isSome) =
      subjects.countP fun x => x.error?.isSome := by
    rw [List.countP_map]
    refine List.countP_congr fun x hx => ?_
    rw [Function.comp_apply, (x.ended_session (hfiles x hx)).lastError_eq, Option.isSome_map]
  rw [summarize_eq, hentries, hcount, List.length_map]

/-- Showing the sessions of the subjects gives their printout. -/
theorem printout_render (hfiles : ∀ x ∈ subjects, x.file.isCheckable = true) :
    let shown := render settings (subjects.map fun x => (x.session, x.source))
    Printout settings subjects shown.1 shown.2 := by
  intro shown
  have hsummary : shown.2 = summarize settings (subjects.map Subject.session) :=
    congrArg (summarize settings) (map_fst_subjects subjects)
  have herr : shown.1.err = .join (subjects.map Subject.complaint) := by
    have hcomplaints : subjects.map (fun x => complaint x.session) =
        subjects.map Subject.complaint :=
      List.map_congr_left fun x hx => (x.ended_session (hfiles x hx)).complaint_eq
    rw [← hcomplaints]
    exact congrArg String.join List.map_map
  have hout : shown.1.out = text settings subjects shown.2 := by
    rw [hsummary]
    exact output_eq hfiles
  have hcounts := hsummary.trans (summarize_session hfiles)
  refine ⟨?_, ?_, fun x _ => x.finds settings, ?_, ?_, ?_, ?_, hout, herr⟩
  · rw [hcounts]
  · rw [hcounts]
  · rw [hcounts]
  · rw [hcounts]
  · rw [hcounts]
  · rw [hcounts]
    simp [Summary.failed, and_comm]

/-! ## Checks in any order -/

/-- What is shown of the files after checks that end as those of the subjects, in the given
order. -/
def shownAfter (settings : Settings) (subjects : List Subject) (order : List Nat) :
    Screen × Summary :=
  render settings (((Sessions.ofFiles settings.files).checkAll
    (subjects.map Subject.ending) order).zip (subjects.map Subject.source))

theorem checkAll_ofFiles {files : List Path} {order : List Nat}
    (hfiles : subjects.map Subject.file = files.filter Path.isCheckable)
    (horder : order.Perm (List.range subjects.length)) :
    (Sessions.ofFiles files).checkAll (subjects.map Subject.ending) order =
      subjects.map Subject.session := by
  have hsessions : Sessions.ofFiles files = subjects.map fun x => Session.new x.file := by
    rw [Sessions.ofFiles, ← hfiles, List.map_map]
    rfl
  rw [Sessions.checkAll_eq _ (by simp [hsessions]) (by simpa [hsessions] using horder), hsessions,
    List.zipWith_map, List.zipWith_self]
  rfl

theorem shownAfter_eq {order : List Nat}
    (hfiles : subjects.map Subject.file = settings.files.filter Path.isCheckable)
    (horder : order.Perm (List.range subjects.length)) :
    shownAfter settings subjects order =
      render settings (subjects.map fun x => (x.session, x.source)) := by
  rw [shownAfter, checkAll_ofFiles hfiles horder, List.zip_map']

theorem isCheckable_of_map_file {files : List Path}
    (hfiles : subjects.map Subject.file = files.filter Path.isCheckable) :
    ∀ x ∈ subjects, x.file.isCheckable = true := by
  intro x hx
  have hmem : x.file ∈ files.filter Path.isCheckable := hfiles ▸ List.mem_map_of_mem hx
  exact (List.mem_filter.1 hmem).2

/-! ## Runs -/

variable {σ : Type}

/-- The text of a file, if the format shows it. -/
def sourceOf {m : Type → Type} [Monad m] (host : Host m) (settings : Settings) (file : Path) :
    m (Option String) :=
  if settings.output = .humanVerbose then host.readText? file else pure none

/-- The texts of the files, as far as the format shows them. -/
def sourcesOf {m : Type → Type} [Monad m] (host : Host m) (settings : Settings) :
    List Path → m (List (Option String))
  | [] => return []
  | file :: rest => do
    let source ← sourceOf host settings file
    return source :: (← sourcesOf host settings rest)

theorem length_sourcesOf (host : Host (StateM σ)) (files : List Path) (start : σ) :
    ((sourcesOf host settings files).run start).1.length = files.length := by
  induction files generalizing start with
  | nil => rfl
  | cons file rest ih => exact congrArg Nat.succ (ih _)

theorem withSources_eq (host : Host (StateM σ)) (sessions : Sessions) (start : σ) :
    (withSources host settings sessions).run start =
      let sources := (sourcesOf host settings (sessions.map Session.file)).run start
      (sessions.zip sources.1, sources.2) := by
  induction sessions generalizing start with
  | nil => rfl
  | cons s rest ih =>
    have hcons : (withSources host settings (s :: rest)).run start =
        let source := (sourceOf host settings s.file).run start
        let others := (withSources host settings rest).run source.2
        ((s, source.1) :: others.1, others.2) := by
      rw [withSources, sourceOf]
      split <;> rfl
    rw [hcons]
    simp only [ih]
    rfl

theorem exists_subjects {files : List Path} {endings : List Ending}
    {sources : List (Option String)} (hendings : endings.length = files.length)
    (hsources : sources.length = files.length) :
    ∃ subjects : List Subject, subjects.map Subject.file = files ∧
      subjects.map Subject.ending = endings ∧ subjects.map Subject.source = sources := by
  induction files generalizing endings sources with
  | nil =>
    obtain rfl := List.length_eq_zero_iff.1 hendings
    obtain rfl := List.length_eq_zero_iff.1 hsources
    exact ⟨[], rfl, rfl, rfl⟩
  | cons file files ih =>
    obtain ⟨ending, endings, rfl⟩ := List.exists_cons_of_length_eq_add_one hendings
    obtain ⟨source, sources, rfl⟩ := List.exists_cons_of_length_eq_add_one hsources
    obtain ⟨subjects, rfl, rfl, rfl⟩ :=
      ih (Nat.succ_inj.1 hendings) (Nat.succ_inj.1 hsources)
    exact ⟨⟨file, ending, source⟩ :: subjects, rfl, rfl, rfl⟩

/-- What a run prints and counts comes of how its checks end and of the texts of its files, once
all of its checks have ended. -/
theorem once_subjects (host : Host (StateM σ)) (start : σ)
    (hfiles : subjects.map Subject.file = settings.files.filter Path.isCheckable)
    (hendings : subjects.map Subject.ending =
      ((endingsOf host ⟨settings.flowBin?⟩ (.ofFiles settings.files)).run start).1) :
    let checks := (endingsOf host ⟨settings.flowBin?⟩ (.ofFiles settings.files)).run start
    let order := (host.endOrder (settings.files.filter Path.isCheckable).length).run checks.2
    order.1.Perm (List.range (settings.files.filter Path.isCheckable).length) →
    subjects.map Subject.source =
      ((sourcesOf host settings (settings.files.filter Path.isCheckable)).run order.2).1 →
    ((once host ⟨settings.flowBin?⟩ settings (.ofFiles settings.files)).run start).1 =
      render settings (subjects.map fun x => (x.session, x.source)) := by
  intro checks order horder hsources
  have hlength : (Sessions.ofFiles settings.files).length =
      (settings.files.filter Path.isCheckable).length := List.length_map _
  have hcount : subjects.length = (settings.files.filter Path.isCheckable).length := by
    rw [← hfiles, List.length_map]
  have hchecked : (Sessions.ofFiles settings.files).checkAll checks.1 order.1 =
      subjects.map Subject.session := by
    rw [← hendings]
    exact checkAll_ofFiles hfiles (hcount ▸ horder)
  have honce : ((once host ⟨settings.flowBin?⟩ settings (.ofFiles settings.files)).run start).1 =
      render settings ((withSources host settings
        ((Sessions.ofFiles settings.files).checkAll checks.1 order.1)).run order.2).1 := by
    show render settings ((withSources host settings ((Sessions.ofFiles settings.files).checkAll
      checks.1 ((host.endOrder (Sessions.ofFiles settings.files).length).run checks.2).1)).run
      ((host.endOrder (Sessions.ofFiles settings.files).length).run checks.2).2).1 = _
    rw [hlength]
  have hmap : (subjects.map Subject.session).map Session.file =
      settings.files.filter Path.isCheckable := by
    rw [← hfiles, List.map_map]
    exact List.map_congr_left fun x hx =>
      (x.ended_session (isCheckable_of_map_file hfiles x hx)).file_eq
  rw [honce, hchecked, withSources_eq, hmap]
  simp only
  rw [← hsources, List.zip_map']

end Run

/-- A run that neither reads its input nor watches fails for want of files just if none of them
is checked.  Otherwise it gives the printout of its files.  Whatever the endings of the checks are,
the printout is the same for every order in which they come. -/
theorem run_prints_findings {σ : Type} (host : Host (StateM σ)) (settings : Settings) (start : σ)
    (hstdin : settings.stdin = false) (hwatch : settings.watch = false) :
    let files := settings.files.filter Path.isCheckable
    let result := ((Run.run host settings).run start).1
    let checks := (Run.endingsOf host ⟨settings.flowBin?⟩ (.ofFiles settings.files)).run start
    let order := (host.endOrder files.length).run checks.2
    let sources := (Run.sourcesOf host settings files).run order.2
    (result.2 = .error .noFiles ↔ files = []) ∧
      (files ≠ [] → order.1.Perm (List.range files.length) →
        ∃ subjects summary, subjects.map Run.Subject.file = files ∧
          subjects.map Run.Subject.ending = checks.1 ∧
          subjects.map Run.Subject.source = sources.1 ∧
          result.2 = .ok summary ∧ Run.Printout settings subjects result.1 summary) ∧
      ∀ (subjects : List Run.Subject) (order order' : List Nat),
        subjects.map Run.Subject.file = files → order.Perm (List.range files.length) →
        order'.Perm (List.range files.length) →
          let shown := Run.shownAfter settings subjects order
          Run.Printout settings subjects shown.1 shown.2 ∧
            Run.shownAfter settings subjects order' = shown := by
  intro files result checks order sources
  have hempty : files = [] → result.2 = .error .noFiles := by
    intro hnone
    have hsessions : Sessions.ofFiles settings.files = [] := congrArg (List.map Session.new) hnone
    show ((Run.run host settings).run start).1.2 = _
    rw [Run.run]
    simp only [hsessions]
    rfl
  have hone : files ≠ [] → result =
      let shown := ((Run.once host ⟨settings.flowBin?⟩ settings (.ofFiles settings.files)).run
        start).1
      (shown.1, .ok shown.2) := by
    intro hsome
    obtain ⟨file, rest, hcons⟩ := List.exists_cons_of_ne_nil hsome
    exact Run.run_eq_once (congrArg (List.map Session.new) hcons) hstdin hwatch
  refine ⟨⟨fun hresult => ?_, hempty⟩, fun hsome horder => ?_, ?_⟩
  · by_contra hsome
    rw [hone hsome] at hresult
    cases hresult
  · have hendings : checks.1.length = files.length := by
      rw [Run.length_endingsOf, Sessions.ofFiles, List.length_map]
    have hsources : sources.1.length = files.length := Run.length_sourcesOf ..
    obtain ⟨subjects, hfiles, hchecks, htexts⟩ := Run.exists_subjects hendings hsources
    have hshown := Run.once_subjects host start hfiles hchecks horder htexts
    refine ⟨subjects, (Run.render settings (subjects.map fun x => (x.session, x.source))).2,
      hfiles, hchecks, htexts, ?_, ?_⟩
    · rw [hone hsome, hshown]
    · rw [hone hsome, hshown]
      exact Run.printout_render (Run.isCheckable_of_map_file hfiles)
  · intro subjects order order' hfiles horder horder' shown
    have hcount : files.length = subjects.length := by rw [← hfiles, List.length_map]
    rw [hcount] at horder horder'
    have heq : shown = Run.render settings (subjects.map fun x => (x.session, x.source)) :=
      Run.shownAfter_eq hfiles horder
    rw [Run.shownAfter_eq hfiles horder', heq]
    exact ⟨Run.printout_render (Run.isCheckable_of_map_file hfiles), rfl⟩

/-- The check of the second file may end before that of the first. -/
theorem run_prints_findings_of_reverse_order :
    let host := { Host.printing "[]" with endOrder := fun _ => pure [1, 0] }
    let files : List Path := [⟨"/p/a.js"⟩, ⟨"/p/b.js"⟩]
    let settings := { Settings.checking ⟨"/p/a.js"⟩ with files := files }
    settings.stdin = false ∧ settings.watch = false ∧
      ∃ subjects summary, subjects.map Run.Subject.file = files ∧
        ((Run.run host settings).run ()).1.2 = .ok summary ∧
        Run.Printout settings subjects ((Run.run host settings).run ()).1.1 summary := by
  intro host files settings
  have hchecked : settings.files.filter Path.isCheckable = files := by decide +kernel
  have horder : [1, 0].Perm (List.range (settings.files.filter Path.isCheckable).length) := by
    rw [hchecked]
    decide
  obtain ⟨_, hsome, _⟩ := run_prints_findings host settings () rfl rfl
  obtain ⟨subjects, summary, hfiles, _, _, hresult, hprintout⟩ :=
    hsome (by rw [hchecked]; exact List.cons_ne_nil _ _) horder
  exact ⟨rfl, rfl, subjects, summary, hfiles.trans hchecked, hresult, hprintout⟩

end InlineCheck
