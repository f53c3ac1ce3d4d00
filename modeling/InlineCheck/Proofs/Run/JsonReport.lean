import InlineCheck.Proofs.Report.Payload
import InlineCheck.Proofs.Run.Printout

/-!
# The JSON report

What a run prints as JSON can be read back.  Every diagnostic comes back as an object of six
members, and the message that it was made of comes back as it was in the output of the checker.
Only the floating-point numbers of a message may come back as others.

* `Format.readsAs_jsonObject` is about one diagnostic, and `Format.read_rows` about a list of
  them.  A message may be nested in 125 containers, which leaves two for the report.
* `Subject.keepable_of_mem` says that the messages of a run are not as deep as that.
* `Run.Checks` says what a run checks, be it files or a text in place of a file.
* `json_report_reads_back` puts this together.
-/

namespace InlineCheck

open Json (Value maxDepth Gap)

/-! ## Diagnostics as objects -/

namespace Format

/-- What the object of a diagnostic is read as: its members are in ascending order. -/
def keptObject (file : Path) (entry : Nat × Diagnostic) : Value :=
  .object [("filename", .string file.text), ("line", .number (.whole entry.1)),
    ("message", .string entry.2.text), ("raw", entry.2.payload), ("source", .string "flow"),
    ("type", .string entry.2.severity.label)]

/-- The diagnostic can be written as JSON without loss: its message is one that a reader keeps,
without a floating-point number and not too deep. -/
structure Keepable (entry : Nat × Diagnostic) : Prop where
  line_lt : entry.1 < lineLimit
  kept : entry.2.payload.All Value.IsKept
  floatFree : entry.2.payload.FloatFree
  depth_le : entry.2.payload.depth ≤ 125

theorem Keepable.exact {entry : Nat × Diagnostic} (h : Keepable entry) :
    entry.2.payload.Exact := by
  have hsound : entry.2.payload.Sound 2 := ⟨h.kept, Nat.add_le_add_left h.depth_le 2⟩
  exact hsound.exact h.floatFree

/-- An object that stands in an array comes back with its members in order. -/
theorem readsAs_jsonObject (file : Path) {entry : Nat × Diagnostic} (h : Keepable entry) :
    (jsonObject file entry).ReadsAs 1 (keptObject file entry) := by
  have hline : (Value.number (.whole entry.1)).ReadsAs 2 (.number (.whole entry.1)) := by
    have hlimit : entry.1 < Json.Numeral.limit := Nat.lt_trans h.line_lt (by decide)
    exact Value.readsAs_number ⟨by omega, Int.ofNat_lt.2 hlimit⟩
  have hraw : entry.2.payload.ReadsAs 2 entry.2.payload :=
    h.exact.readsAs _ 2 (Nat.add_le_add_left h.depth_le 2)
  have hkept : keptObject file entry = .object (Value.insertMembers []
      [("type", .string entry.2.severity.label), ("filename", .string file.text),
        ("line", .number (.whole entry.1)), ("message", .string entry.2.text),
        ("source", .string "flow"), ("raw", entry.2.payload)]) := by
    simp (disch := decide) only [keptObject, Value.insertMembers, List.foldl_cons, List.foldl_nil,
      Value.insertMember_nil, Value.insertMember_of_lt, Value.insertMember_of_gt]
  rw [hkept]
  exact Value.readsAs_object (by decide)
    (List.forall₂_same.2 (by simp [hline, hraw, Value.readsAs_string]))

/-- Diagnostics of several files stand in one array, also with blanks behind it. -/
theorem read_rows {rows : List (Path × Nat × Diagnostic)} (h : ∀ row ∈ rows, Keepable row.2)
    (after : Gap) :
    Value.read ((Value.array (rows.map fun row => jsonObject row.1 row.2)).pretty ++
      String.ofList after.chars) = .ok (.array (rows.map fun row => keptObject row.1 row.2)) := by
  have hrows : List.Forall₂ (Value.ReadsAs 1) (rows.map fun row => jsonObject row.1 row.2)
      (rows.map fun row => keptObject row.1 row.2) := by
    rw [List.forall₂_map_left_iff, List.forall₂_map_right_iff, List.forall₂_same]
    exact fun row hrow => readsAs_jsonObject row.1 (h row hrow)
  exact (Value.readsAs_array (by decide) hrows).read_pretty after

/-- What is shown of a file comes back. -/
theorem read_render {entries : List (Nat × Diagnostic)} (h : ∀ entry ∈ entries, Keepable entry)
    (file : Path) (source : Option String) :
    Value.read (json.render file source entries) =
      .ok (.array (entries.map (keptObject file))) := by
  have hkeepable : ∀ row ∈ entries.map (Prod.mk file), Keepable row.2 := List.forall_mem_map.2 h
  have hrows := read_rows hkeepable .none
  rw [List.map_map, List.map_map] at hrows
  rwa [show String.ofList Gap.none.chars = "" from rfl, String.append_empty] at hrows

end Format

namespace Run

/-! ## Messages -/

namespace Subject

variable {x : Subject} {settings : Settings} {entry : Nat × Diagnostic}

/-- The diagnostic is that of a message about the file in what the check printed. -/
def Reports (x : Subject) (entry : Nat × Diagnostic) : Prop :=
  ∃ output r e message, x.ending = .output output ∧ Report.read output = .ok r ∧
    (e, message) ∈ r.messages ∧ About message x.file entry.1 ∧ Tells entry.2 e message

theorem exists_output (hentry : entry ∈ x.entries settings) :
    ∃ output index, x.ending = .output output ∧ parse output = .ok index ∧
      entry.2 ∈ index.entries ∧ entry.2.path.same x.file = true ∧ entry.2.line = entry.1 := by
  obtain ⟨index, hindex, hmem, hpath, hline, _⟩ := ((x.finds settings).mem_iff _ _).1 hentry
  cases hending : x.ending with
  | output output =>
    rw [hending] at hindex
    exact ⟨output, index, rfl, hindex, hmem, hpath, hline⟩
  | failed error | died _ =>
    rw [hending] at hindex
    cases hindex

/-- What is shown was reported. -/
theorem reports_of_mem (hentry : entry ∈ x.entries settings) : x.Reports entry := by
  obtain ⟨output, index, hending, hparse, hmem, hpath, hline⟩ := exists_output hentry
  obtain ⟨r, e, message, hread, hmessage, habout, htells⟩ := exists_message_of_parse hparse hmem
  have hfile : entry.2.path.components = x.file.components := by simpa [Path.same] using hpath
  obtain ⟨text, htext, hne, hcomponents⟩ := habout.path_eq
  rw [hline] at habout
  exact ⟨output, r, e, message, hending, hread, hmessage, ⟨habout.line_eq, habout.line_pos,
    habout.line_lt, text, htext, hne, hcomponents.trans hfile⟩, htells⟩

/-- A message that holds no floating-point number is kept as it was. -/
theorem keepable_of_mem (hentry : entry ∈ x.entries settings)
    (hfree : entry.2.payload.FloatFree) : Format.Keepable entry := by
  obtain ⟨output, index, _, hparse, hmem, _⟩ := exists_output hentry
  obtain ⟨_, _, _, _, _, _, _, habout, _⟩ := reports_of_mem hentry
  have hsound := sound_payload hparse hmem
  refine ⟨habout.line_lt, hsound.kept, hfree, ?_⟩
  -- The message stood inside four containers, and the report puts it into two only.
  have hdepth : 4 + entry.2.payload.depth ≤ 127 := hsound.depth_le
  omega

end Subject

/-- The printed array comes back as what is shown of the subjects. -/
theorem read_text {settings : Settings} {subjects : List Subject} (hjson : settings.output = .json)
    (hfree : ∀ x ∈ subjects, ∀ entry ∈ x.entries settings, entry.2.payload.FloatFree)
    (summary : Summary) :
    Value.read (text settings subjects summary) =
      .ok (.array (subjects.flatMap fun x =>
        (x.entries settings).map (Format.keptObject x.file))) := by
  have hrows : ∀ row ∈ subjects.flatMap fun x => (x.entries settings).map fun entry =>
      (x.file, entry), Format.Keepable row.2 := by
    intro row hrow
    obtain ⟨x, hx, hrow⟩ := List.mem_flatMap.1 hrow
    obtain ⟨entry, hentry, rfl⟩ := List.mem_map.1 hrow
    exact Subject.keepable_of_mem hentry (hfree x hx entry hentry)
  have hread := Format.read_rows hrows (.newLine 0)
  simp only [List.map_flatMap, List.map_map] at hread
  rw [text, hjson]
  exact hread

/-! ## Runs -/

variable {σ : Type}

/-- The run from the state checks the subjects.  They are all its files, whose checks end in any
order, or its first file with the text on its standard input. -/
inductive Checks (host : Host (StateM σ)) (settings : Settings) (start : σ) : List Subject → Prop
  | once {subjects : List Subject} {order : List Nat} {checked ended : σ}
      (stdin_eq : settings.stdin = false) (watch_eq : settings.watch = false)
      (ne_nil : subjects ≠ [])
      (files_eq : subjects.map Subject.file = settings.files.filter Path.isCheckable)
      (endings_eq : (endingsOf host ⟨settings.flowBin?⟩ (.ofFiles settings.files)).run start =
        (subjects.map Subject.ending, checked))
      (order_eq : (host.endOrder subjects.length).run checked = (order, ended))
      (order_perm : order.Perm (List.range subjects.length))
      (sources_eq : ((sourcesOf host settings (subjects.map Subject.file)).run ended).1 =
        subjects.map Subject.source) : Checks host settings start subjects
  | buffer {x : Subject} {text : String} {bytes : List UInt8} {loaded : σ}
      (stdin_eq : settings.stdin = true)
      (file_eq : (settings.files.filter Path.isCheckable).head? = some x.file)
      (input_eq : host.input.run start = (bytes, loaded))
      (text_eq : Text.decodeStrict bytes = .ok text)
      (ending_eq : x.ending = endingOf
        ((Checker.check host ⟨settings.flowBin?⟩ (.contents x.file text)).run loaded).1)
      (source_eq : x.source = some text) : Checks host settings start [x]

variable {host : Host (StateM σ)} {settings : Settings} {start : σ} {subjects : List Subject}

theorem Checks.isCheckable (h : Checks host settings start subjects) :
    ∀ x ∈ subjects, x.file.isCheckable = true := by
  cases h with
  | once _ _ _ hfiles => exact isCheckable_of_map_file hfiles
  | buffer _ hfile =>
    intro x hx
    obtain rfl := List.mem_singleton.1 hx
    exact (List.mem_filter.1 (List.mem_of_mem_head? hfile)).2

/-- A session is shown as its subject, whichever check it went through. -/
theorem render_singleton {x : Subject} {s : Session} (hs : x.Ended s)
    (hfile : x.file.isCheckable = true) :
    render settings [(s, x.source)] = render settings [(x.session, x.source)] := by
  have hx := x.ended_session hfile
  have hshown : shown settings s = shown settings x.session :=
    (hs.shown_eq settings).trans (hx.shown_eq settings).symm
  have hcomplaint : complaint s = complaint x.session :=
    hs.complaint_eq.trans hx.complaint_eq.symm
  have hlast : s.lastError = x.session.lastError := hs.lastError_eq.trans hx.lastError_eq.symm
  have hsame : s.file = x.session.file := hs.file_eq.trans hx.file_eq.symm
  simp [render, output, summarize, tally, hshown, hcomplaint, hlast, hsame]

/-- A run shows its subjects. -/
theorem Checks.run_eq (h : Checks host settings start subjects) :
    ((run host settings).run start).1 =
      let shown := render settings (subjects.map fun x => (x.session, x.source))
      (shown.1, .ok shown.2) := by
  have hcheckable := h.isCheckable
  cases h with
  | once hstdin hwatch hsome hfiles hendings horder hperm hsources =>
    have hcount : subjects.length = (settings.files.filter Path.isCheckable).length := by
      rw [← hfiles, List.length_map]
    rw [hcount] at horder hperm
    obtain ⟨file, rest, hcons⟩ := List.exists_cons_of_ne_nil
      (hfiles ▸ List.map_eq_nil_iff.not.2 hsome : settings.files.filter Path.isCheckable ≠ [])
    have hshown := once_subjects host start hfiles (by rw [hendings])
      (by rw [hendings, horder]; exact hperm)
      (by rw [hendings, horder, ← hfiles]; exact hsources.symm)
    rw [run_eq_once (congrArg (List.map Session.new) hcons) hstdin hwatch, hshown]
  | @buffer x text bytes loaded hstdin hfile hinput htext hending hsource =>
    have hx := hcheckable x List.mem_cons_self
    obtain ⟨rest, hrest⟩ := List.head?_eq_some_iff.1 hfile
    have hsessions : Sessions.ofFiles settings.files = .new x.file :: rest.map Session.new :=
      congrArg (List.map Session.new) hrest
    -- The store was told of a change before the check, which does not show.
    have hended := Subject.ended_conclude (Session.idle_markStale hx) rfl rfl rfl
      (.contents text)
    have hopened : ((Session.new x.file).mapScheduler fun scheduler =>
        scheduler.checkContents text).1.file = x.file := Session.file_checkContents _ _
    rw [run_eq_buffer hsessions hstdin hinput htext, buffer_eq, hopened, ← hending, ← hsource,
      List.map_singleton, ← render_singleton hended hx]
    rfl

/-- A run checks some subjects if it has files, and if it ends all of its checks or can read its
standard input. -/
theorem exists_checks (hfiles : settings.files.filter Path.isCheckable ≠ [])
    (honce : settings.stdin = false → settings.watch = false ∧
      let checks := (endingsOf host ⟨settings.flowBin?⟩ (.ofFiles settings.files)).run start
      let count := (settings.files.filter Path.isCheckable).length
      ((host.endOrder count).run checks.2).1.Perm (List.range count))
    (hbuffer : settings.stdin = true →
      ∃ text, Text.decodeStrict (host.input.run start).1 = .ok text) :
    ∃ subjects : List Subject, Checks host settings start subjects := by
  cases hstdin : settings.stdin with
  | false =>
    obtain ⟨hwatch, hperm⟩ := honce hstdin
    let files := settings.files.filter Path.isCheckable
    let checks := (endingsOf host ⟨settings.flowBin?⟩ (.ofFiles settings.files)).run start
    let order := (host.endOrder files.length).run checks.2
    have hchecks : checks.1.length = files.length :=
      (length_endingsOf ..).trans (List.length_map _)
    have htexts : ((sourcesOf host settings files).run order.2).1.length = files.length :=
      length_sourcesOf host files order.2
    obtain ⟨subjects, hmap, hendings, hsources⟩ := exists_subjects hchecks htexts
    have hcount : subjects.length = files.length := by rw [← hmap, List.length_map]
    refine ⟨subjects, .once hstdin hwatch ?_ hmap (Prod.ext hendings.symm rfl)
      (congrArg (fun count => (host.endOrder count).run checks.2) hcount) ?_ ?_⟩
    · rintro rfl
      exact hfiles hmap.symm
    · rw [hcount]
      exact hperm
    · rw [hmap]
      exact hsources.symm
  | true =>
    obtain ⟨text, htext⟩ := hbuffer hstdin
    obtain ⟨file, rest, hcons⟩ := List.exists_cons_of_ne_nil hfiles
    let check := (Checker.check host ⟨settings.flowBin?⟩ (.contents file text)).run
      (host.input.run start).2
    exact ⟨[⟨file, endingOf check.1, some text⟩],
      .buffer hstdin (by rw [hcons]; rfl) rfl htext rfl rfl⟩

end Run

/-- What is shown of a file as JSON can be read back, whatever the diagnostics are, as long as
their messages can be kept.  So can all that a run prints, if no message holds a floating-point
number: it is the array of all diagnostics that are shown, and each of them is that of a message
in what the check of its file printed. -/
theorem json_report_reads_back :
    (∀ (file : Path) (source : Option String) (entries : List (Nat × Diagnostic)),
      (∀ entry ∈ entries, Format.Keepable entry) →
      Value.read (Format.json.render file source entries) =
        .ok (.array (entries.map (Format.keptObject file)))) ∧
    ∀ {σ : Type} (host : Host (StateM σ)) (settings : Settings) (start : σ),
      let files := settings.files.filter Path.isCheckable
      let result := ((Run.run host settings).run start).1
      let checks := (Run.endingsOf host ⟨settings.flowBin?⟩ (.ofFiles settings.files)).run start
      settings.output = .json → files ≠ [] →
      (settings.stdin = false → settings.watch = false ∧
        ((host.endOrder files.length).run checks.2).1.Perm (List.range files.length)) →
      (settings.stdin = true → ∃ text, Text.decodeStrict (host.input.run start).1 = .ok text) →
      ∃ subjects summary, Run.Checks host settings start subjects ∧ result.2 = .ok summary ∧
        Run.Printout settings subjects result.1 summary ∧
        (∀ x ∈ subjects, ∀ entry ∈ x.entries settings, x.Reports entry) ∧
        ((∀ x ∈ subjects, ∀ entry ∈ x.entries settings, entry.2.payload.FloatFree) →
          Value.read result.1.out = .ok (.array (subjects.flatMap fun x =>
            (x.entries settings).map (Format.keptObject x.file)))) := by
  refine ⟨fun file source entries hentries => Format.read_render hentries file source, ?_⟩
  intro σ host settings start files result checks hjson hfiles honce hbuffer
  obtain ⟨subjects, hsubjects⟩ := Run.exists_checks hfiles honce hbuffer
  have hresult := hsubjects.run_eq
  have hprintout : Run.Printout settings subjects _ _ :=
    Run.printout_render hsubjects.isCheckable
  refine ⟨subjects, _, hsubjects, congrArg Prod.snd hresult, ?_,
    fun x _ entry hentry => Run.Subject.reports_of_mem hentry, fun hfree => ?_⟩
  · rw [show result.1 = _ from congrArg Prod.fst hresult]
    exact hprintout
  · rw [show result.1 = _ from congrArg Prod.fst hresult, hprintout.out]
    exact Run.read_text hjson hfree _

/-- The least message that is about a line comes back, shown by itself or by a run. -/
theorem json_report_reads_back_of_message :
    let output := "[[[null,[\x7b\"line\":3,\"path\":\"/p/a.js\"\x7d]]]]"
    let settings := { Settings.checking ⟨"/p/a.js"⟩ with output := .json }
    let message : Value := .object [("line", .number (.whole 3)), ("path", .string "/p/a.js")]
    let entry : Nat × Diagnostic := (3, ⟨⟨"/p/a.js"⟩, 3, .error, "", message⟩)
    let kept := Format.keptObject ⟨"/p/a.js"⟩ entry
    Value.read (Format.json.render ⟨"/p/a.js"⟩ none [entry]) = .ok (.array [kept]) ∧
      Value.read ((Run.run (.printing output) settings).run ()).1.1.out = .ok (.array [kept]) := by
  intro output settings message entry kept
  have hfree : message.FloatFree := by
    simp [message, Value.FloatFree, Value.All, Value.AllMembers, Value.IsFloat,
      Json.Number.IsFloat]
  have hkept : message.All Value.IsKept := by
    have hascending : compare "line" "path" = .lt := by decide
    simp [message, Value.All, Value.AllMembers, Value.IsKept, Value.Ascending, hascending,
      Json.Number.Exact, Json.Numeral.limit, Json.Numeral.negativeLimit]
  have hkeepable : Format.Keepable entry := ⟨by decide, hkept, hfree, by decide⟩
  have hone := json_report_reads_back.1 ⟨"/p/a.js"⟩ none [entry] (by simpa using hkeepable)
  refine ⟨hone, ?_⟩
  have hfiles : settings.files.filter Path.isCheckable = [⟨"/p/a.js"⟩] := by decide +kernel
  have hendings : (Run.endingsOf (.printing output) ⟨settings.flowBin?⟩
      (.ofFiles settings.files)).run () = ([.output output], ()) := by
    show (_ : List Ending × Unit) = _
    decide +kernel
  have hindex : parse output = .ok (Report.index ⟨[⟨none, [message]⟩]⟩) := by
    refine parse_eq_ok_iff.2 ⟨_, ?_, rfl⟩
    rw [Report.read]
    simp only [output, String.reduceToList]
    rfl
  obtain ⟨subjects, summary, hchecks, -, -, -, hread⟩ :=
    json_report_reads_back.2 (.printing output) settings () rfl (by simp [hfiles])
      (fun _ => ⟨rfl, by rw [hfiles]; exact .refl _⟩) fun hstdin => absurd hstdin Bool.false_ne_true
  cases hchecks with
  | once _ _ _ hmap hchecked =>
    rw [hfiles] at hmap
    rw [hendings] at hchecked
    obtain ⟨x, rfl⟩ := List.length_eq_one_iff.1 (by simpa using congrArg List.length hmap)
    have hfile : x.file = ⟨"/p/a.js"⟩ := by simpa using hmap
    have hending : x.ending = .output output := by simpa using (Prod.mk.inj hchecked).1.symm
    have hentries : x.entries settings = [entry] := by
      have hindex : x.ending.index = .ok (Report.index ⟨[⟨none, [message]⟩]⟩) := by
        rw [hending]
        exact hindex
      have hforPath : (Index.ofList [entry.2]).forPath ⟨"/p/a.js"⟩ = [entry] := by
        refine Index.forPath_eq_of_mem_iff (List.pairwise_singleton _ _) fun line d => ?_
        rw [Index.get?_ofList]
        by_cases hline : 3 = line
        · subst hline
          simp [entry, Diagnostic.site, eq_comm]
        · simp [entry, Diagnostic.site, hline, Ne.symm hline]
      have hdiagnostics : Report.diagnostics ⟨[⟨none, [message]⟩]⟩ = [entry.2] := rfl
      rw [Run.Subject.entries, hindex, hfile, Report.index, hdiagnostics]
      simp only [hforPath]
      rfl
    have hall : ∀ y ∈ [x], ∀ e ∈ y.entries settings, e.2.payload.FloatFree := by
      intro y hy e he
      obtain rfl := List.mem_singleton.1 hy
      rw [hentries] at he
      obtain rfl := List.mem_singleton.1 he
      exact hfree
    simpa [hentries, hfile] using hread hall
  | buffer hstdin => cases hstdin

end InlineCheck
