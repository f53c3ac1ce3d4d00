import InlineCheck.Proofs.Index.Answers
import InlineCheck.Proofs.Report.Written
import Mathlib.Data.Set.Card

/-!
# The first message about a line

A report lists errors, and every error lists messages.  `Report.messages` is that order, each
message with the error around it.  A message counts if it is `About` a line of a file, and of
all messages about one line the first one counts; the diagnostic says what that message says
(`Tells`).

There are three groups.

* What a message is about, stated without the reader's functions, and `diagnostic?_eq_some_iff`,
  which ties the two together.
* The index of a report, line by line (`get?_index`) and as a whole (`size_index`).
* `Answers` collects what an index of a report answers.  `parse_first_wins` says what the index
  of an output is, and ties the report behind it to the text.
-/

namespace InlineCheck

open Json (Value Tree Padded)

/-! ## What a message is about -/

/-- The message says that it is about the line of the file. -/
structure About (message : Value) (path : Path) (line : Nat) : Prop where
  line_eq : message.member? "line" = some (.number (.whole line))
  line_pos : 0 < line
  line_lt : line < 4294967296
  path_eq : ∃ text, message.member? "path" = some (.string text) ∧ text ≠ "" ∧
    (Path.mk text).components = path.components

/-- The level of the error is `warning`, in any case of its letters. -/
def Entry.IsWarning (e : Entry) : Prop :=
  ∃ level, e.level = some level ∧ level.map Char.toLower = "warning"

/-- The diagnostic says what the message of the error says. -/
structure Tells (d : Diagnostic) (e : Entry) (message : Value) : Prop where
  severity_iff : d.severity = .warning ↔ e.IsWarning
  path_eq : message.member? "path" = some (.string d.path.text)
  line_eq : message.member? "line" = some (.number (.whole d.line))
  text_eq : d.text =
    match message.member? "descr" with
    | some (.string text) => text
    | _ => ""
  payload_eq : d.payload = message

theorem Entry.severity_eq_warning_iff (e : Entry) : e.severity = .warning ↔ e.IsWarning := by
  rcases hlevel : e.level with _ | level
  · simp [Entry.severity, Entry.IsWarning, hlevel, Severity.unstated]
  · by_cases hw : level.map Char.toLower = "warning"
    · simp [Entry.severity, Entry.IsWarning, hlevel, Severity.ofLevel, hw]
    · simp [Entry.severity, Entry.IsWarning, hlevel, Severity.ofLevel, hw]

theorem Json.Value.natural?_eq_some_iff {v : Value} {n : Nat} :
    v.natural? = some n ↔ v = .number (.whole n) := by
  constructor
  · intro h
    unfold Value.natural? at h
    split at h
    · cases h
      rfl
    · cases h
  · rintro rfl
    rfl

theorem Json.Value.text?_eq_some_iff {v : Value} {text : String} :
    v.text? = some text ↔ v = .string text := by
  cases v <;> simp [Value.text?]

theorem messageLine?_eq_some_iff {message : Value} {line : Nat} :
    messageLine? message = some line ↔
      message.member? "line" = some (.number (.whole line)) ∧ 0 < line ∧ line < 4294967296 := by
  have hlimit : line < 4294967296 ↔ line < lineLimit := Iff.rfl
  simp [messageLine?, Option.filter_eq_some_iff, Option.bind_eq_some_iff,
    Json.Value.natural?_eq_some_iff, hlimit]

theorem messagePath?_eq_some_iff {message : Value} {path : Path} :
    messagePath? message = some path ↔
      message.member? "path" = some (.string path.text) ∧ path.text ≠ "" := by
  constructor
  · intro h
    obtain ⟨text, htext, rfl⟩ := Option.map_eq_some_iff.1 h
    simpa [Option.filter_eq_some_iff, Option.bind_eq_some_iff,
      Json.Value.text?_eq_some_iff] using htext
  · rintro ⟨hmember, hne⟩
    simp [messagePath?, hmember, Value.text?, hne]

theorem messageText_eq (message : Value) :
    messageText message =
      match message.member? "descr" with
      | some (.string text) => text
      | _ => "" := by
  rcases hdescr : message.member? "descr" with _ | v
  · simp [messageText, hdescr]
  · cases v <;> simp [messageText, hdescr, Value.text?]

theorem diagnostic?_eq_some_iff {severity : Severity} {message : Value} {d : Diagnostic} :
    diagnostic? severity message = some d ↔
      messageLine? message = some d.line ∧ messagePath? message = some d.path ∧
        d.severity = severity ∧ d.text = messageText message ∧ d.payload = message := by
  constructor
  · intro h
    obtain ⟨line, hline, h⟩ := Option.bind_eq_some_iff.1 h
    obtain ⟨path, hpath, h⟩ := Option.bind_eq_some_iff.1 h
    cases h
    exact ⟨hline, hpath, rfl, rfl, rfl⟩
  · rintro ⟨hline, hpath, hseverity, htext, hpayload⟩
    rw [diagnostic?, hline, hpath]
    show some (Diagnostic.mk d.path d.line severity (messageText message) message) = some d
    rw [← hseverity, ← htext, ← hpayload]

theorem Severity.eq_of_warning_iff {a b : Severity} (h : a = .warning ↔ b = .warning) : a = b := by
  cases a <;> cases b <;> simp_all

/-- A message becomes a diagnostic of a line exactly if it is about that line, and then the
diagnostic tells what the message says. -/
theorem diagnostic?_site_iff {e : Entry} {message : Value} {path : Path} {line : Nat}
    {d : Diagnostic} :
    diagnostic? e.severity message = some d ∧ d.site = (path.components, line) ↔
      About message path line ∧ d.line = line ∧ Tells d e message := by
  rw [diagnostic?_eq_some_iff, messageLine?_eq_some_iff, messagePath?_eq_some_iff, messageText_eq]
  constructor
  · rintro ⟨⟨⟨hmember, hpos, hlt⟩, ⟨hpath, hne⟩, hseverity, htext, hpayload⟩, hsite⟩
    obtain ⟨hcomponents, rfl⟩ := Prod.mk.inj hsite
    refine ⟨⟨hmember, hpos, hlt, d.path.text, hpath, hne, hcomponents⟩, rfl, ?_⟩
    refine ⟨?_, hpath, hmember, htext, hpayload⟩
    rw [hseverity, Entry.severity_eq_warning_iff]
  · rintro ⟨⟨_, hpos, hlt, text, hmember, hne, hcomponents⟩, rfl, htells⟩
    obtain rfl : d.path.text = text := by
      simpa using htells.path_eq.symm.trans hmember
    have hseverity : d.severity = e.severity :=
      Severity.eq_of_warning_iff (htells.severity_iff.trans e.severity_eq_warning_iff.symm)
    refine ⟨⟨⟨htells.line_eq, hpos, hlt⟩, ⟨hmember, hne⟩, hseverity, htells.text_eq,
      htells.payload_eq⟩, ?_⟩
    exact Prod.ext hcomponents rfl

theorem About.exists_tells {message : Value} {path : Path} {line : Nat}
    (h : About message path line) (e : Entry) : ∃ d, d.line = line ∧ Tells d e message := by
  obtain ⟨text, htext, _⟩ := h.path_eq
  refine ⟨⟨⟨text⟩, line, e.severity, messageText message, message⟩, rfl, ?_⟩
  exact ⟨e.severity_eq_warning_iff, htext, h.line_eq, messageText_eq message, rfl⟩

/-! ## The index of a report -/

namespace Report

/-- The messages of a report in its order, each with the error that it belongs to. -/
def messages (r : Report) : List (Entry × Value) :=
  r.entries.flatMap fun e => e.messages.map fun message => (e, message)

theorem diagnostics_eq (r : Report) :
    r.diagnostics = r.messages.filterMap fun x => diagnostic? x.1.severity x.2 := by
  simp [diagnostics, messages, List.filterMap_flatMap, List.filterMap_map]

/-- Whether a diagnostic is found for a line depends on the first message about it. -/
theorem get?_index (r : Report) (path : Path) (line : Nat) :
    r.index.get? path line =
      (r.messages.find? fun x =>
        (diagnostic? x.1.severity x.2).any fun d => d.site == (path.components, line)).bind
      fun x => diagnostic? x.1.severity x.2 := by
  rw [index, Index.get?_ofList, diagnostics_eq, List.find?_filterMap]

theorem any_site_iff {e : Entry} {message : Value} {path : Path} {line : Nat} :
    ((diagnostic? e.severity message).any fun d => d.site == (path.components, line)) = true ↔
      About message path line := by
  simp only [Option.any_eq_true, beq_iff_eq]
  constructor
  · rintro ⟨d, hd, hsite⟩
    exact (diagnostic?_site_iff.1 ⟨hd, hsite⟩).1
  · intro habout
    obtain ⟨d, hline, htells⟩ := habout.exists_tells e
    exact ⟨d, diagnostic?_site_iff.2 ⟨habout, hline, htells⟩⟩

theorem get?_index_eq_some_iff (r : Report) (path : Path) (line : Nat) (d : Diagnostic) :
    r.index.get? path line = some d ↔
      ∃ before e message after, r.messages = before ++ (e, message) :: after ∧
        (∀ x ∈ before, ¬ About x.2 path line) ∧ About message path line ∧ d.line = line ∧
        Tells d e message := by
  rw [get?_index, Option.bind_eq_some_iff]
  constructor
  · rintro ⟨⟨e, message⟩, hfind, hd⟩
    obtain ⟨hsite, before, after, hmessages, hbefore⟩ := List.find?_eq_some_iff_append.1 hfind
    refine ⟨before, e, message, after, hmessages, fun x hx habout => ?_, ?_⟩
    · simpa [any_site_iff.2 habout] using hbefore x hx
    · obtain ⟨d', hd', hsite⟩ := (Option.any_eq_true _ _).1 hsite
      obtain rfl := Option.some.inj (hd.symm.trans hd')
      exact diagnostic?_site_iff.1 ⟨hd, by simpa using hsite⟩
  · rintro ⟨before, e, message, after, hmessages, hbefore, habout, htells⟩
    refine ⟨(e, message), List.find?_eq_some_iff_append.2 ⟨any_site_iff.2 habout, before, after,
      hmessages, fun x hx => ?_⟩, (diagnostic?_site_iff.2 ⟨habout, htells⟩).1⟩
    rw [Bool.not_eq_true', ← Bool.not_eq_true, any_site_iff]
    exact hbefore x hx

theorem get?_index_eq_none_iff (r : Report) (path : Path) (line : Nat) :
    r.index.get? path line = none ↔ ∀ x ∈ r.messages, ¬ About x.2 path line := by
  rw [get?_index]
  cases hfind : r.messages.find? fun x =>
      (diagnostic? x.1.severity x.2).any fun d => d.site == (path.components, line) with
  | none =>
    refine iff_of_true rfl fun x hx habout => ?_
    exact List.find?_eq_none.1 hfind x hx (any_site_iff.2 habout)
  | some x =>
    have hfirst := List.find?_some hfind
    have habout : About x.2 path line := any_site_iff.1 hfirst
    obtain ⟨d, hline, htells⟩ := habout.exists_tells x.1
    have hd := (diagnostic?_site_iff.2 ⟨habout, hline, htells⟩).1
    rw [Option.bind_some, hd]
    exact iff_of_false (by simp) fun hnone => hnone x (List.mem_of_find?_eq_some hfind) habout

theorem mem_sites_iff (r : Report) (site : List Component × Nat) :
    site ∈ r.diagnostics.map Diagnostic.site ↔
      ∃ x ∈ r.messages, ∃ path line, About x.2 path line ∧ site = (path.components, line) := by
  simp only [diagnostics_eq, List.mem_map, List.mem_filterMap]
  constructor
  · rintro ⟨d, ⟨x, hx, hd⟩, rfl⟩
    exact ⟨x, hx, d.path, d.line, (diagnostic?_site_iff.1 ⟨hd, rfl⟩).1, rfl⟩
  · rintro ⟨x, hx, path, line, habout, rfl⟩
    obtain ⟨d, hline, htells⟩ := habout.exists_tells x.1
    obtain ⟨hd, hsite⟩ := diagnostic?_site_iff.2 ⟨habout, hline, htells⟩
    exact ⟨d, ⟨x, hx, hd⟩, hsite⟩

/-- An index has as many entries as there are lines of files that a message is about. -/
theorem size_index (r : Report) :
    r.index.size = Set.ncard {site | ∃ x ∈ r.messages, ∃ path line,
      About x.2 path line ∧ site = (path.components, line)} := by
  have hset : {site | ∃ x ∈ r.messages, ∃ path line,
      About x.2 path line ∧ site = (path.components, line)} =
        ((r.diagnostics.map Diagnostic.site).toFinset : Set _) := by
    ext site
    simp [← r.mem_sites_iff]
  rw [hset, Set.ncard_coe_finset, index, Index.size_ofList]

/-- A message that is about no line can be left out. -/
theorem index_of_unlocated {before after : List Entry} {e : Entry} {first rest : List Value}
    {message : Value} (h : ∀ path line, ¬ About message path line) :
    (Report.mk (before ++ { e with messages := first ++ message :: rest } :: after)).index =
      (Report.mk (before ++ { e with messages := first ++ rest } :: after)).index := by
  have hnone : diagnostic? e.severity message = none := by
    refine Option.eq_none_iff_forall_ne_some.2 fun d hd => ?_
    exact h d.path d.line (diagnostic?_site_iff.1 ⟨hd, rfl⟩).1
  have hseverity : ∀ messages, { e with messages := messages }.severity = e.severity :=
    fun _ => rfl
  simp [index, diagnostics, hseverity, hnone]

/-- What an index of a report answers. -/
structure Answers (r : Report) (ix : Index) : Prop where
  /-- The diagnostic of a line tells what the first message about it says. -/
  some_iff : ∀ path line d, ix.get? path line = some d ↔
    ∃ before e message after, r.messages = before ++ (e, message) :: after ∧
      (∀ x ∈ before, ¬ About x.2 path line) ∧ About message path line ∧ d.line = line ∧
      Tells d e message
  none_iff : ∀ path line, ix.get? path line = none ↔ ∀ x ∈ r.messages, ¬ About x.2 path line
  size_eq : ix.size = Set.ncard {site | ∃ x ∈ r.messages, ∃ path line,
    About x.2 path line ∧ site = (path.components, line)}
  /-- A message that is about no line makes no difference. -/
  unlocated : ∀ (before after : List Entry) (e : Entry) (first rest : List Value) message,
    r.entries = before ++ { e with messages := first ++ message :: rest } :: after →
    (∀ path line, ¬ About message path line) →
    ix = (Report.mk (before ++ { e with messages := first ++ rest } :: after)).index

theorem answers_index (r : Report) : r.Answers r.index where
  some_iff := r.get?_index_eq_some_iff
  none_iff := r.get?_index_eq_none_iff
  size_eq := r.size_index
  unlocated before after e first rest message hentries hnone := by
    obtain rfl : r = ⟨_⟩ := congrArg Report.mk hentries
    exact index_of_unlocated hnone

end Report

/-! ## The index of an output -/

theorem isBlankText_eq_true_iff {text : String} :
    Text.isBlankText text = true ↔ ∀ c ∈ text.toList, Text.isBlank c = true := by
  simp [Text.isBlankText]

theorem isBlankText_eq_false_iff {text : String} :
    Text.isBlankText text = false ↔ ∃ c ∈ text.toList, Text.isBlank c = false := by
  simp [Text.isBlankText]

/-- Every output is blank, or no report, or a report whose index answers for each line with the
first message about it.  Without an index, the lenient reading is the empty one.  A report has the
errors and messages that are written in the output, in their order. -/
theorem parse_first_wins (output : String) :
    (parse output = .error .emptyOutput ↔ ∀ c ∈ output.toList, Text.isBlank c = true) ∧
      ((∃ message, parse output = .error (.parseFailed message)) ↔
        (∃ c ∈ output.toList, Text.isBlank c = false) ∧ ∀ r, Report.read output ≠ .ok r) ∧
      (∀ r, Report.read output = .ok r →
        ∃ ix, parse output = .ok ix ∧ r.Answers ix ∧ parseOrEmpty output = ix) ∧
      (∀ error, parse output = .error error → parseOrEmpty output = .empty) ∧
      (∀ r, Report.read output = .ok r → (∃ doc : Padded Tree, doc.text = output.toList) ∧
        ∀ doc : Padded Tree, doc.text = output.toList → r.WrittenIn doc.content) := by
  rw [← isBlankText_eq_true_iff, ← isBlankText_eq_false_iff]
  cases hblank : Text.isBlankText output with
  | true =>
    obtain ⟨fault, hfault⟩ := Report.read_of_blank hblank
    simp [parseOrEmpty, parse_of_blank hblank, hfault]
  | false =>
    cases hread : Report.read output with
    | error fault => simp [parseOrEmpty, parse_of_error hblank hread]
    | ok r =>
      have hwritten := Report.writtenIn_of_read hread
      simpa [parseOrEmpty, parse_of_ok hblank hread, r.answers_index] using hwritten

end InlineCheck
