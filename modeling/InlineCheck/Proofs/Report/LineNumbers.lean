import InlineCheck.Proofs.Json.Integer
import InlineCheck.Proofs.Report.FirstMessage

/-!
# Line numbers as they are written

The line of a message is a number of any length in the output.  The reader keeps only so many of
its digits, and there are two limits on the way to a diagnostic, `2 ^ 64` and `2 ^ 32`.  Still the
number comes out as it was written, or not at all.

* `GivesLine.diagnostic?_iff` is about one message, `Report.diagnostics_without` about the others.
* `line_as_written` is about all messages of an output.
-/

namespace InlineCheck

open Json (Value Tree Padded)
open Json.Numeral (Lexeme)

/-! ## What a message gives -/

/-- The message is an object that gives its line as the number, and a path that is not empty.  Of
several members of the name the last one counts. -/
inductive GivesLine : Tree → Lexeme → Prop
  | object {gap : Json.Gap} {members : List Json.Member} {path : Json.Quote.Lexeme} {x : Lexeme}
    (path_eq : (Tree.named "path" members).getLast? = some (.string path))
    (path_ne : path.read true ≠ some "")
    (line_eq : (Tree.named "line" members).getLast? = some (.number x)) :
    GivesLine (.object gap members) x

/-- What the number of a line is read as, if the message can be read. -/
theorem GivesLine.exists_of_read {m : Tree} {x : Lexeme} (hm : GivesLine m x) {depth : Nat}
    {message : Value} (h : m.read depth .any = some message) :
    (∃ n, x.read true = some (.number n) ∧ message.member? "line" = some (.number n)) ∧
      ∃ path, messagePath? message = some path := by
  obtain @⟨gap, members, path, x, hpath, hne, hline⟩ := hm
  obtain ⟨_, _, kept, rfl, hkept⟩ := Tree.exists_of_read_object h
  have hkeptLine := hkept "line"
  have hkeptPath := hkept "path"
  rw [hline] at hkeptLine
  rw [hpath] at hkeptPath
  obtain ⟨u, hu, hread⟩ := Option.map_eq_some_iff.1 hkeptLine
  obtain ⟨u', hu', hread'⟩ := Option.map_eq_some_iff.1 hkeptPath
  obtain ⟨n, hn, rfl⟩ := Tree.exists_of_read_number hread.symm
  obtain ⟨text, htext, rfl⟩ := Tree.exists_of_read_string hread'.symm
  refine ⟨⟨n, hn, hu⟩, ⟨text⟩, messagePath?_eq_some_iff.2 ⟨hu', ?_⟩⟩
  rintro rfl
  exact hne htext

/-- A message becomes a diagnostic of a line exactly if digits alone spell the line and it is in
range. -/
theorem GivesLine.diagnostic?_iff {m : Tree} {x : Lexeme} (hm : GivesLine m x) {depth : Nat}
    {message : Value} (h : m.read depth .any = some message) (severity : Severity) (n : Nat) :
    (∃ d, diagnostic? severity message = some d ∧ d.line = n) ↔
      x.Spells n ∧ 1 ≤ n ∧ n ≤ 4294967295 := by
  obtain ⟨⟨k, hk, hline⟩, path, hpath⟩ := hm.exists_of_read h
  have hwhole : k = .whole n ↔ x.Spells n ∧ n < Json.Numeral.limit := Lexeme.whole_iff hk n
  have hlimit : (4294967295 : Nat) < Json.Numeral.limit := by decide
  have hstated : messageLine? message = some n ↔ k = .whole n ∧ 0 < n ∧ n < 4294967296 := by
    rw [messageLine?_eq_some_iff, hline, Option.some.injEq, Value.number.injEq]
  have hfound : (∃ d, diagnostic? severity message = some d ∧ d.line = n) ↔
      messageLine? message = some n := by
    constructor
    · rintro ⟨d, hd, rfl⟩
      exact (diagnostic?_eq_some_iff.1 hd).1
    · intro hn
      exact ⟨⟨path, n, severity, messageText message, message⟩,
        diagnostic?_eq_some_iff.2 ⟨hn, hpath, rfl, rfl, rfl⟩, rfl⟩
  rw [hfound, hstated, hwhole]
  constructor
  · rintro ⟨⟨hspells, _⟩, hpos, hlt⟩
    exact ⟨hspells, hpos, Nat.le_of_lt_succ hlt⟩
  · rintro ⟨hspells, hpos, hle⟩
    exact ⟨⟨hspells, Nat.lt_of_le_of_lt hle hlimit⟩, hpos, Nat.lt_succ_of_le hle⟩

/-! ## Leaving a message out -/

/-- The report without the message. -/
def Report.without (r : Report) (i j : Nat) : Report where
  entries := r.entries.modify i fun e => { e with messages := e.messages.eraseIdx j }

theorem exists_append_of_getElem? {α : Type} {l : List α} {i : Nat} {a : α} (h : l[i]? = some a) :
    ∃ before after, l = before ++ a :: after ∧ before.length = i := by
  obtain ⟨hlt, rfl⟩ := List.getElem?_eq_some_iff.1 h
  refine ⟨l.take i, l.drop (i + 1), ?_, List.length_take_of_le hlt.le⟩
  rw [← List.drop_eq_getElem_cons, List.take_append_drop]

theorem filterMap_eraseIdx {α β : Type} {f : α → Option β} {l : List α} {j : Nat} {a : α}
    (ha : l[j]? = some a) (hnone : f a = none) : (l.eraseIdx j).filterMap f = l.filterMap f := by
  obtain ⟨before, after, rfl, rfl⟩ := exists_append_of_getElem? ha
  simp [List.eraseIdx_append_of_length_le, hnone]

theorem flatMap_modify {α β : Type} {f : α → α} {g : α → List β} {l : List α} {i : Nat} {a : α}
    (ha : l[i]? = some a) (hsame : g (f a) = g a) : (l.modify i f).flatMap g = l.flatMap g := by
  obtain ⟨before, after, rfl, rfl⟩ := exists_append_of_getElem? ha
  rw [List.modify_eq_take_cons_drop (by simp)]
  simp [hsame]

/-- A message that becomes no diagnostic can be left out. -/
theorem Report.diagnostics_without {r : Report} {i j : Nat} {e : Entry} {message : Value}
    (h : r.messageAt? i j = some (e, message)) (hnone : diagnostic? e.severity message = none) :
    (r.without i j).diagnostics = r.diagnostics := by
  obtain ⟨he, hmessage⟩ := messageAt?_eq_some_iff.1 h
  exact flatMap_modify he (filterMap_eraseIdx hmessage hnone)

/-! ## Outputs -/

/-- The report has a message wherever the output has one.  If the message has a path and gives its
line as a number, it becomes a diagnostic of exactly the line that is written, provided that digits
alone are written and that they spell a number from 1 to `2 ^ 32 - 1`.  Otherwise it makes no
difference for the others. -/
theorem line_as_written {output : String} {ix : Index} (h : parse output = .ok ix) :
    (∃ doc : Padded Tree, doc.text = output.toList) ∧
      ∃ r, Report.read output = .ok r ∧ ix = r.index ∧
        ∀ doc : Padded Tree, doc.text = output.toList → ∀ i j,
          ((r.messageAt? i j).isSome = (doc.content.messageAt? i j).isSome) ∧
            ∀ m x, doc.content.messageAt? i j = some m → GivesLine m x →
              ∃ e message, r.messageAt? i j = some (e, message) ∧
                (∀ n, (∃ d, diagnostic? e.severity message = some d ∧ d.line = n) ↔
                  x.Spells n ∧ 1 ≤ n ∧ n ≤ 4294967295) ∧
                ((¬ ∃ n, x.Spells n ∧ 1 ≤ n ∧ n ≤ 4294967295) →
                  diagnostic? e.severity message = none ∧
                    r.diagnostics = (r.without i j).diagnostics ∧
                    ix = (r.without i j).index) := by
  obtain ⟨r, hread, rfl⟩ := parse_eq_ok_iff.1 h
  obtain ⟨hdocument, hwritten⟩ := Report.writtenIn_of_read hread
  refine ⟨hdocument, r, hread, rfl, fun doc hdoc i j => ?_⟩
  have hplace := Report.map_messageAt? (hwritten doc hdoc) i j
  refine ⟨by simpa using congrArg Option.isSome hplace, fun m x hm hgives => ?_⟩
  rw [hm] at hplace
  obtain ⟨⟨e, message⟩, hmessage, hmessageRead⟩ := Option.map_eq_some_iff.1 hplace
  have hiff := hgives.diagnostic?_iff hmessageRead.symm e.severity
  refine ⟨e, message, hmessage, hiff, fun hout => ?_⟩
  have hnone : diagnostic? e.severity message = none := by
    refine Option.eq_none_iff_forall_ne_some.2 fun d hd => ?_
    exact hout ⟨d.line, (hiff d.line).1 ⟨d, hd, rfl⟩⟩
  have hothers := (Report.diagnostics_without hmessage hnone).symm
  exact ⟨hnone, hothers, congrArg Index.ofList hothers⟩

/-- Of the last number that is a line and the first one that is none, only one becomes a
diagnostic.  An earlier line of the same message does not matter. -/
theorem line_as_written_of_limits :
    let gap : Json.Gap := ⟨[], nofun⟩
    let pad (t : Tree) : Padded Tree := ⟨gap, t, gap⟩
    let line : Padded Json.Quote.Lexeme := ⟨gap, ⟨['l', 'i', 'n', 'e', '"'], rfl⟩, gap⟩
    let path : Padded Json.Quote.Lexeme := ⟨gap, ⟨['p', 'a', 't', 'h', '"'], rfl⟩, gap⟩
    let message (x : Lexeme) : Padded Tree :=
      pad (.object gap [(line, pad (.number ⟨'7', [], _, rfl, rfl⟩)),
        (path, pad (.string ⟨['a', '"'], rfl⟩)), (line, pad (.number x))])
    let greatest : Lexeme := ⟨'4', ['2', '9', '4', '9', '6', '7', '2', '9', '5'], _, rfl, rfl⟩
    let beyond : Lexeme := ⟨'4', ['2', '9', '4', '9', '6', '7', '2', '9', '6'], _, rfl, rfl⟩
    let messages : Tree := .array gap [message greatest, message beyond]
    let errors : Tree := .array gap [pad (.array gap [pad .null, pad messages])]
    let doc : Padded Tree := pad (.array gap [pad errors])
    ∃ ix r e first second, parse (String.ofList doc.text) = .ok ix ∧
      Report.read (String.ofList doc.text) = .ok r ∧ r.messageAt? 0 0 = some (e, first) ∧
      r.messageAt? 0 1 = some (e, second) ∧
      (∃ d, diagnostic? e.severity first = some d ∧ d.line = 4294967295) ∧
      diagnostic? e.severity second = none ∧ ix = (r.without 0 1).index := by
  intro gap pad line path message greatest beyond messages errors doc
  have hdoc : doc.text = (String.ofList doc.text).toList := String.toList_ofList.symm
  have hsome : (parse (String.ofList doc.text)).toOption.isSome = true := by
    rw [toOption_parse doc hdoc]
    rfl
  obtain ⟨ix, hix⟩ := Option.isSome_iff_exists.1 hsome
  rw [Json.toOption_eq_some] at hix
  obtain ⟨_, r, hr, _, hmessages⟩ := line_as_written hix
  have hgives : ∀ x, GivesLine (message x).content x := fun x =>
    .object rfl (by decide) rfl
  obtain ⟨e, first, hfirst, hline, _⟩ := (hmessages doc hdoc 0 0).2 _ greatest rfl (hgives _)
  obtain ⟨e', second, hsecond, _, hout⟩ := (hmessages doc hdoc 0 1).2 _ beyond rfl (hgives _)
  obtain rfl : e = e' := Option.some.inj ((Report.messageAt?_eq_some_iff.1 hfirst).1.symm.trans
    (Report.messageAt?_eq_some_iff.1 hsecond).1)
  have hgreatest : greatest.Spells 4294967295 := by decide
  have hbeyond : ¬ ∃ n, beyond.Spells n ∧ 1 ≤ n ∧ n ≤ 4294967295 := by
    rintro ⟨n, ⟨_, rfl⟩, _, hle⟩
    revert hle
    decide
  obtain ⟨hnone, _, hothers⟩ := hout hbeyond
  exact ⟨ix, r, e, first, second, hix, hr, hfirst, hsecond,
    (hline _).2 ⟨hgreatest, by decide, by decide⟩, hnone, hothers⟩

end InlineCheck
