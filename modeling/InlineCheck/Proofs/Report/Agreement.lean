import InlineCheck.Proofs.Json.Record
import InlineCheck.Proofs.Report.Parse
import Mathlib.Data.List.Forall2

/-!
# A report and the value of its text

An output can also be read without any shape, as one JSON value.  `Report.ofJson` takes the report
from that value alone, and `Report.Fits` says whether it has the shape of one.

* `Entry.fills_iff` and `Report.fills_iff` compare the two readings: they differ only where a
  known field comes twice (`Report.Repeats`), which the value no longer shows.
* `SameFields.agree` says that unknown fields make no difference.
* `parse_agrees` says all of it about outputs.
-/

namespace InlineCheck

open Json (Value Tree Padded)

/-! ## The report that a value holds -/

namespace Entry

/-- The error that a value holds. -/
def ofJson (v : Value) : Entry where
  level := (v.field? "level" 0).bind Value.text?
  messages :=
    match v.field? "message" 1 with
    | some (.array messages) => messages
    | _ => []

/-- The value has the shape of an error. -/
structure Fits (v : Value) : Prop where
  form : (∃ members, v = .object members) ∨ ∃ items, v = .array items ∧ items.length ≤ 2
  level : ∀ x, v.field? "level" 0 = some x → x = .null ∨ ∃ text, x = .string text
  message : ∀ x, v.field? "message" 1 = some x → ∃ messages, x = .array messages

/-- A field of the error comes twice. -/
def Repeats (e : Tree) : Prop :=
  e.Repeats "level" ∨ e.Repeats "message"

variable {depth : Nat} {e : Tree} {v w : Value}

theorem distinct_fields : fields.Pairwise fun a b => a.name ≠ b.name := by
  simp [fields]

theorem fills_iff (h : e.read depth .any = some v) :
    e.Fills depth fields ↔ Fits v ∧ ¬ Repeats e := by
  have hlevel := Tree.reads_iff Json.Shape.sifts_optionalText h "level" 0
  have hmessage := Tree.reads_iff Json.Shape.sifts_list h "message" 1
  simp only [Value.isOptionalText_iff, Value.isArray_iff] at hlevel hmessage
  constructor
  · intro hfills
    refine ⟨⟨(Tree.hasForm_iff h 2).1 hfills.form, ?_, ?_⟩, ?_⟩
    · exact hlevel.1 (hfills.reads 0 _ rfl)
    · exact hmessage.1 (hfills.reads 1 _ rfl)
    · rintro (hrepeats | hrepeats)
      · exact hfills.once ⟨"level", false, .optionalText⟩ (by simp [fields]) hrepeats
      · exact hfills.once ⟨"message", false, .list .any⟩ (by simp [fields]) hrepeats
  · rintro ⟨hfits, honce⟩
    refine ⟨(Tree.hasForm_iff h 2).2 hfits.form, fun field hfield hrepeats => ?_, ?_, ?_⟩
    · simp only [fields, List.mem_cons, List.not_mem_nil, or_false] at hfield
      rcases hfield with rfl | rfl
      · exact honce (.inl hrepeats)
      · exact honce (.inr hrepeats)
    · intro position field hfield
      rcases position with _ | _ | position <;> cases hfield
      · exact hlevel.2 hfits.level
      · exact hmessage.2 hfits.message
    · intro position field hfield hrequired
      rcases position with _ | _ | position <;> cases hfield <;> cases hrequired

/-- What is kept of an error has the fields that it has without any shape. -/
theorem ofValue_eq (h : e.read depth .any = some v) (hw : e.read depth shape = some w) :
    ofValue w = ofJson v := by
  have hlevel : w.member? "level" = v.field? "level" 0 :=
    Tree.member?_eq_field? Json.Shape.sifts_optionalText h
      (Tree.member?_of_read distinct_fields hw 0 _ rfl)
  have hmessage : w.member? "message" = v.field? "message" 1 :=
    Tree.member?_eq_field? Json.Shape.sifts_list h
      (Tree.member?_of_read distinct_fields hw 1 _ rfl)
  have hlevels : (ofValue w).level = (ofJson v).level :=
    congrArg (fun field => field.bind Value.text?) hlevel
  have hmessages : (ofValue w).messages = (ofJson v).messages :=
    congrArg
      (fun field : Option Value => match field with | some (.array messages) => messages | _ => [])
      hmessage
  show Entry.mk (ofValue w).level (ofValue w).messages = _
  rw [hlevels, hmessages]

/-- A list of errors can be read exactly if each of them can. -/
theorem exists_reads_iff {items : List (Padded Tree)} {vs : List Value}
    (h : items.map (fun x => x.content.read depth .any) = vs.map some) :
    (∃ ws : List Value, items.map (fun x => x.content.read depth shape) = ws.map some) ↔
      (∀ v ∈ vs, Fits v) ∧ ∀ x ∈ items, ¬ Repeats x.content := by
  induction items generalizing vs with
  | nil =>
    obtain rfl : vs = [] := by simpa using h.symm
    exact iff_of_true ⟨[], rfl⟩ (by simp)
  | cons x rest ih =>
    obtain _ | ⟨v, vs⟩ := vs
    · cases h
    obtain ⟨hx, hrest⟩ := List.cons.inj h
    have hread : (∃ w, x.content.read depth shape = some w) ↔ Fits v ∧ ¬ Repeats x.content := by
      rw [← fills_iff hx]
      exact ⟨fun ⟨w, hw⟩ => Tree.fills_of_read distinct_fields hw, Tree.exists_read_of_fills hx⟩
    rw [List.forall_mem_cons, List.forall_mem_cons, and_and_and_comm, ← hread, ← ih hrest]
    constructor
    · rintro ⟨ws, hws⟩
      obtain _ | ⟨w, ws⟩ := ws
      · cases hws
      · obtain ⟨hw, hws⟩ := List.cons.inj hws
        exact ⟨⟨w, hw⟩, ws, hws⟩
    · rintro ⟨⟨w, hw⟩, ws, hws⟩
      exact ⟨w :: ws, List.cons_eq_cons.2 ⟨hw, hws⟩⟩

theorem map_ofValue_eq {items : List (Padded Tree)} {vs ws : List Value}
    (h : items.map (fun x => x.content.read depth .any) = vs.map some)
    (hw : items.map (fun x => x.content.read depth shape) = ws.map some) :
    ws.map ofValue = vs.map ofJson := by
  induction items generalizing vs ws with
  | nil =>
    obtain rfl : vs = [] := by simpa using h.symm
    obtain rfl : ws = [] := by simpa using hw.symm
    rfl
  | cons x rest ih =>
    obtain _ | ⟨v, vs⟩ := vs
    · cases h
    obtain _ | ⟨w, ws⟩ := ws
    · cases hw
    obtain ⟨hx, hrest⟩ := List.cons.inj h
    obtain ⟨hxw, hrestw⟩ := List.cons.inj hw
    rw [List.map_cons, List.map_cons, ofValue_eq hx hxw, ih hrest hrestw]

theorem isSome_read_list_iff {x : Tree} {u : Value} (h : x.read depth .any = some u) :
    (x.read depth (.list shape)).isSome ↔
      (∃ errors, u = .array errors ∧ ∀ v ∈ errors, Fits v) ∧
        ¬ ∃ gap items, x = .array gap items ∧ ∃ y ∈ items, Repeats y.content := by
  by_cases hx : ∃ gap items, x = .array gap items
  · obtain ⟨gap, items, rfl⟩ := hx
    obtain ⟨hdepth, errors, hany, rfl⟩ := (Tree.read_array_iff rfl rfl).1 h
    have hlist : ((Tree.array gap items).read depth (.list shape)).isSome ↔
        ∃ ws : List Value, items.map (fun x => x.content.read (depth + 1) shape) = ws.map some := by
      rw [Option.isSome_iff_exists]
      constructor
      · rintro ⟨w, hw⟩
        obtain ⟨_, ws, hws, rfl⟩ := (Tree.read_array_iff rfl rfl).1 hw
        exact ⟨ws, hws⟩
      · rintro ⟨ws, hws⟩
        exact ⟨.array ws, (Tree.read_array_iff rfl rfl).2 ⟨hdepth, ws, hws, rfl⟩⟩
    rw [hlist, exists_reads_iff hany]
    constructor
    · rintro ⟨hfits, honce⟩
      refine ⟨⟨errors, rfl, hfits⟩, ?_⟩
      rintro ⟨_, _, heq, y, hy, hrepeats⟩
      cases heq
      exact honce y hy hrepeats
    · rintro ⟨⟨_, heq, hfits⟩, honce⟩
      cases heq
      exact ⟨hfits, fun y hy hrepeats => honce ⟨gap, items, rfl, y, hy, hrepeats⟩⟩
  · refine iff_of_false (fun hsome => ?_) ?_
    · obtain ⟨w, hw⟩ := Option.isSome_iff_exists.1 hsome
      exact hx (Tree.exists_array_of_read_list hw)
    · rintro ⟨⟨errors, rfl, _⟩, _⟩
      exact hx (Tree.exists_array_of_read_list (Json.Shape.sifts_list x depth _ h))

end Entry

namespace Report

/-- The report that a value holds. -/
def ofJson (v : Value) : Report where
  entries :=
    match v.field? "errors" 0 with
    | some (.array errors) => errors.map Entry.ofJson
    | _ => []

/-- The value has the shape of a report. -/
structure Fits (v : Value) : Prop where
  form : (∃ members, v = .object members) ∨ ∃ errors, v = .array [errors]
  errors : ∃ errors, v.field? "errors" 0 = some (.array errors) ∧ ∀ e ∈ errors, Entry.Fits e

/-- A field of the report, or of one of its errors, comes twice. -/
def Repeats (t : Tree) : Prop :=
  t.Repeats "errors" ∨
    ∃ gap items, t.field? "errors" 0 = some (.array gap items) ∧
      ∃ x ∈ items, Entry.Repeats x.content

variable {t : Tree} {v w : Value}

/-- The only field of a report. -/
def field : Json.Field Json.Shape :=
  ⟨"errors", true, .list Entry.shape⟩

theorem form_iff (hfield : ∃ u, v.field? "errors" 0 = some u) :
    ((∃ members, v = .object members) ∨ ∃ items, v = .array items ∧ items.length ≤ 1) ↔
      (∃ members, v = .object members) ∨ ∃ errors, v = .array [errors] := by
  obtain ⟨u, hu⟩ := hfield
  refine or_congr_right ⟨?_, ?_⟩
  · rintro ⟨_ | ⟨errors, _ | _⟩, rfl, hlength⟩
    · cases hu
    · exact ⟨errors, rfl⟩
    · simp at hlength
  · rintro ⟨errors, rfl⟩
    exact ⟨[errors], rfl, Nat.le_refl 1⟩

theorem fills_iff (h : t.read 0 .any = some v) : t.Fills 0 [field] ↔ Fits v ∧ ¬ Repeats t := by
  have hheld := Tree.field?_of_read h "errors" 0
  have hform := Tree.hasForm_iff h 1
  cases hfield : t.field? "errors" 0 with
  | none =>
    refine iff_of_false (fun hfills => ?_) ?_
    · simpa [field, hfield] using hfills.present 0 field rfl rfl
    · rintro ⟨⟨_, errors, herrors, _⟩, _⟩
      rw [hfield, herrors] at hheld
      cases hheld
  | some x =>
    rw [hfield] at hheld
    obtain ⟨u, hu, hread⟩ := Option.map_eq_some_iff.1 hheld
    have hlist := Entry.isSome_read_list_iff hread.symm
    rw [form_iff ⟨u, hu⟩] at hform
    constructor
    · intro hfills
      obtain ⟨⟨errors, rfl, hfits⟩, honce⟩ := hlist.1 (hfills.reads 0 field rfl x hfield)
      refine ⟨⟨hform.1 hfills.form, errors, hu, hfits⟩, ?_⟩
      rintro (hrepeats | ⟨gap, items, heq, hitem⟩)
      · exact hfills.once field (List.mem_singleton_self field) hrepeats
      · rw [hfield] at heq
        cases heq
        exact honce ⟨gap, items, rfl, hitem⟩
    · rintro ⟨⟨hfits, errors, herrors, hentries⟩, honce⟩
      obtain rfl : u = .array errors := Option.some.inj (hu.symm.trans herrors)
      refine ⟨hform.2 hfits, fun other hother hrepeats => ?_, ?_, ?_⟩
      · obtain rfl := List.mem_singleton.1 hother
        exact honce (.inl hrepeats)
      · intro position other hother y hy
        obtain _ | position := position <;> cases hother
        obtain rfl : x = y := Option.some.inj (hfield.symm.trans hy)
        refine hlist.2 ⟨⟨errors, rfl, hentries⟩, ?_⟩
        rintro ⟨gap, items, rfl, hitem⟩
        exact honce (.inr ⟨gap, items, hfield, hitem⟩)
      · intro position other hother _
        obtain _ | position := position <;> cases hother
        exact Option.isSome_iff_exists.2 ⟨x, hfield⟩

/-- A value that can be read at all can be read as a report exactly if it has the shape of one
and no field comes twice. -/
theorem exists_read_iff (h : t.read 0 .any = some v) :
    (∃ w, t.read 0 shape = some w) ↔ Fits v ∧ ¬ Repeats t := by
  rw [← fills_iff h]
  exact ⟨fun ⟨w, hw⟩ => Tree.fills_of_read (List.pairwise_singleton _ _) hw,
    Tree.exists_read_of_fills h⟩

theorem ofValue_eq (h : t.read 0 .any = some v) (hw : t.read 0 shape = some w) :
    ofValue w = ofJson v := by
  have hheld := Tree.field?_of_read h "errors" 0
  have hkept := Tree.member?_of_read (List.pairwise_singleton _ field) hw 0 field rfl
  have hfills := Tree.fills_of_read (List.pairwise_singleton _ field) hw
  obtain ⟨x, hx⟩ := Option.isSome_iff_exists.1 (hfills.present 0 field rfl rfl)
  rw [hx] at hkept
  rw [show t.field? "errors" 0 = some x from hx] at hheld
  obtain ⟨u, hu, hread⟩ := Option.map_eq_some_iff.1 hheld
  obtain ⟨u', hu', hread'⟩ := Option.map_eq_some_iff.1 hkept
  obtain ⟨gap, items, rfl⟩ := Tree.exists_array_of_read_list hread'.symm
  obtain ⟨_, errors, herrors, rfl⟩ := (Tree.read_array_iff rfl rfl).1 hread.symm
  obtain ⟨_, kept, hkept, rfl⟩ := (Tree.read_array_iff rfl rfl).1 hread'.symm
  have hmember : w.member? "errors" = some (.array kept) := hu'
  rw [ofValue, ofJson, hmember, hu]
  exact congrArg Report.mk (Entry.map_ofValue_eq herrors hkept)

end Report

/-! ## Unknown fields -/

/-- The two values hold the same fields of an error, whatever else they hold. -/
def Entry.SameFields (v v' : Value) : Prop :=
  v = v' ∨ ∃ members members', v = .object members ∧ v' = .object members' ∧
    ∀ name ∈ ["level", "message"], members.lookup name = members'.lookup name

/-- The two values hold the same errors, whatever else they and these errors hold. -/
def Report.SameFields (v v' : Value) : Prop :=
  v = v' ∨ ∃ members members', v = .object members ∧ v' = .object members' ∧
    (members.lookup "errors" = members'.lookup "errors" ∨
      ∃ errors errors', members.lookup "errors" = some (.array errors) ∧
        members'.lookup "errors" = some (.array errors') ∧
        List.Forall₂ Entry.SameFields errors errors')

theorem Entry.SameFields.agree {v v' : Value} (h : Entry.SameFields v v') :
    (Entry.Fits v ↔ Entry.Fits v') ∧ Entry.ofJson v = Entry.ofJson v' := by
  rcases h with rfl | ⟨members, members', rfl, rfl, hsame⟩
  · exact ⟨Iff.rfl, rfl⟩
  · have hlevel : (Value.object members).field? "level" 0 =
        (Value.object members').field? "level" 0 := hsame "level" (by simp)
    have hmessage : (Value.object members).field? "message" 1 =
        (Value.object members').field? "message" 1 := hsame "message" (by simp)
    refine ⟨⟨fun hfits => ?_, fun hfits => ?_⟩, ?_⟩
    · exact ⟨.inl ⟨members', rfl⟩, hlevel ▸ hfits.level, hmessage ▸ hfits.message⟩
    · exact ⟨.inl ⟨members, rfl⟩, hlevel ▸ hfits.level, hmessage ▸ hfits.message⟩
    · rw [Entry.ofJson, Entry.ofJson, hlevel, hmessage]

theorem Entry.agree_of_forall₂ {vs vs' : List Value} (h : List.Forall₂ Entry.SameFields vs vs') :
    ((∀ v ∈ vs, Entry.Fits v) ↔ ∀ v ∈ vs', Entry.Fits v) ∧
      vs.map Entry.ofJson = vs'.map Entry.ofJson := by
  induction h with
  | nil => exact ⟨Iff.rfl, rfl⟩
  | cons hfirst _ ih =>
    obtain ⟨hfits, hjson⟩ := hfirst.agree
    rw [List.forall_mem_cons, List.forall_mem_cons, List.map_cons, List.map_cons, hfits, hjson,
      ih.1, ih.2]
    exact ⟨Iff.rfl, rfl⟩

theorem Report.fits_object_iff {members : List (String × Value)} :
    Report.Fits (.object members) ↔
      ∃ errors, members.lookup "errors" = some (.array errors) ∧ ∀ e ∈ errors, Entry.Fits e :=
  ⟨fun hfits => hfits.errors, fun herrors => ⟨.inl ⟨members, rfl⟩, herrors⟩⟩

theorem Report.ofJson_object (members : List (String × Value)) :
    Report.ofJson (.object members) =
      match members.lookup "errors" with
      | some (.array errors) => ⟨errors.map Entry.ofJson⟩
      | _ => ⟨[]⟩ := by
  have hfield : (Value.object members).field? "errors" 0 = members.lookup "errors" := rfl
  rw [ofJson, hfield]
  cases members.lookup "errors" with
  | none => rfl
  | some u => cases u <;> rfl

theorem Report.SameFields.agree {v v' : Value} (h : Report.SameFields v v') :
    (Report.Fits v ↔ Report.Fits v') ∧ Report.ofJson v = Report.ofJson v' := by
  rcases h with rfl | ⟨members, members', rfl, rfl, hlookup⟩
  · exact ⟨Iff.rfl, rfl⟩
  simp only [Report.fits_object_iff, Report.ofJson_object]
  rcases hlookup with hlookup | ⟨errors, errors', herrors, herrors', hsame⟩
  · rw [hlookup]
    exact ⟨Iff.rfl, rfl⟩
  · obtain ⟨hfits, hjson⟩ := Entry.agree_of_forall₂ hsame
    rw [herrors, herrors']
    simpa [hjson] using hfits

/-! ## Outputs -/

/-- An output is read as the tree of its text. -/
theorem toOption_parse (doc : Padded Tree) {output : String} (hdoc : doc.text = output.toList) :
    (parse output).toOption =
      (doc.content.read 0 Report.shape).map fun w => (Report.ofValue w).index := by
  refine Option.ext fun ix => ?_
  rw [Json.toOption_eq_some, parse_eq_ok_iff, ← Json.toOption_read_text, hdoc,
    Json.Shape.toOption_read, Option.map_eq_some_iff]
  simp only [Report.read_eq_ok_iff]
  constructor
  · rintro ⟨_, ⟨w, hw, rfl⟩, rfl⟩
    exact ⟨w, hw, rfl⟩
  · rintro ⟨w, hw, rfl⟩
    exact ⟨_, ⟨w, hw, rfl⟩, rfl⟩

theorem read_any_of_read {output : String} {v : Value} (hv : Value.read output = .ok v)
    {doc : Padded Tree} (hdoc : doc.text = output.toList) : doc.content.read 0 .any = some v := by
  rw [← Json.toOption_read_text, hdoc, Json.toOption_eq_some]
  exact hv

theorem toOption_parse_iff {output : String} {v : Value} (hv : Value.read output = .ok v)
    {doc : Padded Tree} (hdoc : doc.text = output.toList) (ix : Index) :
    (parse output).toOption = some ix ↔
      (Report.Fits v ∧ ¬ Report.Repeats doc.content) ∧ ix = (Report.ofJson v).index := by
  have hany := read_any_of_read hv hdoc
  rw [toOption_parse doc hdoc, Option.map_eq_some_iff, ← Report.exists_read_iff hany]
  constructor
  · rintro ⟨w, hw, rfl⟩
    exact ⟨⟨w, hw⟩, by rw [Report.ofValue_eq hany hw]⟩
  · rintro ⟨⟨w, hw⟩, rfl⟩
    exact ⟨w, hw, by rw [Report.ofValue_eq hany hw]⟩

/-- If an output can be read as a value, its index is the one that the value alone gives.  There is
an index exactly if the value has the shape of a report and no known field comes twice.  Gaps,
spellings, the order of fields and unknown fields make no difference. -/
theorem parse_agrees {output : String} {v : Value} (hv : Value.read output = .ok v) :
    (∃ doc : Padded Tree, doc.text = output.toList) ∧
      ∀ doc : Padded Tree, doc.text = output.toList →
        (∀ ix, parse output = .ok ix → ix = (Report.ofJson v).index) ∧
        ((∃ ix, parse output = .ok ix) ↔ Report.Fits v ∧ ¬ Report.Repeats doc.content) ∧
        (∀ other : Padded Tree, other.content.Alike doc.content →
          (parse (String.ofList other.text)).toOption = (parse output).toOption) ∧
        ∀ output' v', Value.read output' = .ok v' → Report.SameFields v v' →
          ∀ doc' : Padded Tree, doc'.text = output'.toList →
            (Report.Repeats doc'.content ↔ Report.Repeats doc.content) →
            (parse output').toOption = (parse output).toOption := by
  refine ⟨Json.exists_document hv, fun doc hdoc => ⟨?_, ?_, ?_, ?_⟩⟩
  · intro ix hix
    rw [← Json.toOption_eq_some, toOption_parse_iff hv hdoc] at hix
    exact hix.2
  · simp only [← Json.toOption_eq_some, toOption_parse_iff hv hdoc]
    exact ⟨fun ⟨_, h, _⟩ => h, fun h => ⟨_, h, rfl⟩⟩
  · intro other hother
    rw [toOption_parse doc hdoc, toOption_parse other (String.toList_ofList).symm,
      Tree.read_eq_of_alike _ _ hother]
  · intro output' v' hv' hsame doc' hdoc' hrepeats
    obtain ⟨hfits, hjson⟩ := hsame.agree
    refine Option.ext fun ix => ?_
    rw [toOption_parse_iff hv hdoc, toOption_parse_iff hv' hdoc', hfits, hjson, hrepeats]

/-- An escaped name is a field like any other, and so are fields behind unknown ones; a field that
comes twice under two spellings is refused. -/
theorem parse_agrees_on_escaped_names :
    let once := "\x7b\"v\":[\x7b\x7d],\"\\u0065rrors\":" ++
      "[[\"Warning\",[\x7b\"line\":3,\"path\":\"a.js\"\x7d]]]\x7d"
    let twice := "\x7b\"errors\":[], \"\\u0065rrors\":[\x7b\"x\":1,\"x\":2\x7d]\x7d"
    let message : Value := .object [("line", .number (.whole 3)), ("path", .string "a.js")]
    let v : Value := .object [("errors", .array [.array [.string "Warning", .array [message]]]),
      ("v", .array [.object []])]
    let w : Value := .object [("errors", .array [.object [("x", .number (.whole 2))]])]
    (Value.read once = .ok v ∧ parse once = .ok (Report.ofJson v).index) ∧
      Value.read twice = .ok w ∧ Report.Fits w ∧
        (∀ ix, parse twice ≠ .ok ix) ∧
        ∀ doc : Padded Tree, doc.text = twice.toList → Report.Repeats doc.content := by
  intro once twice message v w
  have hv : Value.read once = .ok v := by
    rw [Value.read]
    simp only [once, String.reduceAppend, String.reduceToList]
    rfl
  have hw : Value.read twice = .ok w := by
    rw [Value.read]
    simp only [twice, String.reduceToList]
    rfl
  have hone : ∃ r, Report.read once = .ok r := by
    rw [Report.read]
    simp only [once, String.reduceAppend, String.reduceToList]
    exact ⟨_, rfl⟩
  have htwice : ∃ fault, Report.read twice = .error fault := by
    rw [Report.read]
    simp only [twice, String.reduceToList]
    exact ⟨_, rfl⟩
  have hrefused : ∀ ix, parse twice ≠ .ok ix := by
    intro ix hix
    obtain ⟨fault, hfault⟩ := htwice
    obtain ⟨r, hr, _⟩ := parse_eq_ok_iff.1 hix
    cases hfault.symm.trans hr
  have hentry : Entry.Fits (.object [("x", .number (.whole 2))]) := by
    refine ⟨.inl ⟨_, rfl⟩, ?_, ?_⟩ <;>
    · intro u hu
      cases hu
  have hfits : Report.Fits w :=
    ⟨.inl ⟨_, rfl⟩, _, rfl, fun e he => List.mem_singleton.1 he ▸ hentry⟩
  refine ⟨⟨hv, ?_⟩, hw, hfits, hrefused, fun doc hdoc => ?_⟩
  · obtain ⟨⟨doc, hdoc⟩, hagree⟩ := parse_agrees hv
    obtain ⟨r, hr⟩ := hone
    have hparse := parse_eq_ok_iff.2 ⟨r, hr, rfl⟩
    rw [← (hagree doc hdoc).1 _ hparse]
    exact hparse
  · by_contra hrepeats
    obtain ⟨ix, hix⟩ := ((parse_agrees hw).2 doc hdoc).2.1.2 ⟨hfits, hrepeats⟩
    exact hrefused ix hix

end InlineCheck
