import InlineCheck.Proofs.Report.Agreement

/-!
# A report and the text of its output

A report is made of a value, and the value is made of a text.  `Report.WrittenIn` leaves the value
out: it compares the errors of a report with those that are written in the tree of its text, one by
one, and the messages of each error in the same way.

* `Tree.map_itemsOf_of_read` follows a list that is a field of a record from the tree to the value.
  Errors are such a list, and so are the messages of an error.
* `Report.writtenIn_of_read` says that every report is written in each document that its output is
  the text of.
* `Report.messageAt?` and `Tree.messageAt?` single out one message by its place.
-/

namespace InlineCheck

open Json (Value Tree Padded)

/-! ## Fields of a record -/

/-- The text that is written as a string. -/
def Json.Tree.string? : Tree → Option String
  | string x => x.read true
  | _ => none

/-- The items of a list that is a member of an object. -/
def Json.Value.itemsOf (v : Value) (name : String) : List Value :=
  match v.member? name with
  | some (.array items) => items
  | _ => []

/-- The items of a list that is a field of a record. -/
def Json.Tree.itemsOf (t : Tree) (name : String) (position : Nat) : List Tree :=
  match t.field? name position with
  | some (.array _ items) => items.map (·.content)
  | _ => []

theorem Json.Tree.string?_of_read {t : Tree} {depth : Nat} {v : Value}
    (h : t.read depth .optionalText = some v) : t.string? = v.text? := by
  cases t with
  | null =>
    cases h
    rfl
  | bool => cases h
  | number x =>
    obtain ⟨u, hu, h⟩ := Option.bind_eq_some_iff.1 h
    have hany : (number x).read depth .any = some u := Option.bind_eq_some_iff.2 ⟨u, hu, rfl⟩
    obtain ⟨_, _, rfl⟩ := exists_of_read_number hany
    cases h
  | string x =>
    obtain ⟨s, hs, h⟩ := Option.bind_eq_some_iff.1 h
    cases h
    exact hs
  | array | object => simp [read, Json.Shape.row?, Json.Shape.block?] at h

/-- The items of a list that is a field of a record are kept in their order. -/
theorem Json.Tree.map_itemsOf_of_read {fields : Json.Fields} {title : String} {t : Tree}
    {depth : Nat} {w : Value} {item : Json.Shape}
    (hdistinct : fields.Pairwise fun a b => a.name ≠ b.name)
    (h : t.read depth (.record title fields) = some w) (position : Nat)
    (field : Json.Field Json.Shape) (hfield : fields[position]? = some field)
    (hshape : field.shape = .list item) :
    (w.itemsOf field.name).map some =
      (t.itemsOf field.name position).map fun x => x.read (depth + 2) item := by
  have hread := member?_of_read hdistinct h position field hfield
  rw [hshape] at hread
  rw [Value.itemsOf, itemsOf]
  cases hx : t.field? field.name position with
  | none =>
    rw [hx] at hread
    rw [Option.map_eq_none_iff.1 hread]
    rfl
  | some x =>
    rw [hx] at hread
    obtain ⟨u, hu, hxu⟩ := Option.map_eq_some_iff.1 hread
    obtain ⟨gap, items, rfl⟩ := exists_array_of_read_list hxu.symm
    obtain ⟨_, vs, hvs, rfl⟩ := (read_array_iff rfl rfl).1 hxu.symm
    rw [hu, List.map_map]
    exact hvs.symm

/-! ## What is written -/

/-- The error is the one that is written in the tree: it has its level, and the messages that it
lists in their order. -/
structure Entry.WrittenIn (e : Entry) (t : Tree) : Prop where
  level_eq : e.level = (t.field? "level" 0).bind Tree.string?
  messages_eq : e.messages.map some = (t.itemsOf "message" 1).map fun m => m.read 4 .any

/-- The errors of the report are those that the tree lists, in their order. -/
def Report.WrittenIn (r : Report) (t : Tree) : Prop :=
  List.Forall₂ Entry.WrittenIn r.entries (t.itemsOf "errors" 0)

theorem Entry.writtenIn_ofValue {e : Tree} {u : Value} (h : e.read 2 shape = some u) :
    (ofValue u).WrittenIn e where
  level_eq := by
    have hlevel := Tree.member?_of_read distinct_fields h 0 _ rfl
    show (u.member? "level").bind Value.text? = _
    cases hx : e.field? "level" 0 with
    | none =>
      rw [hx] at hlevel
      rw [Option.map_eq_none_iff.1 hlevel]
      rfl
    | some x =>
      rw [hx] at hlevel
      obtain ⟨v, hv, hxv⟩ := Option.map_eq_some_iff.1 hlevel
      rw [hv]
      exact (Tree.string?_of_read hxv.symm).symm
  messages_eq := Tree.map_itemsOf_of_read distinct_fields h 1 _ rfl rfl

namespace Report

theorem entries_ofValue (w : Value) :
    (ofValue w).entries = (w.itemsOf "errors").map Entry.ofValue := by
  rw [ofValue, Value.itemsOf]
  cases w.member? "errors" with
  | none => rfl
  | some u => cases u <;> rfl

theorem writtenIn_ofValue {t : Tree} {w : Value} (h : t.read 0 shape = some w) :
    (ofValue w).WrittenIn t := by
  have herrors : (w.itemsOf "errors").map some =
      (t.itemsOf "errors" 0).map fun e => e.read 2 Entry.shape :=
    Tree.map_itemsOf_of_read (List.pairwise_singleton _ field) h 0 field rfl rfl
  have heach : List.Forall₂ (fun u e => some u = e.read 2 Entry.shape)
      (w.itemsOf "errors") (t.itemsOf "errors" 0) := by
    rwa [← List.forall₂_eq_eq_eq, List.forall₂_map_left_iff, List.forall₂_map_right_iff]
      at herrors
  rw [WrittenIn, entries_ofValue, List.forall₂_map_left_iff]
  exact heach.imp fun u e hread => Entry.writtenIn_ofValue hread.symm

variable {output : String} {r : Report}

/-- An output with a report is the text of a document. -/
theorem exists_document_of_read (h : read output = .ok r) :
    ∃ doc : Padded Tree, doc.text = output.toList := by
  cases hread : shape.read output.toList with
  | error fault =>
    rw [read, hread] at h
    cases h
  | ok w => exact Json.exists_document hread

/-- The report of an output is that of each document that it is the text of. -/
theorem exists_read_of_text (h : read output = .ok r) {doc : Padded Tree}
    (hdoc : doc.text = output.toList) :
    ∃ w, doc.content.read 0 shape = some w ∧ r = ofValue w := by
  obtain ⟨w, hw, rfl⟩ := read_eq_ok_iff.1 h
  refine ⟨w, ?_, rfl⟩
  rw [← Json.toOption_read_text, hdoc, Json.Shape.toOption_read]
  exact hw

/-- The report of an output is written in it. -/
theorem writtenIn_of_read (h : read output = .ok r) :
    (∃ doc : Padded Tree, doc.text = output.toList) ∧
      ∀ doc : Padded Tree, doc.text = output.toList → r.WrittenIn doc.content := by
  refine ⟨exists_document_of_read h, fun doc hdoc => ?_⟩
  obtain ⟨w, hw, rfl⟩ := exists_read_of_text h hdoc
  exact writtenIn_ofValue hw

end Report

/-! ## Where a message is -/

/-- A message of a report as it is written: one of an error, both counted from zero. -/
def Json.Tree.messageAt? (t : Tree) (i j : Nat) : Option Tree :=
  (t.itemsOf "errors" 0)[i]?.bind fun e => (e.itemsOf "message" 1)[j]?

namespace Report

/-- A message of a report with its error. -/
def messageAt? (r : Report) (i j : Nat) : Option (Entry × Value) :=
  r.entries[i]?.bind fun e => e.messages[j]?.map fun message => (e, message)

variable {r : Report} {i j : Nat}

theorem messageAt?_eq_some_iff {e : Entry} {message : Value} :
    r.messageAt? i j = some (e, message) ↔
      r.entries[i]? = some e ∧ e.messages[j]? = some message := by
  simp [messageAt?, Option.bind_eq_some_iff]

/-- The messages of a report are those that are written, each in its place. -/
theorem map_messageAt? {t : Tree} (h : r.WrittenIn t) (i j : Nat) :
    (r.messageAt? i j).map (fun x => some x.2) =
      (t.messageAt? i j).map fun m => m.read 4 .any := by
  rw [messageAt?, Tree.messageAt?]
  rw [WrittenIn] at h
  generalize r.entries = entries, t.itemsOf "errors" 0 = errors at h ⊢
  induction h generalizing i with
  | nil => rfl
  | cons hwritten _ ih =>
    cases i with
    | zero =>
      have hmessage := congrArg (fun messages => messages[j]?) hwritten.messages_eq
      simpa [Function.comp_def] using hmessage
    | succ i => exact ih i

end Report

end InlineCheck
