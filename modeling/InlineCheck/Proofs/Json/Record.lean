import InlineCheck.Proofs.Json.Fields

/-!
# Reading records

A record is read from an object or from an array of its fields.  Other members are passed over,
and a field that comes twice is refused.

* `fills_of_read` says what it takes to read a record, and `member?_of_read` that its fields are
  then kept, each by its own shape.
* `exists_read_of_fills` is the converse, for trees that can be read at all.
* `reads_iff` and `member?_eq_field?` say what becomes of a field whose shape keeps it as it is.
-/

namespace InlineCheck.Json

namespace Tree

variable {depth : Nat} {v w : Value} {t : Tree}

/-! ## Records -/

/-- The tree is an object, or an array of at most so many items. -/
def HasForm (t : Tree) (length : Nat) : Prop :=
  (∃ gap members, t = object gap members) ∨ ∃ gap items, t = array gap items ∧ items.length ≤ length

theorem hasForm_iff (h : t.read depth .any = some v) (length : Nat) :
    t.HasForm length ↔ (∃ members, v = .object members) ∨
      ∃ items, v = .array items ∧ items.length ≤ length := by
  cases t with
  | null | bool =>
    cases h
    simp [HasForm]
  | number x =>
    obtain ⟨n, _, rfl⟩ := exists_of_read_number h
    simp [HasForm]
  | string x =>
    obtain ⟨s, _, rfl⟩ := exists_of_read_string h
    simp [HasForm]
  | array gap items =>
    obtain ⟨_, vs, hvs, rfl⟩ := (read_array_iff rfl rfl).1 h
    have hlength : items.length = vs.length := by simpa using congrArg List.length hvs
    constructor
    · rintro (⟨_, _, heq⟩ | ⟨_, _, heq, hle⟩)
      · cases heq
      · cases heq
        exact .inr ⟨vs, rfl, hlength ▸ hle⟩
    · rintro (⟨_, heq⟩ | ⟨_, heq, hle⟩)
      · cases heq
      · cases heq
        exact .inr ⟨gap, items, rfl, hlength ▸ hle⟩
  | object gap members =>
    obtain ⟨_, _, kept, rfl, _⟩ := exists_of_read_object h
    simp [HasForm]

/-- What it takes to read a tree as a record. -/
structure Fills (t : Tree) (depth : Nat) (fields : Fields) : Prop where
  form : t.HasForm fields.length
  once : ∀ field ∈ fields, ¬ t.Repeats field.name
  reads : ∀ position field, fields[position]? = some field →
    ∀ x, t.field? field.name position = some x → (x.read (depth + 1) field.shape).isSome
  present : ∀ position field, fields[position]? = some field → field.required = true →
    (t.field? field.name position).isSome

theorem missing?_eq_none_iff {fields : Fields} {found : List (String × Value)} :
    fields.missing? found = none ↔
      ∀ field ∈ fields, field.required = true → (found.lookup field.name).isSome := by
  simp [Fields.missing?, Option.isSome_iff_ne_none]

theorem find?_of_mem {fields : Fields} (hdistinct : fields.Pairwise fun a b => a.name ≠ b.name)
    {field : Field Shape} (hfield : field ∈ fields) : fields.find? field.name = some field := by
  induction fields with
  | nil => cases hfield
  | cons first rest ih =>
    obtain ⟨hfirst, hrest⟩ := List.pairwise_cons.1 hdistinct
    rcases List.mem_cons.1 hfield with rfl | hmem
    · simp [Fields.find?]
    · rw [Fields.find?, List.find?_cons_of_neg (by simpa using hfirst field hmem)]
      exact ih hrest hmem

theorem lookup_append_singleton (found : List (String × Value)) (first name : String) (v : Value) :
    (found ++ [(first, v)]).lookup name =
      (found.lookup name).or (if first = name then some v else none) := by
  rw [List.lookup_append, lookup_cons_eq]
  rfl

/-! ### Records written as objects -/

theorem readMembers_record_cons (fields : Fields) (found : List (String × Value))
    (m : Member) (rest : List Member) :
    readMembers depth (.record fields found) (m :: rest) =
      (m.1.content.read true).bind fun name =>
        if (found.lookup name).isSome then none
        else (m.2.content.read depth (Block.shape (.record fields found) name)).bind fun v =>
          readMembers depth (Block.add (.record fields found) name v) rest :=
  rfl

/-- A member is added to a record if it is a field of it, and otherwise dropped. -/
theorem exists_add (fields : Fields) (found : List (String × Value)) (first : String) (v : Value) :
    ∃ found', Block.add (.record fields found) first v = .record fields found' ∧
      ∀ name, found'.lookup name = (found.lookup name).or
        (if first = name ∧ (fields.find? name).isSome then some v else none) := by
  cases hfind : fields.find? first with
  | some field =>
    refine ⟨found ++ [(first, v)], by simp [Block.add, hfind], fun name => ?_⟩
    rw [lookup_append_singleton]
    by_cases hname : first = name
    · simp [← hname, hfind]
    · simp [hname]
  | none =>
    refine ⟨found, by simp [Block.add, hfind], fun name => ?_⟩
    have hunknown : ¬ (first = name ∧ (fields.find? name).isSome) := by
      rintro ⟨rfl, hname⟩
      simp [hfind] at hname
    rw [if_neg hunknown, Option.or_none]

/-- A record that was read from members holds the value of each known name among them, and no
known name came twice. -/
theorem lookup_of_readMembers_record {fields : Fields} {members : List Member}
    {found : List (String × Value)}
    (h : readMembers depth (.record fields found) members = some w) :
    ∃ kept, w = .object kept ∧ fields.missing? kept = none ∧
      ∀ field, fields.find? field.name = some field →
        (kept.lookup field.name).map some =
            ((named field.name members).getLast?.map fun x => x.read depth field.shape).or
              ((found.lookup field.name).map some) ∧
          (named field.name members).length + (found.lookup field.name).toList.length ≤ 1 := by
  -- Of a known name, what was found and what is to come are one at most.  A member that is added
  -- goes over from the one to the other.
  induction members generalizing found with
  | nil =>
    rw [readMembers, Block.close] at h
    split at h
    · cases h
    · next hmissing =>
      cases h
      refine ⟨found, rfl, hmissing, fun field _ => ⟨rfl, ?_⟩⟩
      cases found.lookup field.name <;> simp [named]
  | cons m rest ih =>
    rw [readMembers_record_cons] at h
    obtain ⟨first, hfirst, h⟩ := Option.bind_eq_some_iff.1 h
    split at h
    · cases h
    next hnew =>
    obtain ⟨u, hu, h⟩ := Option.bind_eq_some_iff.1 h
    obtain ⟨found', hadd, hfound'⟩ := exists_add fields found first u
    rw [hadd] at h
    obtain ⟨kept, rfl, hmissing, hkept⟩ := ih h
    refine ⟨kept, rfl, hmissing, fun field hfield => ?_⟩
    obtain ⟨hlookup, honce⟩ := hkept field hfield
    simp only [hfound' field.name, hfield, Option.isSome_some, and_true] at hlookup honce
    by_cases hname : first = field.name
    · subst hname
      have hnone : found.lookup field.name = none := Option.not_isSome_iff_eq_none.1 hnew
      have hlast : named field.name rest = [] := by
        simpa [hnone] using honce
      have hshape : Block.shape (.record fields found) field.name = field.shape := by
        simp [Block.shape, hfield]
      rw [hshape] at hu
      rw [named_cons_of_eq hfirst, hlast, hnone, hlookup, hlast, hnone]
      simp [hu]
    · rw [named_cons_of_ne (by simpa [hfirst] using hname)]
      simpa [hname] using And.intro hlookup honce

/-- With the fields that were found so far, the members to come make a record. -/
structure Completes (depth : Nat) (fields : Fields) (found : List (String × Value))
    (members : List Member) : Prop where
  known : ∀ name, fields.find? name = none → found.lookup name = none
  spelled : ∀ m ∈ members, (m.1.content.read true).isSome
  once : ∀ field, fields.find? field.name = some field →
    (named field.name members).length + (found.lookup field.name).toList.length ≤ 1
  reads : ∀ field, fields.find? field.name = some field →
    ∀ x ∈ named field.name members, (x.read depth field.shape).isSome
  present : ∀ field ∈ fields, field.required = true →
    named field.name members ≠ [] ∨ (found.lookup field.name).isSome

namespace Completes

variable {fields : Fields} {found : List (String × Value)} {m : Member} {rest : List Member}
  {first : String}

/-- The first member is new, and its value can be read by the shape that the record has for it. -/
theorem exists_first (h : Completes depth fields found (m :: rest))
    (hfirst : m.1.content.read true = some first) :
    found.lookup first = none ∧
      ∃ u, m.2.content.read depth (Block.shape (.record fields found) first) = some u := by
  cases hfind : fields.find? first with
  | none =>
    refine ⟨h.known first hfind, .null, ?_⟩
    simp [Block.shape, hfind, read_passed]
  | some field =>
    obtain rfl : field.name = first := by simpa using List.find?_some hfind
    have hlength := h.once field hfind
    rw [named_cons_of_eq hfirst] at hlength
    refine ⟨?_, ?_⟩
    · cases hlookup : found.lookup field.name with
      | none => rfl
      | some u => simp [hlookup] at hlength
    · rw [show Block.shape (.record fields found) field.name = field.shape by
        simp [Block.shape, hfind]]
      refine Option.isSome_iff_exists.1 (h.reads field hfind _ ?_)
      simp [named_cons_of_eq hfirst]

/-- Once the first member is added, the others complete the record. -/
theorem tail {found' : List (String × Value)} {u : Value}
    (h : Completes depth fields found (m :: rest)) (hfirst : m.1.content.read true = some first)
    (hnone : found.lookup first = none)
    (hfound' : ∀ name, found'.lookup name = (found.lookup name).or
      (if first = name ∧ (fields.find? name).isSome then some u else none)) :
    Completes depth fields found' rest := by
  have hother : ∀ name, first ≠ name → named name (m :: rest) = named name rest := by
    intro name hname
    exact named_cons_of_ne (by simpa [hfirst] using hname) rest
  refine ⟨fun name hname => ?_, ?_, fun field hfield => ?_, fun field hfield x hx => ?_,
    fun field hfield hrequired => ?_⟩
  · simp [hfound', hname, h.known name hname]
  · exact fun m hm => h.spelled m (List.mem_cons_of_mem _ hm)
  · have hlength := h.once field hfield
    by_cases hname : first = field.name
    · subst hname
      rw [named_cons_of_eq hfirst, hnone] at hlength
      simpa [hfound', hnone, hfield] using hlength
    · rw [hother _ hname] at hlength
      simpa [hfound', hname] using hlength
  · refine h.reads field hfield x ?_
    by_cases hname : first = field.name
    · rw [named_cons_of_eq (hname ▸ hfirst)]
      exact List.mem_cons_of_mem _ hx
    · rwa [hother _ hname]
  · have hfind : (fields.find? field.name).isSome :=
      List.find?_isSome.2 ⟨field, hfield, by simp⟩
    by_cases hname : first = field.name
    · exact .inr (by simp [hfound', hname, hfind])
    · have := h.present field hfield hrequired
      rw [hother _ hname] at this
      simpa [hfound', hname] using this

/-- Members that complete a record can be read into it. -/
theorem exists_read {members : List Member} (h : Completes depth fields found members) :
    ∃ w, readMembers depth (.record fields found) members = some w := by
  induction members generalizing found with
  | nil =>
    have hmissing : fields.missing? found = none :=
      missing?_eq_none_iff.2 fun field hfield hrequired =>
        (h.present field hfield hrequired).resolve_left (by simp [named])
    exact ⟨.object found, by simp [readMembers, Block.close, hmissing, Except.toOption]⟩
  | cons m rest ih =>
    obtain ⟨first, hfirst⟩ := Option.isSome_iff_exists.1 (h.spelled m List.mem_cons_self)
    obtain ⟨hnone, u, hu⟩ := h.exists_first hfirst
    obtain ⟨found', hadd, hfound'⟩ := exists_add fields found first u
    rw [readMembers_record_cons, hfirst, Option.bind_some, if_neg (by simp [hnone]), hu,
      Option.bind_some, hadd]
    exact ih (h.tail hfirst hnone hfound')

end Completes

/-! ### Records written as arrays -/

theorem readItems_record_cons (title : String) (fields left : Fields) (field : Field Shape)
    (found : List (String × Value)) (x : Padded Tree) (rest : List (Padded Tree)) :
    readItems depth (.record title fields (field :: left) found) (x :: rest) =
      (x.content.read depth field.shape).bind fun v =>
        readItems depth (.record title fields left (found ++ [(field.name, v)])) rest :=
  rfl

/-- A record that was read from items holds each of them under the name of its position. -/
theorem lookup_of_readItems_record {title : String} {fields left : Fields}
    {items : List (Padded Tree)} {found : List (String × Value)}
    (hdistinct : left.Pairwise fun a b => a.name ≠ b.name)
    (hnew : ∀ field ∈ left, found.lookup field.name = none)
    (h : readItems depth (.record title fields left found) items = some w) :
    items.length ≤ left.length ∧ ∃ kept, w = .object kept ∧ fields.missing? kept = none ∧
      (∀ name, (∀ field ∈ left, field.name ≠ name) → kept.lookup name = found.lookup name) ∧
      ∀ (position : Nat) (field : Field Shape), left[position]? = some field →
        (kept.lookup field.name).map some =
          items[position]?.map fun x => x.content.read depth field.shape := by
  induction items generalizing left found with
  | nil =>
    rw [readItems, Row.close] at h
    split at h
    · cases h
    · next hmissing =>
      cases h
      refine ⟨Nat.zero_le _, found, rfl, hmissing, fun _ _ => rfl, fun position field hfield => ?_⟩
      simp [hnew field (List.mem_of_getElem? hfield)]
  | cons x rest ih =>
    rcases left with _ | ⟨field, left⟩
    · cases h
    rw [readItems_record_cons] at h
    obtain ⟨u, hu, h⟩ := Option.bind_eq_some_iff.1 h
    obtain ⟨hfirst, hleft⟩ := List.pairwise_cons.1 hdistinct
    obtain ⟨hlength, kept, rfl, hmissing, hothers, hkept⟩ := ih hleft (fun other hother => by
      rw [lookup_append_singleton, hnew other (List.mem_cons_of_mem _ hother),
        if_neg (hfirst other hother), Option.or_none]) h
    refine ⟨Nat.succ_le_succ hlength, kept, rfl, hmissing, fun name hname => ?_,
      fun position other hother => ?_⟩
    · obtain ⟨hname, hrest⟩ := List.forall_mem_cons.1 hname
      rw [hothers name hrest, lookup_append_singleton, if_neg hname, Option.or_none]
    · cases position with
      | zero =>
        obtain rfl : field = other := by simpa using hother
        rw [hothers _ fun other hother => (hfirst other hother).symm, lookup_append_singleton,
          hnew field List.mem_cons_self]
        simp [hu]
      | succ position => exact hkept position other hother

theorem exists_of_readItems_record {title : String} {fields left : Fields}
    {items : List (Padded Tree)} {found : List (String × Value)}
    (hlength : items.length ≤ left.length)
    (hreads : ∀ (position : Nat) (field : Field Shape) (x : Padded Tree),
      left[position]? = some field → items[position]? = some x →
        (x.content.read depth field.shape).isSome)
    (hpresent : ∀ field ∈ fields, field.required = true → (found.lookup field.name).isSome ∨
      ∃ position, left[position]? = some field ∧ position < items.length) :
    ∃ w, readItems depth (.record title fields left found) items = some w := by
  induction items generalizing left found with
  | nil =>
    have hmissing : fields.missing? found = none :=
      missing?_eq_none_iff.2 fun field hfield hrequired =>
        (hpresent field hfield hrequired).resolve_right (by simp)
    exact ⟨.object found, by simp [readItems, Row.close, hmissing, Except.toOption]⟩
  | cons x rest ih =>
    rcases left with _ | ⟨field, left⟩
    · cases hlength
    obtain ⟨u, hu⟩ := Option.isSome_iff_exists.1 (hreads 0 field x rfl rfl)
    rw [readItems_record_cons, hu, Option.bind_some]
    refine ih (Nat.le_of_succ_le_succ hlength)
      (fun position other y hother hy => hreads (position + 1) other y hother hy) ?_
    intro other hother hrequired
    rw [lookup_append_singleton]
    rcases hpresent other hother hrequired with hfound | ⟨_ | position, hat, hlt⟩
    · exact .inl (by simp [hfound])
    · obtain rfl : field = other := by simpa using hat
      exact .inl (by simp)
    · exact .inr ⟨position, hat, Nat.lt_of_succ_lt_succ hlt⟩

/-! ### Records in either form -/

variable {title : String} {fields : Fields}

theorem read_record_array {gap : Gap} {items : List (Padded Tree)} :
    (array gap items).read depth (.record title fields) =
      if depth < maxDepth then readItems (depth + 1) (.record title fields fields []) items
      else none := by
  simp [read, Shape.fits, Shape.keeps, Shape.row?]

theorem read_record_object {gap : Gap} {members : List Member} :
    (object gap members).read depth (.record title fields) =
      if depth < maxDepth then readMembers (depth + 1) (.record fields []) members else none := by
  simp [read, Shape.fits, Shape.keeps, Shape.block?]

theorem exists_container_of_read_record (h : t.read depth (.record title fields) = some w) :
    (∃ gap items, t = array gap items) ∨ ∃ gap members, t = object gap members := by
  cases t with
  | null | bool => cases h
  | number | string =>
    obtain ⟨_, _, h⟩ := Option.bind_eq_some_iff.1 h
    cases h
  | array gap items => exact .inl ⟨gap, items, rfl⟩
  | object gap members => exact .inr ⟨gap, members, rfl⟩

theorem exists_of_read_record (hdistinct : fields.Pairwise fun a b => a.name ≠ b.name)
    (h : t.read depth (.record title fields) = some w) :
    ∃ kept, w = .object kept ∧ fields.missing? kept = none ∧ t.HasForm fields.length ∧
      (∀ field ∈ fields, ¬ t.Repeats field.name) ∧
      ∀ (position : Nat) (field : Field Shape), fields[position]? = some field →
        (kept.lookup field.name).map some =
          (t.field? field.name position).map fun x => x.read (depth + 1) field.shape := by
  rcases exists_container_of_read_record h with ⟨gap, items, rfl⟩ | ⟨gap, members, rfl⟩
  · rw [read_record_array] at h
    split at h
    · obtain ⟨hlength, kept, hw, hmissing, _, hkept⟩ :=
        lookup_of_readItems_record hdistinct (fun _ _ => rfl) h
      refine ⟨kept, hw, hmissing, .inr ⟨gap, items, rfl, hlength⟩, ?_, ?_⟩
      · rintro field _ ⟨_, _, heq, _⟩
        cases heq
      · intro position field hfield
        rw [hkept position field hfield, field?, Option.map_map]
        rfl
    · cases h
  · rw [read_record_object] at h
    split at h
    · obtain ⟨kept, hw, hmissing, hkept⟩ := lookup_of_readMembers_record h
      refine ⟨kept, hw, hmissing, .inl ⟨gap, members, rfl⟩, ?_, ?_⟩
      · rintro field hfield ⟨_, _, heq, hlength⟩
        cases heq
        have honce := (hkept field (find?_of_mem hdistinct hfield)).2
        exact absurd (Nat.le_of_add_right_le honce) (Nat.not_le.2 hlength)
      · intro position field hfield
        have hfind := find?_of_mem hdistinct (List.mem_of_getElem? hfield)
        simpa [field?] using (hkept field hfind).1
    · cases h

/-- What is kept of a record holds its fields, each as its own shape has it. -/
theorem member?_of_read (hdistinct : fields.Pairwise fun a b => a.name ≠ b.name)
    (h : t.read depth (.record title fields) = some w) (position : Nat) (field : Field Shape)
    (hfield : fields[position]? = some field) :
    (w.member? field.name).map some =
      (t.field? field.name position).map fun x => x.read (depth + 1) field.shape := by
  obtain ⟨kept, rfl, _, _, _, hkept⟩ := exists_of_read_record hdistinct h
  exact hkept position field hfield

/-- What was read as a record is one, with every field at most once. -/
theorem fills_of_read (hdistinct : fields.Pairwise fun a b => a.name ≠ b.name)
    (h : t.read depth (.record title fields) = some w) : t.Fills depth fields := by
  obtain ⟨kept, rfl, hmissing, hform, honce, hkept⟩ := exists_of_read_record hdistinct h
  refine ⟨hform, honce, fun position field hfield x hx => ?_, fun position field hfield hreq => ?_⟩
  · have hread := hkept position field hfield
    rw [hx, Option.map_some] at hread
    obtain ⟨u, _, hu⟩ := Option.map_eq_some_iff.1 hread
    simp [← hu]
  · have hlookup := missing?_eq_none_iff.1 hmissing field (List.mem_of_getElem? hfield) hreq
    have hread := congrArg Option.isSome (hkept position field hfield)
    simpa [hlookup] using hread.symm

/-- What can be read at all can be read as a record if it is one. -/
theorem exists_read_of_fills (h : t.read depth .any = some v) (hfills : t.Fills depth fields) :
    ∃ w, t.read depth (.record title fields) = some w := by
  have hposition : ∀ field ∈ fields, ∃ position : Nat, fields[position]? = some field :=
    fun field hfield => List.getElem?_of_mem hfield
  rcases hfills.form with ⟨gap, members, rfl⟩ | ⟨gap, items, rfl, hlength⟩
  · obtain ⟨hdepth, hnames, _⟩ := exists_of_read_object h
    have honce : ∀ field, fields.find? field.name = some field →
        (named field.name members).length ≤ 1 := fun field hfind =>
      Nat.le_of_not_lt fun hlt =>
        hfills.once field (List.mem_of_find?_eq_some hfind) ⟨gap, members, rfl, hlt⟩
    rw [read_record_object, if_pos hdepth]
    refine Completes.exists_read ⟨fun _ _ => rfl, hnames, honce, ?_, ?_⟩
    · intro field hfind x hx
      obtain ⟨position, hfield⟩ := hposition field (List.mem_of_find?_eq_some hfind)
      refine hfills.reads position field hfield x ?_
      obtain ⟨y, hy⟩ := List.length_eq_one_iff.1
        (Nat.le_antisymm (honce field hfind) (List.length_pos_of_mem hx))
      obtain rfl : x = y := by simpa [hy] using hx
      simp [field?, hy]
    · intro field hfield hrequired
      obtain ⟨position, hfield⟩ := hposition field hfield
      have hsome := hfills.present position field hfield hrequired
      refine .inl fun hnil => ?_
      simp [field?, hnil] at hsome
  · obtain ⟨hdepth, _⟩ := (read_array_iff rfl rfl).1 h
    rw [read_record_array, if_pos hdepth]
    refine exists_of_readItems_record hlength ?_ ?_
    · intro position field x hfield hx
      exact hfills.reads position field hfield x.content (by simp [field?, hx])
    · intro field hfield hrequired
      obtain ⟨position, hfield⟩ := hposition field hfield
      have hsome := hfills.present position field hfield hrequired
      refine .inr ⟨position, hfield, ?_⟩
      simpa [field?] using hsome

end Tree

/-! ## Shapes that keep a value as it is -/

/-- Whether the value is a text or null. -/
def Value.isOptionalText : Value → Bool
  | .null | .string _ => true
  | _ => false

/-- Whether the value is an array. -/
def Value.isArray : Value → Bool
  | .array _ => true
  | _ => false

theorem Value.isOptionalText_iff {v : Value} :
    v.isOptionalText = true ↔ v = .null ∨ ∃ text, v = .string text := by
  cases v <;> simp [isOptionalText]

theorem Value.isArray_iff {v : Value} : v.isArray = true ↔ ∃ items, v = .array items := by
  cases v <;> simp [isArray]

/-- Of values that can be read at all, the shape keeps those that pass, and as they are. -/
def Shape.Sifts (shape : Shape) (pass : Value → Bool) : Prop :=
  ∀ (t : Tree) (depth : Nat) (v : Value), t.read depth .any = some v →
    t.read depth shape = if pass v then some v else none

theorem Shape.sifts_optionalText : Shape.optionalText.Sifts Value.isOptionalText := by
  intro t depth v h
  cases t with
  | null | bool =>
    cases h
    rfl
  | number x =>
    obtain ⟨n, hn, rfl⟩ := Tree.exists_of_read_number h
    rw [Tree.read, show Shape.optionalText.keeps = true from rfl, hn]
    rfl
  | string x =>
    obtain ⟨s, hs, rfl⟩ := Tree.exists_of_read_string h
    rw [Tree.read, show Shape.optionalText.keeps = true from rfl, hs]
    rfl
  | array gap items =>
    obtain ⟨_, vs, _, rfl⟩ := (Tree.read_array_iff rfl rfl).1 h
    simp [Tree.read, Shape.row?, Value.isOptionalText]
  | object gap members =>
    obtain ⟨_, _, kept, rfl, _⟩ := Tree.exists_of_read_object h
    simp [Tree.read, Shape.block?, Value.isOptionalText]

/-- Where a list must stand, nothing but an array is kept. -/
theorem Tree.exists_array_of_read_list {t : Tree} {depth : Nat} {item : Shape} {w : Value}
    (h : t.read depth (.list item) = some w) : ∃ gap items, t = array gap items := by
  cases t with
  | null | bool => cases h
  | number | string =>
    obtain ⟨_, _, h⟩ := Option.bind_eq_some_iff.1 h
    cases h
  | array gap items => exact ⟨gap, items, rfl⟩
  | object gap members =>
    rw [read] at h
    split at h <;> cases h

theorem Shape.sifts_list : (Shape.list .any).Sifts Value.isArray := by
  intro t depth v h
  cases hlist : t.read depth (.list .any) with
  | some w =>
    obtain ⟨gap, items, rfl⟩ := Tree.exists_array_of_read_list hlist
    obtain ⟨_, vs, _, rfl⟩ := (Tree.read_array_iff rfl rfl).1 h
    exact hlist.symm.trans h
  | none =>
    refine (if_neg fun harray => ?_).symm
    obtain ⟨vs, rfl⟩ := Value.isArray_iff.1 harray
    cases t with
    | array gap items => cases hlist.symm.trans h
    | null | bool => cases h
    | number x =>
      obtain ⟨n, _, heq⟩ := Tree.exists_of_read_number h
      cases heq
    | string x =>
      obtain ⟨s, _, heq⟩ := Tree.exists_of_read_string h
      cases heq
    | object gap members =>
      obtain ⟨_, _, kept, heq, _⟩ := Tree.exists_of_read_object h
      cases heq

namespace Tree

variable {depth : Nat} {v w : Value} {t : Tree} {shape : Shape} {pass : Value → Bool}

/-- A field can be read by a shape that sifts exactly if its value passes. -/
theorem reads_iff (hsifts : shape.Sifts pass) (h : t.read depth .any = some v) (name : String)
    (position : Nat) :
    (∀ x, t.field? name position = some x → (x.read (depth + 1) shape).isSome) ↔
      ∀ u, v.field? name position = some u → pass u = true := by
  have hheld := field?_of_read h name position
  cases hfield : t.field? name position with
  | none =>
    have hnone : v.field? name position = none := by simpa [hfield] using hheld
    simp [hnone]
  | some x =>
    rw [hfield] at hheld
    obtain ⟨u, hu, hread⟩ := Option.map_eq_some_iff.1 hheld
    cases hpass : pass u <;> simp [hu, hpass, hsifts x (depth + 1) u hread.symm]

/-- What is kept of a field by a shape that sifts is what is kept without a shape. -/
theorem member?_eq_field? (hsifts : shape.Sifts pass) (h : t.read depth .any = some v)
    {name : String} {position : Nat}
    (hmember : (w.member? name).map some =
      (t.field? name position).map fun x => x.read (depth + 1) shape) :
    w.member? name = v.field? name position := by
  have hheld := field?_of_read h name position
  cases hfield : t.field? name position with
  | none =>
    rw [hfield] at hheld hmember
    rw [Option.map_eq_none_iff.1 hmember, Option.map_eq_none_iff.1 hheld]
  | some x =>
    rw [hfield] at hheld hmember
    obtain ⟨u, hu, hread⟩ := Option.map_eq_some_iff.1 hheld
    obtain ⟨u', hu', hread'⟩ := Option.map_eq_some_iff.1 hmember
    have hkept := hread'.trans (hsifts x (depth + 1) u hread.symm)
    split at hkept
    · rw [hu, hu', hkept]
    · cases hkept

end Tree

end InlineCheck.Json
