import InlineCheck.Proofs.Json.Document

/-!
# Fields of trees and values

A record may be written as an object or as an array of its fields, and an object may hold other
members too, in any order and with any name twice.  `Tree.field?` finds a field in either form.
`Value.field?` does the same in a value that was read without any shape, where the last member
of a name has replaced the others.

* `read_passed` says that every tree can be passed over.
* `read_eq_of_alike` says that gaps and spellings make no difference, whatever the shape.
* `field?_of_read` ties the fields of a tree to those of the value that was read.
-/

namespace InlineCheck.Json

/-- The field of a record that is written as an object, or as an array with the field in the
given position. -/
def Value.field? (v : Value) (name : String) (position : Nat) : Option Value :=
  match v with
  | .array items => items[position]?
  | v => v.member? name

namespace Tree

/-- The values of the members of the name. -/
def named (name : String) (members : List Member) : List Tree :=
  members.filterMap fun m =>
    if m.1.content.read true = some name then some m.2.content else none

/-- The field of a record that is written as an object, or as an array with the field in the
given position.  Of several members of the name the last one counts. -/
def field? (t : Tree) (name : String) (position : Nat) : Option Tree :=
  match t with
  | array _ items => items[position]?.map (·.content)
  | object _ members => (named name members).getLast?
  | _ => none

/-- The object has several members of the name. -/
def Repeats (t : Tree) (name : String) : Prop :=
  ∃ gap members, t = object gap members ∧ 1 < (named name members).length

theorem named_cons_of_eq {name : String} {m : Member}
    (h : m.1.content.read true = some name) (members : List Member) :
    named name (m :: members) = m.2.content :: named name members := by
  simp [named, h]

theorem named_cons_of_ne {name : String} {m : Member}
    (h : m.1.content.read true ≠ some name) (members : List Member) :
    named name (m :: members) = named name members := by
  simp [named, h]

/-! ## Values that are passed over -/

mutual

/-- Every value can be passed over. -/
theorem read_passed (t : Tree) (depth : Nat) : t.read depth .passed = some .null := by
  match t with
  | null | bool _ | number _ => rfl
  | string x =>
    obtain ⟨s, hs⟩ := x.split?_passed
    simp [read, Quote.Lexeme.read, Shape.keeps, hs, Shape.scalar, Except.toOption]
  | array _ items =>
    rw [read]
    exact readItems_passed items (depth + 1)
  | object _ members =>
    rw [read]
    exact readMembers_passed members (depth + 1)

theorem readItems_passed (items : List (Padded Tree)) (depth : Nat) :
    readItems depth .passed items = some .null := by
  match items with
  | [] => rfl
  | ⟨_, item, _⟩ :: rest =>
    rw [readItems, show Row.passed.next? = some .passed from rfl, Option.bind_some,
      read_passed item depth]
    exact readItems_passed rest depth

theorem readMembers_passed (members : List Member) (depth : Nat) :
    readMembers depth .passed members = some .null := by
  match members with
  | [] => rfl
  | (⟨_, name, _⟩, ⟨_, value, _⟩) :: rest =>
    obtain ⟨s, hs⟩ := name.split?_passed
    rw [readMembers, show name.read Block.passed.keeps = some s by
      simp [Quote.Lexeme.read, Block.keeps, hs]]
    rw [Option.bind_some, show Block.passed.shape s = .passed from rfl, read_passed value depth]
    exact readMembers_passed rest depth

end

/-! ## Spelling -/

mutual

/-- The two values are written alike but for their gaps, and for the spelling of numbers and
strings that are read alike. -/
def Alike : Tree → Tree → Prop
  | null, null => True
  | bool a, bool b => a = b
  | number x, number y => x.read true = y.read true
  | string x, string y => x.read true = y.read true
  | array _ xs, array _ ys => ItemsAlike xs ys
  | object _ xs, object _ ys => MembersAlike xs ys
  | _, _ => False

/-- The same for items. -/
def ItemsAlike : List (Padded Tree) → List (Padded Tree) → Prop
  | [], [] => True
  | ⟨_, x, _⟩ :: xs, ⟨_, y, _⟩ :: ys => x.Alike y ∧ ItemsAlike xs ys
  | _, _ => False

/-- The same for members. -/
def MembersAlike : List Member → List Member → Prop
  | [], [] => True
  | (⟨_, name, _⟩, ⟨_, x, _⟩) :: xs, (⟨_, name', _⟩, ⟨_, y, _⟩) :: ys =>
    name.read true = name'.read true ∧ x.Alike y ∧ MembersAlike xs ys
  | _, _ => False

end

mutual

/-- Gaps and spellings make no difference for what is read. -/
theorem read_eq_of_alike (t u : Tree) (h : t.Alike u) (depth : Nat) (shape : Shape) :
    t.read depth shape = u.read depth shape := by
  by_cases hkeeps : shape.keeps = true
  · match t, u with
    | null, null => rfl
    | bool a, bool b => rw [show a = b from h]
    | number x, number y => rw [read, read, hkeeps, show x.read true = y.read true from h]
    | string x, string y => rw [read, read, hkeeps, show x.read true = y.read true from h]
    | array _ xs, array _ ys =>
      rw [read, read]
      cases shape.row? with
      | none => rfl
      | some row => rw [Option.bind_some, Option.bind_some, readItems_eq_of_alike xs ys h]
    | object _ xs, object _ ys =>
      rw [read, read]
      cases shape.block? with
      | none => rfl
      | some block => rw [Option.bind_some, Option.bind_some, readMembers_eq_of_alike xs ys h]
  · obtain rfl : shape = .passed := by cases shape <;> first | rfl | exact absurd rfl hkeeps
    rw [read_passed, read_passed]

theorem readItems_eq_of_alike (xs ys : List (Padded Tree)) (h : ItemsAlike xs ys) (depth : Nat)
    (row : Row) : readItems depth row xs = readItems depth row ys := by
  match xs, ys with
  | [], [] => rfl
  | ⟨_, x, _⟩ :: xs, ⟨_, y, _⟩ :: ys =>
    rw [readItems, readItems]
    refine Option.bind_congr fun shape _ => ?_
    rw [read_eq_of_alike x y h.1]
    exact Option.bind_congr fun v _ => readItems_eq_of_alike xs ys h.2 depth _

theorem readMembers_eq_of_alike (xs ys : List Member) (h : MembersAlike xs ys) (depth : Nat)
    (block : Block) :
    readMembers depth block xs = readMembers depth block ys := by
  by_cases hkeeps : block.keeps = true
  · match xs, ys with
    | [], [] => rfl
    | (⟨_, name, _⟩, ⟨_, x, _⟩) :: xs, (⟨_, name', _⟩, ⟨_, y, _⟩) :: ys =>
      rw [readMembers, readMembers, hkeeps, h.1]
      refine Option.bind_congr fun name _ => ?_
      rw [read_eq_of_alike x y h.2.1]
      split
      · rfl
      · exact Option.bind_congr fun v _ => readMembers_eq_of_alike xs ys h.2.2 depth _
  · obtain rfl : block = .passed := by cases block <;> first | rfl | exact absurd rfl hkeeps
    rw [readMembers_passed, readMembers_passed]

end

end Tree

/-! ## Objects and arrays that are kept whole -/

theorem lookup_cons_eq (first name : String) (v : Value) (rest : List (String × Value)) :
    ((first, v) :: rest).lookup name = if first = name then some v else rest.lookup name := by
  by_cases h : first = name
  · simp [h]
  · have hbeq : (name == first) = false := by simpa using Ne.symm h
    simp [List.lookup_cons, hbeq, h]

theorem lookup_insertMember (first name : String) (v : Value) (members : List (String × Value)) :
    (Value.insertMember first v members).lookup name =
      if first = name then some v else members.lookup name := by
  induction members with
  | nil => exact lookup_cons_eq first name v []
  | cons m rest ih =>
    obtain ⟨other, u⟩ := m
    rw [Value.insertMember]
    split
    · exact lookup_cons_eq first name v _
    · next heq =>
      obtain rfl : first = other := by simpa using heq
      simp only [lookup_cons_eq]
      split <;> rfl
    · next hgt =>
      have hne : other ≠ first := by
        rintro rfl
        simp at hgt
      rw [lookup_cons_eq, lookup_cons_eq, ih]
      by_cases hother : other = name
      · simp [hother, show first ≠ name from fun h => hne (hother.trans h.symm)]
      · simp [hother]

namespace Tree

variable {depth : Nat} {v w : Value} {t : Tree}

theorem readItems_list_cons (item : Shape) (found : List Value) (x : Padded Tree)
    (rest : List (Padded Tree)) :
    readItems depth (.list item found) (x :: rest) =
      (x.content.read depth item).bind fun v => readItems depth (.list item (v :: found)) rest :=
  rfl

theorem readMembers_object_cons (found : List (String × Value)) (m : Member)
    (rest : List Member) :
    readMembers depth (.object found) (m :: rest) =
      (m.1.content.read true).bind fun name => (m.2.content.read depth .any).bind fun v =>
        readMembers depth (.object (Value.insertMember name v found)) rest :=
  rfl

theorem readItems_list_iff {item : Shape} {items : List (Padded Tree)} {found : List Value} :
    readItems depth (.list item found) items = some w ↔
      ∃ vs, items.map (fun x => x.content.read depth item) = vs.map some ∧
        w = .array (found.reverse ++ vs) := by
  induction items generalizing found with
  | nil =>
    have hclose : readItems depth (.list item found) [] = some (.array found.reverse) := rfl
    rw [hclose]
    constructor
    · rintro ⟨⟩
      exact ⟨[], rfl, by simp⟩
    · rintro ⟨vs, hvs, rfl⟩
      obtain rfl : vs = [] := by simpa using hvs.symm
      simp
  | cons x rest ih =>
    rw [readItems_list_cons, Option.bind_eq_some_iff]
    constructor
    · rintro ⟨v, hv, hrest⟩
      obtain ⟨vs, hvs, rfl⟩ := ih.1 hrest
      exact ⟨v :: vs, by simp [hv, hvs], by simp⟩
    · rintro ⟨vs, hvs, rfl⟩
      rcases vs with _ | ⟨v, vs⟩
      · simp at hvs
      · obtain ⟨hv, hvs⟩ := List.cons.inj hvs
        exact ⟨v, hv, ih.2 ⟨vs, hvs, by simp⟩⟩

/-- In an object that is kept, the last value of a repeated name wins. -/
theorem lookup_of_readMembers {members : List Member} {found : List (String × Value)}
    (h : readMembers depth (.object found) members = some v) :
    ∃ kept, v = .object kept ∧ ∀ name, (kept.lookup name).map some =
      ((named name members).getLast?.map fun x => x.read depth .any).or
        ((found.lookup name).map some) := by
  induction members generalizing found with
  | nil =>
    have hclose : readMembers depth (.object found) [] = some (.object found) := rfl
    rw [hclose] at h
    cases h
    exact ⟨found, rfl, fun name => rfl⟩
  | cons m rest ih =>
    rw [readMembers_object_cons] at h
    obtain ⟨first, hfirst, h⟩ := Option.bind_eq_some_iff.1 h
    obtain ⟨u, hu, h⟩ := Option.bind_eq_some_iff.1 h
    obtain ⟨kept, rfl, hkept⟩ := ih h
    refine ⟨kept, rfl, fun name => ?_⟩
    rw [hkept, lookup_insertMember]
    by_cases hname : first = name
    · subst hname
      rw [named_cons_of_eq hfirst, List.getLast?_cons, if_pos rfl]
      cases (named first rest).getLast? with
      | none => simp [hu]
      | some y => rfl
    · rw [named_cons_of_ne (by simpa [hfirst] using hname), if_neg hname]

theorem isSome_name_of_readMembers {members : List Member} {found : List (String × Value)}
    (h : readMembers depth (.object found) members = some v) :
    ∀ m ∈ members, (m.1.content.read true).isSome := by
  induction members generalizing found with
  | nil => simp
  | cons m rest ih =>
    rw [readMembers_object_cons] at h
    obtain ⟨first, hfirst, h⟩ := Option.bind_eq_some_iff.1 h
    obtain ⟨u, _, h⟩ := Option.bind_eq_some_iff.1 h
    exact List.forall_mem_cons.2 ⟨by simp [hfirst], ih h⟩

theorem read_array_iff {shape item : Shape} (hrow : shape.row? = some (.list item []))
    (hkeeps : shape.keeps = true) {gap : Gap} {items : List (Padded Tree)} :
    (array gap items).read depth shape = some w ↔
      depth < maxDepth ∧ ∃ vs, items.map (fun x => x.content.read (depth + 1) item) = vs.map some ∧
        w = .array vs := by
  rw [read, hrow, Option.bind_some]
  by_cases hdepth : depth < maxDepth <;> simp [Shape.fits, hkeeps, hdepth, readItems_list_iff]

/-- What is kept of a number is a number. -/
theorem exists_of_read_number {x : Numeral.Lexeme} (h : (number x).read depth .any = some v) :
    ∃ n, x.read true = some (.number n) ∧ v = .number n := by
  obtain ⟨u, hu, hv⟩ := Option.bind_eq_some_iff.1 h
  obtain rfl : u = v := by simpa [Shape.scalar, Except.toOption] using hv
  obtain ⟨y, _, hy⟩ := Option.bind_eq_some_iff.1 hu
  cases hvalue : y.1.value with
  | error cause => simp [hvalue, Except.map, Except.toOption] at hy
  | ok n =>
    obtain rfl : Value.number n = u := by simpa [hvalue, Except.map, Except.toOption] using hy
    exact ⟨n, hu, rfl⟩

theorem exists_of_read_string {x : Quote.Lexeme} (h : (string x).read depth .any = some v) :
    ∃ s, x.read true = some s ∧ v = .string s := by
  obtain ⟨s, hs, hv⟩ := Option.bind_eq_some_iff.1 h
  exact ⟨s, hs, by simpa [Shape.scalar, Except.toOption, eq_comm] using hv⟩

theorem exists_of_read_object {gap : Gap} {members : List Member}
    (h : (object gap members).read depth .any = some v) :
    depth < maxDepth ∧ (∀ m ∈ members, (m.1.content.read true).isSome) ∧
      ∃ kept, v = .object kept ∧ ∀ name, (kept.lookup name).map some =
        (named name members).getLast?.map fun x => x.read (depth + 1) .any := by
  rw [read] at h
  split at h
  · next hfits =>
    obtain ⟨kept, rfl, hkept⟩ := lookup_of_readMembers h
    exact ⟨by simpa [Shape.fits, Shape.keeps] using hfits, isSome_name_of_readMembers h, kept, rfl,
      by simpa using hkept⟩
  · cases h

/-- A value that can be read at all holds the fields of its tree. -/
theorem field?_of_read (h : t.read depth .any = some v) (name : String) (position : Nat) :
    (v.field? name position).map some =
      (t.field? name position).map fun x => x.read (depth + 1) .any := by
  cases t with
  | null =>
    cases h
    rfl
  | bool b =>
    cases h
    rfl
  | number x =>
    obtain ⟨n, _, rfl⟩ := exists_of_read_number h
    rfl
  | string x =>
    obtain ⟨s, _, rfl⟩ := exists_of_read_string h
    rfl
  | array gap items =>
    obtain ⟨_, vs, hvs, rfl⟩ := (read_array_iff rfl rfl).1 h
    have hat : (vs.map some)[position]? =
        (items.map fun x => x.content.read (depth + 1) .any)[position]? := by rw [hvs]
    simpa [Value.field?, field?, Option.map_map, Function.comp_def] using hat
  | object gap members =>
    obtain ⟨_, _, kept, rfl, hkept⟩ := exists_of_read_object h
    exact hkept name

end Tree

end InlineCheck.Json
