import InlineCheck.Proofs.Json.Fields
import InlineCheck.Proofs.Json.Writing
import Mathlib.Data.List.Forall2

/-!
# Written values

A value that is written and then read comes back as it was, if its numbers are kept exactly, if
the members of its objects are in ascending order, and if it is not nested too deep.  An object
with its members in another order comes back with them in ascending order.

* `Value.All` says something of a value and of all values in it, and `Value.depth` says how deep
  they are nested.
* `Value.ReadsAs` says what becomes of a value that is written and then read.  There is one lemma
  for each form of a value; `readsAs_array` and `readsAs_object` put the parts together.
* `Value.Exact.readsAs` is about the values that come back as they were, and `read_pretty` about
  whole documents.
-/

namespace InlineCheck.Json

/-! ## Values and the values in them -/

namespace Value

mutual

/-- How many containers stand inside one another, the value itself among them. -/
def depth : Value → Nat
  | null => 0
  | bool _ => 0
  | number _ => 0
  | string _ => 0
  | array items => itemsDepth items + 1
  | object members => membersDepth members + 1

/-- The depth of the deepest item. -/
def itemsDepth : List Value → Nat
  | [] => 0
  | v :: rest => max v.depth (itemsDepth rest)

/-- The depth of the deepest member. -/
def membersDepth : List (String × Value) → Nat
  | [] => 0
  | (_, v) :: rest => max v.depth (membersDepth rest)

end

mutual

/-- The value has the property, and so have all values in it. -/
def All (P : Value → Prop) : Value → Prop
  | null => P null
  | bool b => P (bool b)
  | number n => P (number n)
  | string text => P (string text)
  | array items => P (array items) ∧ AllItems P items
  | object members => P (object members) ∧ AllMembers P members

/-- The same for items. -/
def AllItems (P : Value → Prop) : List Value → Prop
  | [] => True
  | v :: rest => v.All P ∧ AllItems P rest

/-- The same for members. -/
def AllMembers (P : Value → Prop) : List (String × Value) → Prop
  | [] => True
  | (_, v) :: rest => v.All P ∧ AllMembers P rest

end

/-- The members are in ascending order of their names, each name once. -/
def Ascending (members : List (String × Value)) : Prop :=
  members.Pairwise fun m m' => compare m.1 m'.1 = .lt

/-- A number of the value is kept exactly, and its members are in ascending order. -/
def IsExact : Value → Prop
  | number n => n.Exact
  | object members => Ascending members
  | _ => True

/-- The value comes back as it was, if it is not nested too deep. -/
def Exact (v : Value) : Prop := v.All IsExact

/-! ## Members in order -/

/-- The members with others put in, one after the other. -/
def insertMembers (found members : List (String × Value)) : List (String × Value) :=
  members.foldl (fun found m => insertMember m.1 m.2 found) found

variable {name name' : String} {v v' : Value} {found : List (String × Value)}

theorem insertMember_nil : insertMember name v [] = [(name, v)] := rfl

theorem insertMember_of_lt (h : compare name name' = .lt) :
    insertMember name v ((name', v') :: found) = (name, v) :: (name', v') :: found := by
  rw [insertMember, h]

theorem insertMember_of_gt (h : compare name name' = .gt) :
    insertMember name v ((name', v') :: found) = (name', v') :: insertMember name v found := by
  rw [insertMember, h]

theorem insertMember_eq_append (hlast : ∀ m ∈ found, compare m.1 name = .lt) :
    insertMember name v found = found ++ [(name, v)] := by
  induction found with
  | nil => rfl
  | cons m rest ih =>
    rw [insertMember_of_gt (Std.OrientedCmp.gt_of_lt (hlast m List.mem_cons_self))]
    exact congrArg (List.cons m) (ih fun m' hm' => hlast m' (List.mem_cons_of_mem m hm'))

/-- Members in ascending order stay as they are. -/
theorem insertMembers_eq_append {members : List (String × Value)}
    (h : Ascending (found ++ members)) : insertMembers found members = found ++ members := by
  induction members generalizing found with
  | nil => exact (List.append_nil found).symm
  | cons m rest ih =>
    have hlast : ∀ m' ∈ found, compare m'.1 m.1 = .lt := fun m' hm' =>
      (List.pairwise_append.1 h).2.2 m' hm' m List.mem_cons_self
    have hcons : found ++ m :: rest = (found ++ [m]) ++ rest := by simp
    rw [hcons] at h ⊢
    rw [← ih h, ← insertMember_eq_append hlast]
    rfl

/-! ## What becomes of a written value -/

/-- Inside so many containers, what is written for the first value is read as the second one, on
whatever level it is written. -/
def ReadsAs (depth : Nat) (v w : Value) : Prop :=
  ∀ level, ∃ t : Tree, t.text = v.prettyChars level ∧ t.read depth .any = some w

end Value

/-- No blank at all. -/
def Gap.none : Gap := ⟨[], nofun⟩

/-- A new line at an indentation level. -/
def Gap.newLine (level : Nat) : Gap where
  chars := Value.newLine level
  blank c hc := by
    rcases List.mem_cons.1 hc with rfl | hspace
    · rfl
    · rw [List.eq_of_mem_replicate hspace]
      rfl

namespace Value

variable {depth : Nat}

theorem readsAs_null : ReadsAs depth null null := fun _ =>
  ⟨.null, by rw [prettyChars, compactChars, Tree.text], rfl⟩

theorem readsAs_bool (b : Bool) : ReadsAs depth (bool b) (bool b) := fun _ =>
  ⟨.bool b, by cases b <;> rw [prettyChars, compactChars, Tree.text], rfl⟩

theorem readsAs_string (text : String) : ReadsAs depth (string text) (string text) := by
  intro level
  obtain ⟨x, hwrite, hread⟩ := Quote.exists_written text
  refine ⟨.string x, ?_, ?_⟩
  · rw [prettyChars, compactChars, hwrite, Tree.text]
  · show (x.read true).bind _ = _
    rw [hread]
    rfl

theorem readsAs_number {n : Number} (hn : n.Exact) : ReadsAs depth (number n) (number n) := by
  intro level
  obtain ⟨x, hwrite, hread⟩ := Numeral.exists_written hn
  refine ⟨.number x, ?_, ?_⟩
  · rw [prettyChars, compactChars, hwrite, Tree.text]
  · show (x.read true).bind _ = _
    rw [hread]
    rfl

/-- The items of an array are written one after the other, and each of them is read. -/
theorem exists_items {vs ws : List Value} (h : List.Forall₂ (ReadsAs depth) vs ws)
    (hsome : vs ≠ []) (level : Nat) (lead : List Char) :
    ∃ items : List (Padded Tree),
      Tree.itemsText lead items ++ [']'] = lead ++ prettyItems level vs ∧
        items.map (fun x => x.content.read depth .any) = ws.map some := by
  induction h generalizing lead with
  | nil => exact absurd rfl hsome
  | @cons v w vs ws hv hrest ih =>
    obtain ⟨t, htext, hread⟩ := hv (level + 1)
    cases hrest with
    | nil =>
      refine ⟨[⟨.newLine (level + 1), t, .newLine level⟩], ?_, by simp [hread]⟩
      simp [Tree.itemsText, prettyItems, Gap.newLine, htext]
    | @cons v' w' vs ws hv' hrest =>
      obtain ⟨items, hitems, hreads⟩ := ih (List.cons_ne_nil _ _) [',']
      refine ⟨⟨.newLine (level + 1), t, .none⟩ :: items, ?_, by simp [hread, hreads]⟩
      simp only [Tree.itemsText, prettyItems, Gap.newLine, Gap.none, htext, List.append_assoc,
        List.nil_append, hitems]
      rfl

theorem readsAs_array {vs ws : List Value} (hdepth : depth < maxDepth)
    (h : List.Forall₂ (ReadsAs (depth + 1)) vs ws) : ReadsAs depth (array vs) (array ws) := by
  intro level
  cases vs with
  | nil =>
    obtain rfl := List.forall₂_nil_left_iff.1 h
    refine ⟨.array .none [], ?_, (Tree.read_array_iff rfl rfl).2 ⟨hdepth, [], rfl, rfl⟩⟩
    rw [prettyChars, Tree.text, Tree.itemsText]
    rfl
  | cons v vs =>
    obtain ⟨items, hitems, hreads⟩ := exists_items h (List.cons_ne_nil _ _) level []
    refine ⟨.array .none items, ?_, (Tree.read_array_iff rfl rfl).2 ⟨hdepth, ws, hreads, rfl⟩⟩
    rw [prettyChars, Tree.text, hitems]
    rfl

/-- The members of an object are written one after the other, and each of them is put in. -/
theorem exists_members {ms ns : List (String × Value)}
    (h : List.Forall₂ (fun m n => m.1 = n.1 ∧ ReadsAs depth m.2 n.2) ms ns) (hsome : ms ≠ [])
    (level : Nat) (lead : List Char) :
    ∃ members : List Member,
      Tree.membersText lead members ++ ['\x7d'] = lead ++ prettyMembers level ms ∧
        ∀ found, Tree.readMembers depth (.object found) members =
          some (.object (insertMembers found ns)) := by
  induction h generalizing lead with
  | nil => exact absurd rfl hsome
  | @cons m n ms ns hm hrest ih =>
    obtain ⟨name, v⟩ := m
    obtain ⟨name', w⟩ := n
    obtain ⟨rfl, hv⟩ := hm
    obtain ⟨t, htext, hread⟩ := hv (level + 1)
    obtain ⟨x, hwrite, hname⟩ := Quote.exists_written name
    let space : Gap := ⟨[' '], by simp [isSpace]⟩
    let first (after : Gap) : Member :=
      (⟨.newLine (level + 1), x, .none⟩, ⟨space, t, after⟩)
    have hfirst : ∀ (after : Gap) (rest : List Member) (found : List (String × Value)),
        Tree.readMembers depth (.object found) (first after :: rest) =
          Tree.readMembers depth (.object (insertMember name w found)) rest := by
      intro after rest found
      rw [Tree.readMembers_object_cons]
      simp only [first, hname, hread, Option.bind_some]
    cases hrest with
    | nil =>
      refine ⟨[first (.newLine level)], ?_, fun found => hfirst _ _ _⟩
      simp [first, space, Tree.membersText, prettyMembers, Gap.newLine, Gap.none, htext, hwrite]
    | @cons m' n' ms ns hm' hrest =>
      obtain ⟨members, hmembers, hreads⟩ := ih (List.cons_ne_nil _ _) [',']
      refine ⟨first .none :: members, ?_, fun found => (hfirst _ _ _).trans (hreads _)⟩
      simp only [first, space, Tree.membersText, prettyMembers, Gap.newLine, Gap.none, htext,
        hwrite, List.append_assoc, List.cons_append, List.nil_append, hmembers]

theorem readsAs_object {ms ns : List (String × Value)} (hdepth : depth < maxDepth)
    (h : List.Forall₂ (fun m n => m.1 = n.1 ∧ ReadsAs (depth + 1) m.2 n.2) ms ns) :
    ReadsAs depth (object ms) (object (insertMembers [] ns)) := by
  intro level
  have hfits : Shape.any.fits depth = true := by simp [Shape.fits, hdepth]
  cases ms with
  | nil =>
    obtain rfl := List.forall₂_nil_left_iff.1 h
    refine ⟨.object .none [], ?_, if_pos hfits⟩
    rw [prettyChars, Tree.text, Tree.membersText]
    rfl
  | cons m ms =>
    obtain ⟨members, hmembers, hreads⟩ := exists_members h (List.cons_ne_nil _ _) level []
    refine ⟨.object .none members, ?_, (if_pos hfits).trans (hreads [])⟩
    rw [prettyChars, Tree.text, hmembers]
    rfl

mutual

/-- A value that is exact and not nested too deep comes back as it was. -/
theorem Exact.readsAs (v : Value) (depth : Nat) (hv : v.Exact)
    (hdepth : depth + v.depth ≤ maxDepth) : ReadsAs depth v v := by
  match v with
  | null => exact readsAs_null
  | bool b => exact readsAs_bool b
  | number n => exact readsAs_number hv
  | string text => exact readsAs_string text
  | array items =>
    have hsmaller : depth + 1 + itemsDepth items ≤ maxDepth := by
      rw [Value.depth] at hdepth
      omega
    exact readsAs_array (by omega) (Exact.readsAs_items items (depth + 1) hv.2 hsmaller)
  | object members =>
    have hsmaller : depth + 1 + membersDepth members ≤ maxDepth := by
      rw [Value.depth] at hdepth
      omega
    have hsame : insertMembers [] members = members := insertMembers_eq_append hv.1
    have hall := readsAs_object (by omega) (Exact.readsAs_members members (depth + 1) hv.2 hsmaller)
    rwa [hsame] at hall

theorem Exact.readsAs_items (items : List Value) (depth : Nat)
    (hitems : AllItems IsExact items) (hdepth : depth + itemsDepth items ≤ maxDepth) :
    List.Forall₂ (ReadsAs depth) items items := by
  match items with
  | [] => exact .nil
  | v :: rest =>
    rw [itemsDepth] at hdepth
    exact .cons (Exact.readsAs v depth hitems.1 (by omega))
      (Exact.readsAs_items rest depth hitems.2 (by omega))

theorem Exact.readsAs_members (members : List (String × Value)) (depth : Nat)
    (hmembers : AllMembers IsExact members) (hdepth : depth + membersDepth members ≤ maxDepth) :
    List.Forall₂ (fun m n => m.1 = n.1 ∧ ReadsAs depth m.2 n.2) members members := by
  match members with
  | [] => exact .nil
  | (_, v) :: rest =>
    rw [membersDepth] at hdepth
    exact .cons ⟨rfl, Exact.readsAs v depth hmembers.1 (by omega)⟩
      (Exact.readsAs_members rest depth hmembers.2 (by omega))

end

/-- A written document is read as what becomes of its value, also with blanks behind it. -/
theorem ReadsAs.read_pretty {v w : Value} (h : ReadsAs 0 v w) (after : Gap) :
    Value.read (v.pretty ++ String.ofList after.chars) = .ok w := by
  obtain ⟨t, htext, hread⟩ := h 0
  have hchars : (v.pretty ++ String.ofList after.chars).toList =
      Padded.text ⟨.none, t, after⟩ := by
    rw [String.toList_append, pretty, String.toList_ofList, String.toList_ofList, Padded.text,
      htext]
    rfl
  rw [Value.read, hchars, ← toOption_eq_some, toOption_read_text, hread]

end Value

end InlineCheck.Json
