import InlineCheck.Proofs.Json.Roundtrip

/-!
# What a reader keeps

A value that was read can be written and read again.  Its whole numbers are in the range of those
that are kept exactly, its members are in ascending order, and it is nested no deeper than the
reader goes.  Floating-point numbers are the only ones that need not come back as they were.

* `Numeral.exact_or_isFloat_of_read` is about the numbers that are kept.
* `Value.ascending_insertMember` is about the members that are kept.
* `Tree.sound_of_read` goes through all of a value, and `Value.Exact.of_sound` leaves out the
  floating-point numbers.
-/

namespace InlineCheck.Json

/-! ## Numbers -/

def Number.IsFloat : Number → Prop
  | .whole _ => False
  | .float _ => True

namespace Numeral

variable {kept : Bool} {n m : Numeral} {c : Char}

/-- The digits that all fit are those of a number below the limit. -/
def Fitting (n : Numeral) : Prop :=
  ∀ k, n.phase = .whole k → k < limit

theorem digit?_lt {d : Nat} (h : digit? c = some d) : d < limit := by
  rw [digit?] at h
  split at h
  · next hdigit =>
    have hle : c.toNat ≤ '9'.toNat := hdigit.2
    obtain rfl := Option.some.inj h
    exact Nat.lt_of_le_of_lt (Nat.sub_le _ _) (Nat.lt_of_le_of_lt hle (by decide))
  · cases h

theorem fitting_of_start? (h : start? c = some n) : n.Fitting := by
  rw [start?] at h
  intro k hk
  split at h
  · cases h
    cases hk
  · split at h
    · cases h
      cases hk
    · next hdigit =>
      cases h
      cases hk
      exact digit?_lt hdigit
    · cases h

theorem tail_ne_whole (point : Option Phase) (n : Nat) (e : Int) (c : Char) {k : Nat}
    (hpoint : point ≠ some (.whole k)) : tail point n e c ≠ some (.whole k) := by
  rw [tail]
  split
  · exact hpoint
  · split <;> simp

/-- Only digits that fit are gathered. -/
theorem Phase.lt_of_step {p : Phase} {k : Nat} (h : p.step kept c = .ok (some (.whole k))) :
    k < limit := by
  have htail : ∀ point n e, point ≠ some (.whole k) →
      (Except.ok (tail point n e c) : Except Refusal _) ≠ .ok (some (.whole k)) :=
    fun point n e hpoint heq => tail_ne_whole point n e c hpoint (Except.ok.inj heq)
  cases p with
  | sign =>
    simp only [Phase.step] at h
    split at h
    · cases h
    · next hdigit =>
      cases h
      exact digit?_lt hdigit
    · cases h
  | whole n =>
    simp only [Phase.step] at h
    split at h
    · split at h
      · next hfits =>
        cases h
        exact hfits
      · cases h
    · exact absurd h (htail _ _ _ (by simp))
  | zero | long | fraction | full =>
    simp only [Phase.step] at h
    repeat' split at h
    all_goals first
      | cases h
      | exact absurd h (htail _ _ _ (by simp))
  | point | mark | powerSign | power | vanished =>
    simp only [Phase.step] at h
    repeat' split at h
    all_goals cases h

theorem fitting_of_step (h : n.step kept c = .ok (some m)) : m.Fitting := by
  intro k hk
  rw [Numeral.step] at h
  cases hphase : n.phase.step kept c with
  | error refusal =>
    rw [hphase] at h
    cases h
  | ok next =>
    rw [hphase] at h
    cases next with
    | none => cases h
    | some p =>
      cases h
      obtain rfl : p = .whole k := hk
      exact Phase.lt_of_step hphase

theorem fitting_of_split? {text rest : List Char} (hn : n.Fitting)
    (h : n.split? kept text = some (m, rest)) : m.Fitting := by
  induction text generalizing n with
  | nil =>
    rw [split?] at h
    split at h
    · cases h
    · cases h
      exact hn
  | cons c text ih =>
    cases hstep : n.step kept c with
    | error refusal =>
      rw [split?_refused hstep] at h
      cases h
    | ok next =>
      cases next with
      | some n' =>
        rw [split?_more hstep] at h
        exact ih (fitting_of_step hstep) h
      | none =>
        rw [split?_ended hstep] at h
        cases h
        exact hn

theorem isFloat_of_float {significand : Nat} {e : Int} {x : Number}
    (h : n.float significand e = .ok x) : x.IsFloat := by
  rw [float] at h
  split at h
  · cases h
    trivial
  · cases h

/-- A whole number that is kept is kept exactly. -/
theorem Fitting.exact_or_isFloat (hn : n.Fitting) {x : Number} (h : n.value = .ok x) :
    x.Exact ∨ x.IsFloat := by
  have hinteger : ∀ k < limit, (integer n.negative k).Exact ∨ (integer n.negative k).IsFloat := by
    intro k hk
    rw [integer]
    split
    · split
      · next hfits =>
        refine .inl ⟨?_, ?_⟩
        · have hle : (k : Int) ≤ negativeLimit := Int.ofNat_le.2 hfits.2
          omega
        · have hpos : (0 : Int) < k := Int.ofNat_lt.2 hfits.1
          have hlimit : (0 : Int) < limit := by decide
          omega
      · exact .inr trivial
    · refine .inl ⟨?_, Int.ofNat_lt.2 hk⟩
      have hlimit : (0 : Int) < negativeLimit := by decide
      omega
  rcases n with ⟨negative, phase⟩
  cases phase with
  | zero =>
    cases h
    exact hinteger 0 (by decide)
  | whole d =>
    cases h
    exact hinteger d (hn d rfl)
  | long | fraction | full | power => exact .inr (isFloat_of_float h)
  | vanished =>
    cases h
    exact .inr trivial
  | sign | point | mark | powerSign => cases h

/-- A number that is kept is the value of all its characters. -/
theorem Lexeme.exists_value_of_read {y : Lexeme} {x : Number}
    (h : y.read true = some (.number x)) :
    ∃ m, y.begun.split? true y.chars = some (m, []) ∧ m.value = .ok x := by
  obtain ⟨⟨m, rest⟩, hsplit, hvalue⟩ := Option.bind_eq_some_iff.1 h
  obtain ⟨m', hend⟩ := y.split?_passed
  obtain ⟨rfl, rfl⟩ : m = m' ∧ rest = [] := by
    rw [Numeral.split?_passed hsplit] at hend
    exact Prod.mk.inj (Option.some.inj hend)
  refine ⟨m, hsplit, ?_⟩
  cases hm : m.value with
  | error cause => simp [hm, Except.map, Except.toOption] at hvalue
  | ok x' =>
    obtain rfl : x' = x := by simpa [hm, Except.map, Except.toOption] using hvalue
    rfl

theorem exact_or_isFloat_of_read {y : Lexeme} {x : Number} (h : y.read true = some (.number x)) :
    x.Exact ∨ x.IsFloat := by
  obtain ⟨m, hsplit, hvalue⟩ := Lexeme.exists_value_of_read h
  exact (fitting_of_split? (fitting_of_start? y.start_eq) hsplit).exact_or_isFloat hvalue

end Numeral

/-! ## Members -/

namespace Value

variable {P Q R : Value → Prop}

theorem allItems_iff {items : List Value} : AllItems P items ↔ ∀ v ∈ items, v.All P := by
  induction items with
  | nil => exact iff_of_true trivial nofun
  | cons v rest ih => rw [AllItems, ih, List.forall_mem_cons]

theorem allMembers_iff {members : List (String × Value)} :
    AllMembers P members ↔ ∀ m ∈ members, m.2.All P := by
  induction members with
  | nil => exact iff_of_true trivial nofun
  | cons m rest ih => rw [AllMembers, ih, List.forall_mem_cons]

theorem itemsDepth_le_iff {items : List Value} {k : Nat} :
    itemsDepth items ≤ k ↔ ∀ v ∈ items, v.depth ≤ k := by
  induction items with
  | nil => exact iff_of_true (Nat.zero_le k) nofun
  | cons v rest ih => rw [itemsDepth, Nat.max_le, ih, List.forall_mem_cons]

theorem membersDepth_le_iff {members : List (String × Value)} {k : Nat} :
    membersDepth members ≤ k ↔ ∀ m ∈ members, m.2.depth ≤ k := by
  induction members with
  | nil => exact iff_of_true (Nat.zero_le k) nofun
  | cons m rest ih => rw [membersDepth, Nat.max_le, ih, List.forall_mem_cons]

theorem mem_insertMember {name : String} {v : Value} {found : List (String × Value)}
    {m : String × Value} (hm : m ∈ insertMember name v found) : m = (name, v) ∨ m ∈ found := by
  induction found with
  | nil => exact .inl (List.mem_singleton.1 hm)
  | cons other rest ih =>
    rw [insertMember] at hm
    split at hm
    · exact List.mem_cons.1 hm
    · exact (List.mem_cons.1 hm).imp_right (List.mem_cons_of_mem _)
    · rcases List.mem_cons.1 hm with rfl | hm
      · exact .inr List.mem_cons_self
      · exact (ih hm).imp_right (List.mem_cons_of_mem _)

/-- A member is put in where it belongs. -/
theorem ascending_insertMember (name : String) (v : Value) {found : List (String × Value)}
    (h : Ascending found) : Ascending (insertMember name v found) := by
  induction found with
  | nil => exact List.pairwise_singleton _ _
  | cons other rest ih =>
    obtain ⟨hfirst, hrest⟩ := List.pairwise_cons.1 h
    rw [insertMember]
    split
    · next hlt =>
      refine List.pairwise_cons.2 ⟨fun m hm => ?_, h⟩
      rcases List.mem_cons.1 hm with rfl | hm
      · exact hlt
      · exact Std.TransCmp.lt_trans hlt (hfirst m hm)
    · next heq =>
      obtain rfl : name = other.1 := by simpa using heq
      exact List.pairwise_cons.2 ⟨hfirst, hrest⟩
    · next hgt =>
      refine List.pairwise_cons.2 ⟨fun m hm => ?_, ih hrest⟩
      rcases mem_insertMember hm with rfl | hm
      · exact Std.OrientedCmp.lt_of_gt hgt
      · exact hfirst m hm

/-! ## Whole values -/

mutual

theorem All.imp₂ (h : ∀ v, P v → Q v → R v) (v : Value) (hp : v.All P) (hq : v.All Q) :
    v.All R := by
  match v with
  | null | bool _ | number _ | string _ => exact h _ hp hq
  | array items => exact ⟨h _ hp.1 hq.1, AllItems.imp₂ h items hp.2 hq.2⟩
  | object members => exact ⟨h _ hp.1 hq.1, AllMembers.imp₂ h members hp.2 hq.2⟩

theorem AllItems.imp₂ (h : ∀ v, P v → Q v → R v) (items : List Value) (hp : AllItems P items)
    (hq : AllItems Q items) : AllItems R items := by
  match items with
  | [] => trivial
  | v :: rest => exact ⟨All.imp₂ h v hp.1 hq.1, AllItems.imp₂ h rest hp.2 hq.2⟩

theorem AllMembers.imp₂ (h : ∀ v, P v → Q v → R v) (members : List (String × Value))
    (hp : AllMembers P members) (hq : AllMembers Q members) : AllMembers R members := by
  match members with
  | [] => trivial
  | (_, v) :: rest => exact ⟨All.imp₂ h v hp.1 hq.1, AllMembers.imp₂ h rest hp.2 hq.2⟩

end

def IsFloat : Value → Prop
  | number n => n.IsFloat
  | _ => False

/-- No number in the value is a floating-point number. -/
def FloatFree (v : Value) : Prop := v.All fun v => ¬ v.IsFloat

/-- A number of the value is kept exactly or floating-point, and its members are in ascending
order. -/
def IsKept : Value → Prop
  | number n => n.Exact ∨ n.IsFloat
  | object members => Ascending members
  | _ => True

/-- The value may have been read inside so many containers. -/
structure Sound (depth : Nat) (v : Value) : Prop where
  kept : v.All IsKept
  depth_le : depth + v.depth ≤ maxDepth

/-- What was read is exact if it holds no floating-point number. -/
theorem Sound.exact {depth : Nat} {v : Value} (hv : v.Sound depth) (hfree : v.FloatFree) :
    v.Exact := by
  refine All.imp₂ (fun w hkept hfloat => ?_) v hv.kept hfree
  cases w with
  | number n => exact hkept.resolve_right hfloat
  | object members => exact hkept
  | null | bool | string | array => trivial

end Value

namespace Tree

open Value (Sound Ascending)

mutual

/-- A value that was read is sound. -/
theorem sound_of_read (t : Tree) (depth : Nat) (hdepth : depth ≤ maxDepth) (v : Value)
    (h : t.read depth .any = some v) : v.Sound depth := by
  match t with
  | null =>
    cases h
    exact ⟨trivial, hdepth⟩
  | bool b =>
    cases h
    exact ⟨trivial, hdepth⟩
  | number x =>
    obtain ⟨n, hread, rfl⟩ := exists_of_read_number h
    exact ⟨Numeral.exact_or_isFloat_of_read hread, hdepth⟩
  | string x =>
    obtain ⟨text, _, rfl⟩ := exists_of_read_string h
    exact ⟨trivial, hdepth⟩
  | array gap items =>
    obtain ⟨hlt, vs, hvs, rfl⟩ := (read_array_iff rfl rfl).1 h
    have hall := sound_of_readItems items (depth + 1) hlt vs hvs
    refine ⟨⟨trivial, Value.allItems_iff.2 fun v hv => (hall v hv).kept⟩, ?_⟩
    have hle : Value.itemsDepth vs ≤ maxDepth - (depth + 1) :=
      Value.itemsDepth_le_iff.2 fun v hv => by
        have := (hall v hv).depth_le
        omega
    rw [Value.depth]
    omega
  | object gap members =>
    rw [read] at h
    split at h
    · next hfits =>
      have hlt : depth < maxDepth := by simpa [Shape.fits, Shape.keeps] using hfits
      obtain ⟨kept, rfl, hascending, hall⟩ :=
        sound_of_readMembers members (depth + 1) hlt [] .nil nofun v h
      refine ⟨⟨hascending, Value.allMembers_iff.2 fun m hm => (hall m hm).kept⟩, ?_⟩
      have hle : Value.membersDepth kept ≤ maxDepth - (depth + 1) :=
        Value.membersDepth_le_iff.2 fun m hm => by
          have := (hall m hm).depth_le
          omega
      rw [Value.depth]
      omega
    · cases h

theorem sound_of_readItems (items : List (Padded Tree)) (depth : Nat) (hdepth : depth ≤ maxDepth)
    (vs : List Value) (h : items.map (fun x => x.content.read depth .any) = vs.map some) :
    ∀ v ∈ vs, v.Sound depth := by
  match items, vs with
  | [], [] => exact nofun
  | ⟨_, t, _⟩ :: items, v :: vs =>
    obtain ⟨hread, hreads⟩ := List.cons.inj h
    exact List.forall_mem_cons.2
      ⟨sound_of_read t depth hdepth v hread, sound_of_readItems items depth hdepth vs hreads⟩

theorem sound_of_readMembers (members : List Member) (depth : Nat) (hdepth : depth ≤ maxDepth)
    (found : List (String × Value)) (hascending : Ascending found)
    (hfound : ∀ m ∈ found, m.2.Sound depth) (v : Value)
    (h : readMembers depth (.object found) members = some v) :
    ∃ kept, v = .object kept ∧ Ascending kept ∧ ∀ m ∈ kept, m.2.Sound depth := by
  match members with
  | [] =>
    cases h
    exact ⟨found, rfl, hascending, hfound⟩
  | (⟨before, name, after⟩, ⟨before', t, after'⟩) :: rest =>
    rw [readMembers_object_cons] at h
    obtain ⟨first, _, h⟩ := Option.bind_eq_some_iff.1 h
    obtain ⟨u, hu, h⟩ := Option.bind_eq_some_iff.1 h
    have hsound := sound_of_read t depth hdepth u hu
    refine sound_of_readMembers rest depth hdepth _
      (Value.ascending_insertMember first u hascending) (fun m hm => ?_) v h
    rcases Value.mem_insertMember hm with rfl | hm
    · exact hsound
    · exact hfound m hm

end

end Tree
end InlineCheck.Json
