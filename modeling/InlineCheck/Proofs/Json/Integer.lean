import InlineCheck.Proofs.Json.Readable

/-!
# Plain integers

A number that is written with digits only is kept exactly as long as it is below the limit of the
significand, and every other number becomes floating-point or negative.

The reader only knows the digits that it has gathered.  `Phase.Spells` says what it knows of all the
characters read so far, as long as there is no minus sign: the number that they spell, or that it is
too great, or that there are other characters than digits.  `Spells.step` is the one place where the
phases are gone through, `Spells.split?` goes on to the end of the number, and `Lexeme.whole_iff` is
about the number that is kept.
-/

namespace InlineCheck.Json.Numeral

/-- There are only decimal digits. -/
def Plain (cs : List Char) : Prop :=
  ∀ c ∈ cs, c.isDigit = true

instance (cs : List Char) : Decidable (Plain cs) :=
  decidable_of_iff (cs.all Char.isDigit = true) List.all_eq_true

/-- The number that digits spell. -/
def worth (cs : List Char) : Nat :=
  Nat.ofDigitChars 10 cs 0

variable {cs text : List Char} {c : Char} {d : Nat}

theorem plain_concat : Plain (cs ++ [c]) ↔ Plain cs ∧ c.isDigit = true := by
  simp [Plain, or_imp, forall_and]

theorem worth_concat (cs : List Char) (c : Char) :
    worth (cs ++ [c]) = worth cs * 10 + (c.toNat - '0'.toNat) := by
  rw [worth, worth, Nat.ofDigitChars_append, Nat.ofDigitChars_cons, Nat.ofDigitChars_nil,
    Nat.mul_comm]

theorem digit?_eq_some_iff : digit? c = some d ↔ c.isDigit = true ∧ c.toNat - '0'.toNat = d := by
  have hdigit : ('0' ≤ c ∧ c ≤ '9') ↔ c.isDigit = true := by
    simp [Char.isDigit, Char.le_def]
  rw [digit?]
  split
  · next h => simp [hdigit.1 h]
  · next h => simp [mt hdigit.2 h]

theorem digit?_eq_none_iff : digit? c = none ↔ ¬ c.isDigit = true := by
  simp [Option.eq_none_iff_forall_ne_some, digit?_eq_some_iff]

namespace Phase

/-- What the characters of a number without a minus sign spell in a phase. -/
def Spells (cs : List Char) : Phase → Prop
  | sign => False
  | zero => Plain cs ∧ worth cs = 0
  | whole n => Plain cs ∧ worth cs = n ∧ n < limit
  | long _ _ => Plain cs ∧ limit ≤ worth cs
  | _ => ¬ Plain cs

/-- Behind a point or an exponent. -/
def IsBroken : Phase → Prop
  | sign | zero | whole _ | long _ _ => False
  | _ => True

theorem IsBroken.spells {p : Phase} (h : p.IsBroken) (hcs : ¬ Plain cs) : p.Spells cs := by
  cases p <;> first | exact hcs | exact h.elim

theorem isBroken_of_tail {point : Option Phase} {n : Nat} {e : Int} {next : Phase}
    (hpoint : ∀ p ∈ point, p.IsBroken) (h : tail point n e c = some next) : next.IsBroken := by
  rw [tail] at h
  split at h
  · exact hpoint next h
  · split at h
    · cases h
      trivial
    · cases h

/-- A number never gets back in front of its point or exponent. -/
theorem IsBroken.step {p next : Phase} {kept : Bool} (hp : p.IsBroken)
    (h : p.step kept c = .ok (some next)) : next.IsBroken := by
  have htail : ∀ n e, (Except.ok (tail none n e c) : Except Refusal _) = .ok (some next) →
      next.IsBroken := fun n e h => isBroken_of_tail (by simp) (Except.ok.inj h)
  cases p with
  | sign | zero | whole | long => exact hp.elim
  | fraction n e | full n e =>
    simp only [Phase.step] at h
    repeat' split at h
    all_goals first
      | exact htail n e h
      | cases h; trivial
  | point | mark | powerSign | power | vanished =>
    simp only [Phase.step] at h
    repeat' split at h
    all_goals cases h
    all_goals trivial

theorem not_plain_concat (hc : ¬ c.isDigit = true) : ¬ Plain (cs ++ [c]) :=
  fun hplain => hc (plain_concat.1 hplain).2

/-- Behind digits, what is no digit begins a fraction or an exponent. -/
theorem spells_of_tail {point : Option Phase} {n : Nat} {e : Int} {next : Phase}
    (hpoint : ∀ p ∈ point, p.IsBroken) (hdigit : digit? c = none)
    (h : (Except.ok (tail point n e c) : Except Refusal _) = .ok (some next)) :
    next.Spells (cs ++ [c]) :=
  (isBroken_of_tail hpoint (Except.ok.inj h)).spells
    (not_plain_concat (digit?_eq_none_iff.1 hdigit))

theorem Spells.step {p next : Phase} {kept : Bool} (hp : p.Spells cs)
    (h : p.step kept c = .ok (some next)) : next.Spells (cs ++ [c]) := by
  have hmore : ∀ d, digit? c = some d → Plain cs →
      Plain (cs ++ [c]) ∧ worth (cs ++ [c]) = worth cs * 10 + d := by
    intro d hd hplain
    obtain ⟨hdigit, hvalue⟩ := digit?_eq_some_iff.1 hd
    exact ⟨plain_concat.2 ⟨hplain, hdigit⟩, by rw [worth_concat, hvalue]⟩
  cases p with
  | sign => exact hp.elim
  | zero =>
    simp only [Phase.step] at h
    split at h
    · cases h
    · next hdigit => exact spells_of_tail (by simp [IsBroken]) hdigit h
  | whole n =>
    obtain ⟨hplain, hworth, _⟩ := hp
    simp only [Phase.step] at h
    split at h
    · next d hdigit =>
      obtain ⟨hplain', hworth'⟩ := hmore d hdigit hplain
      rw [hworth] at hworth'
      split at h
      · next hfits =>
        cases h
        exact ⟨hplain', hworth', hfits⟩
      · next hfits =>
        cases h
        exact ⟨hplain', by rw [hworth']; exact Nat.le_of_not_lt hfits⟩
    · next hdigit => exact spells_of_tail (by simp [IsBroken]) hdigit h
  | long n e =>
    obtain ⟨hplain, hworth⟩ := hp
    simp only [Phase.step] at h
    split at h
    · next d hdigit =>
      obtain ⟨hplain', hworth'⟩ := hmore d hdigit hplain
      cases h
      exact ⟨hplain', by omega⟩
    · next hdigit => exact spells_of_tail (by simp [IsBroken]) hdigit h
  | point | fraction | full | mark | powerSign | power | vanished =>
    refine (IsBroken.step ?_ h).spells fun hplain => hp (plain_concat.1 hplain).1
    trivial

end Phase

/-- What the characters of a number spell; a minus sign is no digit. -/
def Spells (n : Numeral) (cs : List Char) : Prop :=
  if n.negative then ¬ Plain cs else n.phase.Spells cs

variable {n m : Numeral} {kept : Bool}

theorem spells_of_start? (h : start? c = some n) : n.Spells [c] := by
  have hone : ∀ d, digit? c = some d → Plain [c] ∧ worth [c] = d := by
    intro d hd
    obtain ⟨hdigit, hvalue⟩ := digit?_eq_some_iff.1 hd
    exact ⟨by simpa [Plain] using hdigit, by simpa [worth, Nat.ofDigitChars_cons] using hvalue⟩
  rw [start?] at h
  split at h
  · next hminus =>
    cases h
    simp [Spells, Plain, hminus]
  · split at h
    · next hdigit =>
      cases h
      exact hone 0 hdigit
    · next d _ hdigit =>
      cases h
      obtain ⟨hplain, hworth⟩ := hone d hdigit
      exact ⟨hplain, hworth, digit?_lt hdigit⟩
    · cases h

theorem Spells.step (hn : n.Spells cs) (h : n.step kept c = .ok (some m)) :
    m.Spells (cs ++ [c]) := by
  rw [Numeral.step] at h
  cases hphase : n.phase.step kept c with
  | error refusal =>
    rw [hphase] at h
    cases h
  | ok next =>
    rw [hphase] at h
    cases next with
    | none => cases h
    | some p =>
      cases h
      rw [Spells] at hn ⊢
      split at hn
      · next hnegative =>
        rw [if_pos hnegative]
        exact fun hplain => hn (plain_concat.1 hplain).1
      · next hnegative =>
        rw [if_neg hnegative]
        exact hn.step hphase

theorem Spells.split? (hn : n.Spells cs) (h : n.split? kept text = some (m, [])) :
    m.Spells (cs ++ text) := by
  induction text generalizing n cs with
  | nil =>
    rw [Numeral.split?] at h
    split at h
    · cases h
    · cases h
      rwa [List.append_nil]
  | cons c text ih =>
    cases hstep : n.step kept c with
    | error refusal =>
      rw [split?_refused hstep] at h
      cases h
    | ok next =>
      cases next with
      | some n' =>
        rw [split?_more hstep] at h
        rw [List.append_cons]
        exact ih (hn.step hstep) h
      | none =>
        rw [split?_ended hstep] at h
        cases h

theorem ne_whole_of_isFloat {x : Number} (h : x.IsFloat) (k : Int) : x ≠ .whole k := by
  rintro rfl
  exact h

/-- A number with a minus sign is never whole and not negative, not even if it is zero. -/
theorem integer_true_ne (n k : Nat) : integer true n ≠ .whole k := by
  rw [integer, if_pos rfl]
  split
  · next hfits =>
    intro heq
    have hvalue : -(n : Int) = k := Number.whole.inj heq
    omega
  · simp

theorem Phase.Spells.value_eq_iff {p : Phase} (hp : p.Spells cs) {x : Number}
    (h : (Numeral.mk false p).value = .ok x) (k : Nat) :
    x = .whole k ↔ Plain cs ∧ worth cs = k ∧ k < limit := by
  have hwhole : ∀ n : Nat, (Number.whole n = .whole k) ↔ n = k := fun n => by
    rw [Number.whole.injEq, Int.natCast_inj]
  cases p with
  | sign => exact hp.elim
  | zero =>
    obtain ⟨hplain, hworth⟩ := hp
    cases h
    have hlimit : 0 < limit := by decide
    refine (hwhole 0).trans ⟨?_, fun ⟨_, hk, _⟩ => hworth.symm.trans hk⟩
    rintro rfl
    exact ⟨hplain, hworth, hlimit⟩
  | whole n =>
    obtain ⟨hplain, hworth, hlt⟩ := hp
    cases h
    refine (hwhole n).trans ⟨?_, fun ⟨_, hk, _⟩ => hworth.symm.trans hk⟩
    rintro rfl
    exact ⟨hplain, hworth, hlt⟩
  | long n e =>
    refine iff_of_false (ne_whole_of_isFloat (isFloat_of_float h) k) ?_
    rintro ⟨_, rfl, hlt⟩
    exact absurd hp.2 (Nat.not_le.2 hlt)
  | fraction | full | power =>
    exact iff_of_false (ne_whole_of_isFloat (isFloat_of_float h) k) fun ⟨hplain, _⟩ => hp hplain
  | vanished =>
    cases h
    exact iff_of_false (by simp) fun ⟨hplain, _⟩ => hp hplain
  | point | mark | powerSign => cases h

/-- A number is whole and not negative exactly if its characters are digits that spell a number
below the limit, and then it is that number. -/
theorem Spells.value_eq_iff (hn : n.Spells cs) {x : Number} (h : n.value = .ok x) (k : Nat) :
    x = .whole k ↔ Plain cs ∧ worth cs = k ∧ k < limit := by
  rcases n with ⟨_ | _, p⟩
  · exact Phase.Spells.value_eq_iff hn h k
  · refine iff_of_false ?_ fun ⟨hplain, _⟩ => hn hplain
    cases p with
    | zero | whole =>
      cases h
      exact integer_true_ne _ k
    | long | fraction | full | power => exact ne_whole_of_isFloat (isFloat_of_float h) k
    | vanished =>
      cases h
      simp
    | sign | point | mark | powerSign => cases h

/-- The number is written with digits only, and they spell `k`. -/
def Lexeme.Spells (x : Lexeme) (k : Nat) : Prop :=
  Plain (x.first :: x.chars) ∧ worth (x.first :: x.chars) = k

instance (x : Lexeme) (k : Nat) : Decidable (x.Spells k) :=
  inferInstanceAs (Decidable (Plain (x.first :: x.chars) ∧ worth (x.first :: x.chars) = k))

/-- What is kept of a number as it is written is whole and not negative exactly if it spells a
number below the limit, and then it is that number. -/
theorem Lexeme.whole_iff {y : Lexeme} {x : Number} (h : y.read true = some (.number x)) (k : Nat) :
    x = .whole k ↔ y.Spells k ∧ k < limit := by
  obtain ⟨m, hsplit, hvalue⟩ := Lexeme.exists_value_of_read h
  have hspells : m.Spells (y.first :: y.chars) := (spells_of_start? y.start_eq).split? hsplit
  rw [Lexeme.Spells, and_assoc]
  exact hspells.value_eq_iff hvalue k

end InlineCheck.Json.Numeral
