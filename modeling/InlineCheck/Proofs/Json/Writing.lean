import InlineCheck.Json.Printer
import InlineCheck.Proofs.Json.Lexeme

/-!
# Written strings and numbers

What the printer writes for a string or a whole number is a lexeme, and it is read as the string
or number that was written.

* Strings.  `Quote.split?_escape` goes over one character, however it is written, and
  `Quote.exists_written` over a whole string.
* Numbers.  `Numeral.exists_digits` goes over the digits of a number, from which
  `Numeral.exists_written` makes all whole numbers that are kept exactly.
-/

namespace InlineCheck.Json

/-! ## Strings -/

namespace Quote

theorem hexDigit?_digitChar : ∀ n < 16, hexDigit? (Nat.digitChar n) = some n := by
  decide

/-- A control character is written as a hexadecimal escape of four digits. -/
theorem split?_control {c : Char} (hc : c.toNat < 0x20) (gathered rest : List Char) :
    (Quote.mk true gathered .plain).split?
        (['\\', 'u', '0', '0'] ++ hexByte c.toNat ++ rest) =
      (Quote.mk true (c :: gathered) .plain).split? rest := by
  have hhigh := hexDigit?_digitChar (c.toNat / 16) (by omega)
  have hlow := hexDigit?_digitChar (c.toNat % 16) (by omega)
  have hvalue : (0 * 16 + c.toNat / 16) * 16 + c.toNat % 16 = c.toNat := by omega
  have hdigits : (Quote.mk true gathered .plain).split?
        (['\\', 'u', '0', '0'] ++ hexByte c.toNat ++ rest) =
      (Quote.mk true gathered (.hex 2 0 none)).split? (hexByte c.toNat ++ rest) := rfl
  have hfirst : (Quote.mk true gathered (.hex 2 0 none)).step (Nat.digitChar (c.toNat / 16)) =
      .ok (.more ⟨true, gathered, .hex 1 (0 * 16 + c.toNat / 16) none⟩) := by
    simp [step, hhigh, turn]
  have hplain : isLow c.toNat = false ∧ isHigh c.toNat = false := by
    simp [isLow, isHigh]
    omega
  have hsecond : (Quote.mk true gathered (.hex 1 (0 * 16 + c.toNat / 16) none)).step
      (Nat.digitChar (c.toNat % 16)) = .ok (.more ⟨true, c :: gathered, .plain⟩) := by
    simp only [step, hlow, hvalue, closeHex, hplain, push, Char.ofNat_toNat]
    rfl
  rw [hdigits, hexByte]
  exact (split?_more hfirst).trans (split?_more hsecond)

/-- However a character is written, it is gathered. -/
theorem split?_escape (c : Char) (gathered rest : List Char) :
    (Quote.mk true gathered .plain).split? (escape c ++ rest) =
      (Quote.mk true (c :: gathered) .plain).split? rest := by
  rw [escape.eq_def]
  split
  iterate 7 rfl
  split
  · next hcontrol => exact split?_control hcontrol gathered rest
  · next hquote hbackslash _ _ _ _ _ hprinting =>
    refine split?_more ?_
    rw [step, if_neg hquote, if_neg hbackslash, if_neg hprinting]
    rfl

theorem split?_escapes (text gathered : List Char) :
    (Quote.mk true gathered .plain).split? (text.flatMap escape ++ ['"']) =
      some (String.ofList (gathered.reverse ++ text), []) := by
  induction text generalizing gathered with
  | nil =>
    rw [List.append_nil]
    rfl
  | cons c text ih =>
    rw [List.flatMap_cons, List.append_assoc, split?_escape, ih, List.reverse_cons,
      List.append_assoc, List.singleton_append]

/-- A written string is a lexeme, and it is read as the string. -/
theorem exists_written (text : String) :
    ∃ x : Lexeme, writeText text = '"' :: x.chars ∧ x.read true = some text := by
  have hsplit : (start true).split? (text.toList.flatMap escape ++ ['"']) = some (text, []) := by
    rw [start, split?_escapes, List.reverse_nil, List.nil_append, String.ofList_toList]
  refine ⟨⟨_, congrArg (Option.map Prod.snd) (split?_passed rfl hsplit)⟩, rfl, ?_⟩
  exact congrArg (Option.map Prod.fst) hsplit

end Quote

/-! ## Numbers -/

namespace Numeral

theorem digit?_digitChar : ∀ d < 10, digit? (Nat.digitChar d) = some d := by
  decide

/-- A number goes on with a character behind the others. -/
theorem split?_concat {kept : Bool} {n m m' : Numeral} {text : List Char} {c : Char}
    (h : n.split? kept text = some (m, [])) (hstep : m.step kept c = .ok (some m')) :
    n.split? kept (text ++ [c]) = m'.split? kept [] := by
  induction text generalizing n with
  | nil =>
    rw [split?] at h
    split at h
    · cases h
    · cases h
      exact split?_more hstep
  | cons d text ih =>
    rw [List.cons_append]
    cases hnext : n.step kept d with
    | error refusal =>
      rw [split?_refused hnext] at h
      cases h
    | ok next =>
      cases next with
      | some n' =>
        rw [split?_more hnext] at h ⊢
        exact ih h
      | none =>
        rw [split?_ended hnext] at h
        cases h

/-- The digits of a number that is not zero begin with a digit that is not zero, and all others
are gathered behind it. -/
theorem exists_digits {n : Nat} (hpos : 0 < n) (hlt : n < limit) :
    ∃ (d : Nat) (rest : List Char), 0 < d ∧ d < 10 ∧
      Nat.toDigits 10 n = Nat.digitChar d :: rest ∧
      ∀ kept negative, (Numeral.mk negative (.whole d)).split? kept rest =
        some (⟨negative, .whole n⟩, []) := by
  induction n using Nat.strongRecOn with
  | _ n ih =>
    by_cases hsmall : n < 10
    · exact ⟨n, [], hpos, hsmall, Nat.toDigits_of_lt_base hsmall, fun kept negative => rfl⟩
    · obtain ⟨d, rest, hd, hten, hdigits, hsplit⟩ := ih (n / 10) (by omega) (by omega) (by omega)
      refine ⟨d, rest ++ [Nat.digitChar (n % 10)], hd, hten, ?_, fun kept negative => ?_⟩
      · rw [Nat.toDigits_of_base_le (by omega) (by omega), hdigits]
        rfl
      · have hlast := digit?_digitChar (n % 10) (by omega)
        have hvalue : n / 10 * 10 + n % 10 = n := by omega
        have hstep : (Numeral.mk negative (.whole (n / 10))).step kept
            (Nat.digitChar (n % 10)) = .ok (some ⟨negative, .whole n⟩) := by
          simp [step, Phase.step, hlast, hvalue, hlt, Except.map]
        exact split?_concat (hsplit kept negative) hstep

end Numeral

/-- The whole numbers that are kept exactly. -/
def Number.Exact : Number → Prop
  | .whole n => -(Numeral.negativeLimit : Int) ≤ n ∧ n < Numeral.limit
  | .float _ => False

namespace Numeral

theorem start?_digitChar :
    ∀ d < 10, 0 < d → start? (Nat.digitChar d) = some ⟨false, .whole d⟩ := by
  decide

/-- Whatever is split off a number that is kept is its lexeme. -/
theorem exists_lexeme_of_split? {first : Char} {chars : List Char} {begun m : Numeral}
    (hstart : start? first = some begun)
    (hsplit : ∀ kept, begun.split? kept chars = some (m, [])) {n : Number}
    (hvalue : m.value = .ok n) :
    ∃ x : Lexeme, first :: chars = x.first :: x.chars ∧ x.read true = some (.number n) := by
  refine ⟨⟨first, chars, begun, hstart, congrArg _ (hsplit false)⟩, rfl, ?_⟩
  rw [Lexeme.read, if_pos rfl, hsplit true, Option.bind_some, hvalue]
  rfl

/-- A written number that is kept exactly is a lexeme, and it is read as the number. -/
theorem exists_written {n : Number} (hn : n.Exact) :
    ∃ x : Lexeme, n.write.toList = x.first :: x.chars ∧ x.read true = some (.number n) := by
  match n with
  | .float x => exact hn.elim
  | .whole (.ofNat 0) =>
    have hstart : start? '0' = some ⟨false, .zero⟩ := rfl
    exact exists_lexeme_of_split? hstart (fun _ => rfl) rfl
  | .whole (.ofNat (k + 1)) =>
    have hlt : k + 1 < limit := Int.ofNat_lt.1 hn.2
    obtain ⟨d, rest, hpos, hten, hdigits, hsplit⟩ := exists_digits (Nat.succ_pos k) hlt
    have hwrite : (Number.whole (.ofNat (k + 1))).write.toList = Nat.digitChar d :: rest :=
      (String.toList_ofList).trans hdigits
    rw [hwrite]
    exact exists_lexeme_of_split? (start?_digitChar d hten hpos) (fun kept => hsplit kept false) rfl
  | .whole (.negSucc k) =>
    have hle : k + 1 ≤ negativeLimit := by
      have := hn.1
      omega
    obtain ⟨d, rest, hpos, hten, hdigits, hsplit⟩ :=
      exists_digits (Nat.succ_pos k) (Nat.lt_of_le_of_lt hle (by decide))
    have hwrite : (Number.whole (.negSucc k)).write.toList = '-' :: Nat.digitChar d :: rest := by
      show ("-" ++ Nat.repr (k + 1)).toList = _
      rw [String.toList_append, Nat.repr, hdigits]
      exact congrArg (List.cons '-') String.toList_ofList
    have hsign : ∀ kept, (Numeral.mk true .sign).step kept (Nat.digitChar d) =
        .ok (some ⟨true, .whole d⟩) := by
      intro kept
      cases d with
      | zero => cases hpos
      | succ d =>
        simp only [step, Phase.step, digit?_digitChar _ hten]
        rfl
    have hvalue : (Numeral.mk true (.whole (k + 1))).value = .ok (.whole (.negSucc k)) := by
      have hfits : 0 < k + 1 ∧ k + 1 ≤ negativeLimit := ⟨Nat.succ_pos k, hle⟩
      show Except.ok (if 0 < k + 1 ∧ k + 1 ≤ negativeLimit then _ else _) = _
      rw [if_pos hfits]
      rfl
    rw [hwrite]
    exact exists_lexeme_of_split? rfl
      (fun kept => (split?_more (hsign kept)).trans (hsplit kept true)) hvalue

end Numeral

end InlineCheck.Json
