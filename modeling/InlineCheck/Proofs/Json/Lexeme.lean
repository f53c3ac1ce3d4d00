import InlineCheck.Proofs.Json.Reading

/-!
# Words, numbers and strings

The reader takes words, numbers and strings character by character.  Here each of them is taken
at once: `Quote.split?` and `Numeral.split?` cut a text behind the string or number that it
begins with, and `Quote.Lexeme` and `Numeral.Lexeme` hold the characters of one.

Three facts are proved of both.

* Only what is taken matters (`exists_body`, `split?_append`), and for a number that no more of
  it follows.
* Whatever can be kept can also be passed over (`split?_passed`).  The converse fails: a lone
  surrogate or a number out of range is only refused where it is kept.
* So a lexeme, which is anything that can be passed over, is read alike wherever it stands
  (`split?_lexeme`).
-/

namespace InlineCheck.Json

/-! ## Strings -/

namespace Quote

/-- The text of the string, and what follows its closing quote. -/
def split? (q : Quote) : List Char → Option (String × List Char)
  | [] => none
  | c :: cs =>
    match q.step c with
    | .ok (.more q) => q.split? cs
    | .ok (.closed text) => some (text, cs)
    | .error _ => none

variable {q : Quote} {c : Char} {cs text rest : List Char} {s : String}

theorem split?_more {q' : Quote} (h : q.step c = .ok (.more q')) :
    q.split? (c :: cs) = q'.split? cs := by
  rw [split?, h]

theorem split?_closed (h : q.step c = .ok (.closed s)) : q.split? (c :: cs) = some (s, cs) := by
  rw [split?, h]

theorem split?_refused {refusal : Refusal} (h : q.step c = .error refusal) :
    q.split? (c :: cs) = none := by
  rw [split?, h]

/-- What follows a string does not matter for it. -/
theorem split?_append (h : q.split? text = some (s, cs)) (rest : List Char) :
    q.split? (text ++ rest) = some (s, cs ++ rest) := by
  induction text generalizing q with
  | nil => cases h
  | cons c text ih =>
    rw [List.cons_append]
    cases hstep : q.step c with
    | error refusal =>
      rw [split?_refused hstep] at h
      cases h
    | ok next =>
      cases next with
      | more q' =>
        rw [split?_more hstep] at h ⊢
        exact ih h
      | closed s' =>
        rw [split?_closed hstep] at h ⊢
        cases h
        rfl

theorem exists_body (h : q.split? text = some (s, rest)) :
    ∃ body, text = body ++ rest ∧ q.split? body = some (s, []) := by
  induction text generalizing q with
  | nil => cases h
  | cons c text ih =>
    cases hstep : q.step c with
    | error refusal =>
      rw [split?_refused hstep] at h
      cases h
    | ok next =>
      cases next with
      | more q' =>
        rw [split?_more hstep] at h
        obtain ⟨body, rfl, hbody⟩ := ih h
        exact ⟨c :: body, rfl, by rw [split?_more hstep, hbody]⟩
      | closed s' =>
        rw [split?_closed hstep] at h
        cases h
        exact ⟨[c], rfl, split?_closed hstep⟩

/-! ### Passing over -/

/-- Where a reader stands that does not keep what it reads. -/
def Phase.passed : Phase → Phase
  | .surrogate _ => .plain
  | .surrogateEscape _ => .escape
  | .hex left value _ => .hex left value none
  | phase => phase

/-- The string for a reader that does not keep it. -/
def passed (q : Quote) : Quote := ⟨false, [], q.phase.passed⟩

/-- The same for what follows a character. -/
def Next.passed : Next → Next
  | .more q => .more q.passed
  | .closed _ => .closed ""

/-- Whether the string goes on being kept. -/
def Next.Kept : Next → Prop
  | .more q => q.kept = true
  | .closed _ => True

theorem exists_of_map_more {e : Except Refusal Quote} {next : Next}
    (h : e.map Next.more = .ok next) : ∃ q, e = .ok q ∧ next = .more q := by
  cases e with
  | error refusal => cases h
  | ok q =>
    cases h
    exact ⟨q, rfl, rfl⟩

theorem spoil_passed (hq : q.kept = true) {left : Nat} {q' : Quote}
    (h : q.spoil left c = .ok q') : q.passed.spoil left c = .ok q'.passed ∧ q'.kept = true := by
  unfold spoil at h ⊢
  split at h
  · cases h
  · next hleft =>
    cases h
    exact ⟨if_neg hleft, hq⟩

theorem closeHex_passed (hq : q.kept = true) {value : Nat} {high : Option Nat} {q' : Quote}
    (h : q.closeHex value high = .ok q') :
    q.passed.closeHex value none = .ok q'.passed ∧ q'.kept = true := by
  unfold closeHex at h
  rw [if_pos hq] at h
  repeat' split at h
  all_goals cases h
  all_goals exact ⟨rfl, hq⟩

/-- A reader that passes over the string goes along with one that keeps it. -/
theorem step_passed (hq : q.kept = true) {next : Next} (h : q.step c = .ok next) :
    q.passed.step c = .ok next.passed ∧ next.Kept := by
  rcases q with ⟨kept, gathered, phase⟩
  cases hq
  cases phase with
  | plain =>
    simp only [step, passed, Phase.passed] at h ⊢
    repeat' split at h
    all_goals cases h
    all_goals simp [*, Next.passed, Next.Kept, passed, Phase.passed, push, turn]
  | escape =>
    simp only [step, passed, Phase.passed] at h ⊢
    repeat' split at h
    all_goals cases h
    all_goals simp [*, Next.passed, Next.Kept, passed, Phase.passed, push, turn]
  | hex left value high =>
    simp only [step, passed, Phase.passed] at h ⊢
    split at h
    · next hdigit =>
      obtain ⟨q', hq', rfl⟩ := exists_of_map_more h
      obtain ⟨hspoil, hkept⟩ := spoil_passed rfl hq'
      exact ⟨congrArg (Except.map Next.more) hspoil, hkept⟩
    · next d hdigit =>
      split at h
      · next hleft =>
        obtain ⟨q', hq', rfl⟩ := exists_of_map_more h
        obtain ⟨hclose, hkept⟩ := closeHex_passed rfl hq'
        refine ⟨?_, hkept⟩
        rw [if_pos hleft]
        exact congrArg (Except.map Next.more) hclose
      · next hleft =>
        cases h
        exact ⟨if_neg hleft, rfl⟩
  | surrogate high =>
    simp only [step, passed, Phase.passed] at h ⊢
    repeat' split at h
    all_goals cases h
    all_goals simp [*, Next.passed, Next.Kept, passed, Phase.passed, turn]
  | surrogateEscape high =>
    simp only [step, passed, Phase.passed] at h ⊢
    repeat' split at h
    all_goals cases h
    all_goals simp [*, Next.passed, Next.Kept, passed, Phase.passed, turn]
  | spoiled left =>
    obtain ⟨q', hq', rfl⟩ := exists_of_map_more h
    obtain ⟨hspoil, hkept⟩ := spoil_passed rfl hq'
    exact ⟨congrArg (Except.map Next.more) hspoil, hkept⟩

theorem split?_passed (hq : q.kept = true) (h : q.split? text = some (s, rest)) :
    q.passed.split? text = some ("", rest) := by
  induction text generalizing q with
  | nil => cases h
  | cons c text ih =>
    cases hstep : q.step c with
    | error refusal =>
      rw [split?_refused hstep] at h
      cases h
    | ok next =>
      obtain ⟨hpassed, hkept⟩ := step_passed hq hstep
      cases next with
      | more q' =>
        rw [split?_more hstep] at h
        rw [split?_more hpassed]
        exact ih hkept h
      | closed s' =>
        rw [split?_closed hstep] at h
        cases h
        exact split?_closed hpassed

/-! ### Lexemes -/

/-- The characters of a string behind its opening quote, the closing one included. -/
structure Lexeme where
  chars : List Char
  closed : ((start false).split? chars).map Prod.snd = some []

/-- The text of a string that is kept; one that is passed over has none. -/
def Lexeme.read (x : Lexeme) (kept : Bool) : Option String :=
  ((start kept).split? x.chars).map Prod.fst

theorem Lexeme.split?_passed (x : Lexeme) : ∃ s, (start false).split? x.chars = some (s, []) := by
  obtain ⟨⟨s, cs⟩, hsplit, rfl⟩ := Option.map_eq_some_iff.1 x.closed
  exact ⟨s, hsplit⟩

/-- A string ends in the same place, kept or passed over. -/
theorem rest_eq_of_lexeme (x : Lexeme) {kept : Bool}
    (h : (start kept).split? (x.chars ++ rest) = some (s, cs)) : cs = rest := by
  obtain ⟨s', hx⟩ := x.split?_passed
  have hrest := split?_append hx rest
  cases kept with
  | true =>
    rw [show start false = (start true).passed from rfl, split?_passed rfl h] at hrest
    cases hrest
    rfl
  | false =>
    rw [h] at hrest
    cases hrest
    rfl

/-- A string is read alike wherever it stands. -/
theorem split?_lexeme (x : Lexeme) (kept : Bool) (rest : List Char) :
    (start kept).split? (x.chars ++ rest) = (x.read kept).map fun s => (s, rest) := by
  rw [Lexeme.read]
  cases hx : (start kept).split? x.chars with
  | some y =>
    have hall := split?_append hx rest
    rw [hall, rest_eq_of_lexeme x hall]
    rfl
  | none =>
    cases hall : (start kept).split? (x.chars ++ rest) with
    | none => rfl
    | some y =>
      obtain rfl := rest_eq_of_lexeme x hall
      obtain ⟨body, hbody, hsplit⟩ := exists_body hall
      rw [← List.append_cancel_right hbody, hx] at hsplit
      cases hsplit

/-- What begins as a string is a lexeme and what follows it. -/
theorem exists_lexeme {kept : Bool} (h : (start kept).split? text = some (s, rest)) :
    ∃ x : Lexeme, text = x.chars ++ rest := by
  obtain ⟨body, rfl, hbody⟩ := exists_body h
  cases kept with
  | true => exact ⟨⟨body, congrArg (Option.map Prod.snd) (split?_passed rfl hbody)⟩, rfl⟩
  | false => exact ⟨⟨body, congrArg (Option.map Prod.snd) hbody⟩, rfl⟩

end Quote

/-! ## Numbers -/

namespace Numeral

/-- The number of which some characters were read, and what follows it. -/
def split? (kept : Bool) (n : Numeral) : List Char → Option (Numeral × List Char)
  | [] => if (n.unfinished? kept).isSome then none else some (n, [])
  | c :: cs =>
    match n.step kept c with
    | .ok (some n) => n.split? kept cs
    | .ok none => some (n, c :: cs)
    | .error _ => none

variable {kept : Bool} {n m : Numeral} {c : Char} {cs text rest : List Char}

theorem split?_more (h : n.step kept c = .ok (some m)) :
    n.split? kept (c :: cs) = m.split? kept cs := by
  rw [split?, h]

theorem split?_ended (h : n.step kept c = .ok none) :
    n.split? kept (c :: cs) = some (n, c :: cs) := by
  rw [split?, h]

theorem split?_refused {refusal : Refusal} (h : n.step kept c = .error refusal) :
    n.split? kept (c :: cs) = none := by
  rw [split?, h]

/-- Whether the text is empty or begins with a character that may stand behind a value. -/
def Delimited (rest : List Char) : Prop :=
  ∀ c ∈ rest.head?, isSpace c = true ∨ c = ',' ∨ c = ']' ∨ c = '\x7d'

/-- A number ends in front of what may stand behind it. -/
theorem step_of_delimiter (hn : n.unfinished? kept = none)
    (hc : isSpace c = true ∨ c = ',' ∨ c = ']' ∨ c = '\x7d') : n.step kept c = .ok none := by
  have hcases : c = ' ' ∨ c = '\t' ∨ c = '\n' ∨ c = '\r' ∨ c = ',' ∨ c = ']' ∨ c = '\x7d' := by
    simpa [isSpace, or_assoc] using hc
  have hdigit : digit? c = none := by
    rcases hcases with rfl | rfl | rfl | rfl | rfl | rfl | rfl <;> rfl
  have htail : ∀ point k e, tail point k e c = none := by
    intro point k e
    rcases hcases with rfl | rfl | rfl | rfl | rfl | rfl | rfl <;> rfl
  rcases n with ⟨negative, phase⟩
  cases phase with
  | sign | point | mark | powerSign => cases hn
  | zero | whole | long | fraction | full | power | vanished =>
    simp [step, Phase.step, hdigit, htail, Except.map]

theorem Phase.step_passed {p : Phase} {next : Option Phase} (h : p.step true c = .ok next) :
    p.step false c = .ok next := by
  cases p with
  | power k e negative digits =>
    simp only [Phase.step] at h ⊢
    split at h
    · split at h
      · next hfits => rw [if_pos hfits, h]
      · next hfits =>
        split at h
        · cases h
        · rw [if_neg hfits]
          exact h
    · exact h
  | sign | zero | whole | long | point | fraction | full | mark | powerSign | vanished => exact h

/-- A reader that passes over the number goes along with one that keeps it. -/
theorem step_passed {next : Option Numeral} (h : n.step true c = .ok next) :
    n.step false c = .ok next := by
  rw [step] at h ⊢
  cases hphase : n.phase.step true c with
  | error refusal =>
    rw [hphase] at h
    cases h
  | ok phase =>
    rw [hphase] at h
    rw [Phase.step_passed hphase]
    exact h

theorem isSome_unfinished? (n : Numeral) (kept : Bool) :
    (n.unfinished? kept).isSome = (n.unfinished? false).isSome := by
  rcases n with ⟨negative, phase⟩
  cases phase <;> rfl

theorem split?_passed (h : n.split? true text = some (m, rest)) :
    n.split? false text = some (m, rest) := by
  induction text generalizing n with
  | nil =>
    rw [split?, isSome_unfinished?] at h
    exact h
  | cons c text ih =>
    cases hstep : n.step true c with
    | error refusal =>
      rw [split?_refused hstep] at h
      cases h
    | ok next =>
      have hpassed := step_passed hstep
      cases next with
      | some n' =>
        rw [split?_more hstep] at h
        rw [split?_more hpassed]
        exact ih h
      | none =>
        rw [split?_ended hstep] at h
        rw [split?_ended hpassed]
        exact h

/-- A number that a text ends with is the same if it is followed by what may stand behind it. -/
theorem split?_append (h : n.split? kept text = some (m, [])) (hrest : Delimited rest) :
    n.split? kept (text ++ rest) = some (m, rest) := by
  induction text generalizing n with
  | nil =>
    rw [split?] at h
    split at h
    · cases h
    · next hfinished =>
      cases h
      rcases rest with _ | ⟨c, cs⟩
      · rw [List.append_nil, split?, if_neg hfinished]
      · exact split?_ended (step_of_delimiter (by simpa using hfinished) (hrest c rfl))
  | cons c text ih =>
    rw [List.cons_append]
    cases hstep : n.step kept c with
    | error refusal =>
      rw [split?_refused hstep] at h
      cases h
    | ok next =>
      cases next with
      | some n' =>
        rw [split?_more hstep] at h ⊢
        exact ih h
      | none =>
        rw [split?_ended hstep] at h
        cases h

/-- A number only ends in front of a character if it can end there. -/
theorem unfinished?_of_ended (h : n.step kept c = .ok none) : n.unfinished? kept = none := by
  rcases n with ⟨negative, phase⟩
  cases phase with
  | sign | point | mark | powerSign =>
    exfalso
    simp only [step, Phase.step] at h
    repeat' split at h
    all_goals cases h
  | zero | whole | long | fraction | full | power | vanished => rfl

theorem exists_body (h : n.split? kept text = some (m, rest)) :
    ∃ body, text = body ++ rest ∧ n.split? kept body = some (m, []) := by
  induction text generalizing n with
  | nil =>
    have hrest : rest = [] := by
      rw [split?] at h
      split at h <;> cases h
      rfl
    subst hrest
    exact ⟨[], rfl, h⟩
  | cons c text ih =>
    cases hstep : n.step kept c with
    | error refusal =>
      rw [split?_refused hstep] at h
      cases h
    | ok next =>
      cases next with
      | some n' =>
        rw [split?_more hstep] at h
        obtain ⟨body, rfl, hbody⟩ := ih h
        exact ⟨c :: body, rfl, by rw [split?_more hstep, hbody]⟩
      | none =>
        rw [split?_ended hstep] at h
        cases h
        exact ⟨[], rfl, by rw [split?, unfinished?_of_ended hstep]; rfl⟩

/-! ### Lexemes -/

/-- The characters of a number: the first one, with the number that it begins, and the others. -/
structure Lexeme where
  first : Char
  chars : List Char
  begun : Numeral
  start_eq : start? first = some begun
  ended : (begun.split? false chars).map Prod.snd = some []

namespace Lexeme

/-- The number, unless it is kept and out of range.  Nothing is left of one that is passed
over. -/
def read (x : Lexeme) (kept : Bool) : Option Value :=
  if kept then
    (x.begun.split? true x.chars).bind fun y => (y.1.value.map Value.number).toOption
  else some .null

theorem split?_passed (x : Lexeme) : ∃ m, x.begun.split? false x.chars = some (m, []) := by
  obtain ⟨⟨m, cs⟩, hsplit, rfl⟩ := Option.map_eq_some_iff.1 x.ended
  exact ⟨m, hsplit⟩

end Lexeme

/-- A number ends in the same place, kept or passed over. -/
theorem rest_eq_of_lexeme (x : Lexeme) (hrest : Delimited rest)
    (h : x.begun.split? kept (x.chars ++ rest) = some (m, cs)) : cs = rest := by
  obtain ⟨m', hx⟩ := x.split?_passed
  have hall := split?_append hx hrest
  cases kept with
  | true =>
    rw [split?_passed h] at hall
    cases hall
    rfl
  | false =>
    rw [h] at hall
    cases hall
    rfl

/-- A number is read alike in front of all that may stand behind it. -/
theorem split?_lexeme (x : Lexeme) (kept : Bool) (hrest : Delimited rest) :
    x.begun.split? kept (x.chars ++ rest) =
      (x.begun.split? kept x.chars).map fun y => (y.1, rest) := by
  cases hx : x.begun.split? kept x.chars with
  | some y =>
    obtain ⟨m, cs⟩ := y
    have hnothing : Delimited [] := by simp [Delimited]
    have hend : x.begun.split? kept (x.chars ++ []) = some (m, cs) := by rwa [List.append_nil]
    obtain rfl := rest_eq_of_lexeme x hnothing hend
    exact split?_append hx hrest
  | none =>
    cases hall : x.begun.split? kept (x.chars ++ rest) with
    | none => rfl
    | some y =>
      obtain rfl := rest_eq_of_lexeme x hrest hall
      obtain ⟨body, hbody, hsplit⟩ := exists_body hall
      rw [← List.append_cancel_right hbody, hx] at hsplit
      cases hsplit

/-- What begins as a number is a lexeme and what follows it. -/
theorem exists_lexeme (hstart : start? c = some n) (h : n.split? kept text = some (m, rest)) :
    ∃ x : Lexeme, x.first = c ∧ x.begun = n ∧ text = x.chars ++ rest := by
  obtain ⟨body, rfl, hbody⟩ := exists_body h
  cases kept with
  | true => exact ⟨⟨c, body, n, hstart, congrArg _ (split?_passed hbody)⟩, rfl, rfl, rfl⟩
  | false => exact ⟨⟨c, body, n, hstart, congrArg _ hbody⟩, rfl, rfl, rfl⟩

end Numeral

/-! ## Taking them at once -/

/-- What is read behind a value that is neither an array nor an object. -/
def settle (shape : Shape) (slots : List Slot) (text : List Char) (v : Value) : Option Value :=
  (shape.scalar v).toOption.bind fun kept => (State.place (deliver kept slots)).reads? text

theorem settle_eq (shape : Shape) (slots : List Slot) (text : List Char) (v : Value) :
    settle shape slots text v =
      (accept shape v slots).toOption.bind fun p => (State.place p).reads? text := by
  rw [settle, accept]
  cases shape.scalar v <;> rfl

theorem reads?_scalar (shape : Shape) (slots : List Slot) (text : List Char) (v : Value) :
    ((((accept shape v slots).map State.place).mapError Refusal.after).toOption.bind fun s =>
      s.reads? text) = settle shape slots text v := by
  rw [settle_eq]
  cases accept shape v slots <;> rfl

theorem reads?_word (d : Char) (left : List Char) (v : Value) (shape : Shape) (slots : List Slot)
    (text : List Char) :
    (State.word (d :: left) v shape slots).reads? (d :: left ++ text) =
      settle shape slots text v := by
  induction left generalizing d with
  | nil =>
    have hstep : (State.word [d] v shape slots).step d =
        ((accept shape v slots).map State.place).mapError Refusal.after := by simp [State.step]
    rw [List.cons_append, State.reads?_cons, hstep]
    exact reads?_scalar shape slots text v
  | cons e left ih =>
    have hstep : (State.word (d :: e :: left) v shape slots).step d =
        .ok (.word (e :: left) v shape slots) := by simp [State.step]
    rw [List.cons_append, State.reads?_cons_ok hstep]
    exact ih e

/-- A text in which a word is read begins with the word. -/
theorem exists_of_reads?_word {left : List Char} {v w : Value} {shape : Shape}
    {slots : List Slot} {text : List Char}
    (h : (State.word left v shape slots).reads? text = some w) :
    ∃ rest, text = left ++ rest := by
  induction text generalizing left with
  | nil => cases h
  | cons c cs ih =>
    rcases left with _ | ⟨d, left⟩
    · exact ⟨_, rfl⟩
    · by_cases hc : c = d
      · subst hc
        rcases left with _ | ⟨e, left⟩
        · exact ⟨cs, rfl⟩
        · have hstep : (State.word (c :: e :: left) v shape slots).step c =
              .ok (.word (e :: left) v shape slots) := by simp [State.step]
          rw [State.reads?_cons_ok hstep] at h
          obtain ⟨rest, rfl⟩ := ih h
          exact ⟨rest, rfl⟩
      · have hstep : (State.word (d :: left) v shape slots).step c =
            .error (.after .expectedWord) := by simp [State.step, hc]
        rw [State.reads?_cons_error hstep] at h
        cases h

theorem reads?_string (q : Quote) (shape : Shape) (slots : List Slot) (text : List Char) :
    (State.string q shape slots).reads? text =
      (q.split? text).bind fun x => settle shape slots x.2 (.string x.1) := by
  induction text generalizing q with
  | nil => rfl
  | cons c cs ih =>
    rw [State.reads?_cons, State.step]
    cases hstep : q.step c with
    | error refusal => rw [Quote.split?_refused hstep]; rfl
    | ok next =>
      cases next with
      | more q' =>
        rw [Quote.split?_more hstep]
        exact ih q'
      | closed s =>
        rw [Quote.split?_closed hstep]
        exact reads?_scalar shape slots cs (.string s)

theorem reads?_name (q : Quote) (block : Block) (slots : List Slot) (text : List Char) :
    (State.name q block slots).reads? text =
      (q.split? text).bind fun x => (State.place (acceptName x.1 block slots)).reads? x.2 := by
  induction text generalizing q with
  | nil => rfl
  | cons c cs ih =>
    rw [State.reads?_cons, State.step]
    cases hstep : q.step c with
    | error refusal => rw [Quote.split?_refused hstep]; rfl
    | ok next =>
      cases next with
      | more q' =>
        rw [Quote.split?_more hstep]
        exact ih q'
      | closed s =>
        rw [Quote.split?_closed hstep]
        rfl

theorem reads?_number (n : Numeral) (shape : Shape) (slots : List Slot) (text : List Char) :
    (State.number n shape slots).reads? text =
      (n.split? shape.keeps text).bind fun x =>
        (acceptNumber x.1 shape slots).toOption.bind fun p => (State.place p).reads? x.2 := by
  induction text generalizing n with
  | nil =>
    rw [State.reads?_nil, State.finish, Numeral.split?]
    cases hfinished : n.unfinished? shape.keeps with
    | some cause => rfl
    | none =>
      show (acceptNumber n shape slots >>= Place.finish).toOption =
        (acceptNumber n shape slots).toOption.bind fun p => (State.place p).reads? []
      cases acceptNumber n shape slots <;> rfl
  | cons c cs ih =>
    rw [State.reads?_cons, State.step]
    cases hstep : n.step shape.keeps c with
    | error refusal => rw [Numeral.split?_refused hstep]; rfl
    | ok next =>
      cases next with
      | some n' =>
        rw [Numeral.split?_more hstep]
        exact ih n'
      | none =>
        rw [Numeral.split?_ended hstep, Option.bind_some]
        simp only [bind, Except.bind]
        cases acceptNumber n shape slots with
        | ok p => exact (State.reads?_cons (.place p) c cs).symm
        | error cause => rfl

end InlineCheck.Json
