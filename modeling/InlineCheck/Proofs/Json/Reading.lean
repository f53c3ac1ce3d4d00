import InlineCheck.Json.Reader

/-!
# What is read from a state on

`run` goes over a text and tells where it was refused.  Here only the document counts that was
read, so the offsets are left behind: `State.after?` is the state behind a text, and
`State.reads?` the document that ends with it.

There are three groups.

* Texts put together.  `reads?_append` cuts a text in two, and `reads?_blanks` passes over blanks.
* Brackets.  `Shape.row?` and `Shape.block?` say what an opening bracket makes of a shape, so
  that `openValue_bracket` and `openValue_brace` treat all shapes alike.
* The end of a document.  Where a record is read, a text can only end where everything is
  closed (`Enclosed.eq_done`).
-/

namespace InlineCheck.Json

theorem toOption_eq_some {ε α : Type} {e : Except ε α} {a : α} :
    e.toOption = some a ↔ e = .ok a := by
  cases e <;> simp [Except.toOption]

/-! ## Texts put together -/

namespace State

/-- The state behind the text, unless a character of it is refused. -/
def after? (s : State) : List Char → Option State
  | [] => some s
  | c :: cs => (s.step c).toOption.bind fun s => s.after? cs

/-- The document that ends with the text. -/
def reads? (s : State) (text : List Char) : Option Value :=
  (s.after? text).bind fun s => s.finish.toOption

variable {s : State} {c : Char} {text rest : List Char}

theorem reads?_nil (s : State) : s.reads? [] = s.finish.toOption := rfl

theorem reads?_cons (s : State) (c : Char) (text : List Char) :
    s.reads? (c :: text) = (s.step c).toOption.bind fun s => s.reads? text := by
  rw [reads?, after?, Option.bind_assoc]
  rfl

theorem reads?_cons_ok {s' : State} (h : s.step c = .ok s') :
    s.reads? (c :: text) = s'.reads? text := by
  rw [reads?_cons, h]
  rfl

theorem reads?_cons_error {refusal : Refusal} (h : s.step c = .error refusal) :
    s.reads? (c :: text) = none := by
  rw [reads?_cons, h]
  rfl

theorem after?_append (s : State) (text rest : List Char) :
    s.after? (text ++ rest) = (s.after? text).bind fun s => s.after? rest := by
  induction text generalizing s with
  | nil => rfl
  | cons c cs ih =>
    rw [List.cons_append, after?, after?, Option.bind_assoc]
    exact congrArg _ (funext ih)

theorem reads?_append (s : State) (text rest : List Char) :
    s.reads? (text ++ rest) = (s.after? text).bind fun s => s.reads? rest := by
  rw [reads?, after?_append, Option.bind_assoc]
  rfl

end State

/-- A document is read by a run exactly if it is the one that ends with the text. -/
theorem toOption_run (s : State) (offset : Nat) (text : List Char) :
    (run s offset text).toOption = s.reads? text := by
  induction text generalizing s offset with
  | nil =>
    rw [run, State.reads?_nil]
    cases s.finish <;> rfl
  | cons c cs ih =>
    rw [run, State.reads?_cons]
    cases s.step c with
    | ok s => exact ih s _
    | error refusal => rfl

theorem Shape.toOption_read (shape : Shape) (text : List Char) :
    (shape.read text).toOption = (State.place (.value shape [])).reads? text :=
  toOption_run _ _ _

/-- Blanks where no value is being read make no difference. -/
theorem reads?_blank (p : Place) {c : Char} (hc : isSpace c = true) (text : List Char) :
    (State.place p).reads? (c :: text) = (State.place p).reads? text :=
  State.reads?_cons_ok (if_pos hc)

theorem reads?_blanks (p : Place) {gap : List Char} (hgap : ∀ c ∈ gap, isSpace c = true)
    (text : List Char) : (State.place p).reads? (gap ++ text) = (State.place p).reads? text := by
  induction gap with
  | nil => rfl
  | cons c cs ih =>
    rw [List.cons_append, reads?_blank p (hgap c List.mem_cons_self)]
    exact ih fun d hd => hgap d (List.mem_cons_of_mem c hd)

theorem reads?_solid (p : Place) {c : Char} (hc : isSpace c = false) (text : List Char) :
    (State.place p).reads? (c :: text) =
      (p.stepSolid c).toOption.bind fun s => s.reads? text := by
  have hstep : (State.place p).step c = p.stepSolid c := if_neg (by simp [hc])
  rw [State.reads?_cons, hstep]

/-! ## Brackets -/

namespace Shape

/-- The array that an opening bracket begins where a value of the shape is wanted. -/
def row? : Shape → Option Row
  | any => some (.list .any [])
  | passed => some .passed
  | optionalText => none
  | list item => some (.list item [])
  | record title fields => some (.record title fields fields [])

/-- The object that an opening brace begins where a value of the shape is wanted. -/
def block? : Shape → Option Block
  | any => some (.object [])
  | passed => some .passed
  | optionalText => none
  | list _ => none
  | record _ fields => some (.record fields [])

/-- Whether a container of the shape may stand inside so many others. -/
def fits (shape : Shape) (depth : Nat) : Bool :=
  !shape.keeps || depth < maxDepth

end Shape

theorem openValue_bracket (shape : Shape) (slots : List Slot) :
    (openValue shape slots '[').toOption =
      if shape.fits slots.length then
        shape.row?.map fun row => .place (.row row .opened slots)
      else none := by
  cases shape <;>
    by_cases hdepth : slots.length < maxDepth <;>
    simp [openValue, Shape.fits, Shape.keeps, Shape.row?, hdepth, Except.toOption]

theorem openValue_brace (shape : Shape) (slots : List Slot) :
    (openValue shape slots '\x7b').toOption =
      if shape.fits slots.length then
        shape.block?.map fun block => .place (.block block .opened slots)
      else none := by
  cases shape <;>
    by_cases hdepth : slots.length < maxDepth <;>
    simp [openValue, Shape.fits, Shape.keeps, Shape.block?, hdepth, Except.toOption]

/-! ## The end of a document -/

/-- Whether the shape is that of a record, which has no scalar among its values. -/
def Shape.isRecord : Shape → Bool
  | record _ _ => true
  | _ => false

theorem exists_of_accept {shape : Shape} {v : Value} {slots : List Slot} {p : Place}
    (h : accept shape v slots = .ok p) :
    ∃ kept, shape.scalar v = .ok kept ∧ p = deliver kept slots := by
  cases hv : shape.scalar v with
  | error cause => simp [accept, hv, Except.map] at h
  | ok kept => exact ⟨kept, rfl, by simpa [accept, hv, Except.map] using h.symm⟩

theorem exists_of_acceptNumber {n : Numeral} {shape : Shape} {slots : List Slot} {p : Place}
    (h : acceptNumber n shape slots = .ok p) : ∃ v, accept shape v slots = .ok p := by
  rw [acceptNumber] at h
  split at h
  · cases hn : n.value with
    | error cause => simp [hn, bind, Except.bind] at h
    | ok number => exact ⟨.number number, by simpa [hn, bind, Except.bind] using h⟩
  · exact ⟨_, h⟩

namespace State

/-- The shape of the value that must begin, or of the number that is being read, and the slots
around it. -/
def wanted? : State → Option (Shape × List Slot)
  | place (.value shape slots) => some (shape, slots)
  | number _ shape slots => some (shape, slots)
  | _ => none

/-- No document can be just the number that is being read or may begin. -/
def Enclosed (s : State) : Prop :=
  ∀ shape, s.wanted? = some (shape, []) → shape.isRecord = true

theorem enclosed_of_none {s : State} (h : s.wanted? = none) : s.Enclosed := by
  intro shape hshape
  rw [h] at hshape
  cases hshape

theorem enclosed_cons {s : State} {shape : Shape} {slot : Slot} {slots : List Slot}
    (h : s.wanted? = some (shape, slot :: slots)) : s.Enclosed := by
  intro shape' hshape
  rw [h] at hshape
  cases hshape

theorem enclosed_deliver (v : Value) (slots : List Slot) : (place (deliver v slots)).Enclosed := by
  rcases slots with _ | ⟨_ | _, _⟩ <;> exact enclosed_of_none rfl

theorem enclosed_accept {shape : Shape} {v : Value} {slots : List Slot} {p : Place}
    (h : accept shape v slots = .ok p) : (place p).Enclosed := by
  obtain ⟨kept, _, rfl⟩ := exists_of_accept h
  exact enclosed_deliver kept slots

theorem enclosed_acceptNumber {n : Numeral} {shape : Shape} {slots : List Slot} {p : Place}
    (h : acceptNumber n shape slots = .ok p) : (place p).Enclosed := by
  obtain ⟨v, hv⟩ := exists_of_acceptNumber h
  exact enclosed_accept hv

/-- Behind the last character of a word or a string stands the place where it was taken. -/
theorem enclosed_scalar {shape : Shape} {v : Value} {slots : List Slot} {s : State}
    (h : ((accept shape v slots).map place).mapError Refusal.after = .ok s) : s.Enclosed := by
  cases haccept : accept shape v slots with
  | error cause =>
    rw [haccept] at h
    cases h
  | ok p =>
    rw [haccept] at h
    cases h
    exact enclosed_accept haccept

theorem enclosed_closeWith {kept : Except Cause Value} {slots : List Slot} {s : State}
    (h : closeWith kept slots = .ok s) : s.Enclosed := by
  cases kept with
  | error cause => simp [closeWith] at h
  | ok v =>
    have hs : place (deliver v slots) = s := by simpa [closeWith] using h
    exact hs ▸ enclosed_deliver v slots

theorem enclosed_openValue {shape : Shape} {slots : List Slot} {c : Char} {s : State}
    (hvalue : (place (.value shape slots)).Enclosed) (h : openValue shape slots c = .ok s) :
    s.Enclosed := by
  unfold openValue at h
  repeat' split at h
  all_goals first
    | (cases h; exact enclosed_of_none rfl)
    | (cases h; exact hvalue)
    | cases h

theorem Enclosed.stepSolid {p : Place} {c : Char} {s : State} (hp : (place p).Enclosed)
    (h : p.stepSolid c = .ok s) : s.Enclosed := by
  cases p with
  | value shape slots => exact enclosed_openValue hp h
  | row row turn slots =>
    simp only [Place.stepSolid, Row.step] at h
    repeat' split at h
    all_goals first
      | exact enclosed_closeWith h
      | exact enclosed_openValue (enclosed_cons rfl) h
      | (cases h; exact enclosed_of_none rfl)
      | cases h
  | block block turn slots =>
    simp only [Place.stepSolid, Block.step] at h
    repeat' split at h
    all_goals first
      | exact enclosed_closeWith h
      | (cases h; exact enclosed_of_none rfl)
      | cases h
  | colon block name slots =>
    simp only [Place.stepSolid] at h
    split at h
    · cases h
      exact enclosed_cons rfl
    · cases h
  | repeated name => cases h
  | done v => cases h

theorem Enclosed.placeStep {p : Place} {c : Char} {s : State} (hp : (place p).Enclosed)
    (h : p.step c = .ok s) : s.Enclosed := by
  rw [Place.step] at h
  split at h
  · cases h
    exact hp
  · exact hp.stepSolid h

theorem Enclosed.step {s s' : State} {c : Char} (hs : s.Enclosed) (h : s.step c = .ok s') :
    s'.Enclosed := by
  cases s with
  | place p => exact hs.placeStep h
  | word left v shape slots =>
    cases left with
    | nil => cases h
    | cons d left =>
      simp only [State.step] at h
      repeat' split at h
      · cases h
      · exact enclosed_scalar h
      · cases h
        exact enclosed_of_none rfl
  | number n shape slots =>
    simp only [State.step, bind, Except.bind] at h
    repeat' split at h
    · cases h
    · cases h
      exact hs
    · next haccept => exact (enclosed_acceptNumber haccept).placeStep h
    · cases h
  | string q shape slots =>
    simp only [State.step, bind, Except.bind] at h
    repeat' split at h
    · cases h
    · cases h
      exact enclosed_of_none rfl
    · exact enclosed_scalar h
  | name q block slots =>
    simp only [State.step, bind, Except.bind] at h
    repeat' split at h
    · cases h
    · cases h
      exact enclosed_of_none rfl
    · cases h
      rw [acceptName]
      split <;> exact enclosed_of_none rfl

theorem Enclosed.after? {s s' : State} {text : List Char} (hs : s.Enclosed)
    (h : s.after? text = some s') : s'.Enclosed := by
  induction text generalizing s with
  | nil =>
    cases h
    exact hs
  | cons c cs ih =>
    rw [State.after?] at h
    cases hstep : s.step c with
    | error refusal => simp [hstep, Except.toOption] at h
    | ok next => exact ih (hs.step hstep) (by simpa [hstep, Except.toOption] using h)

/-- A document that may end here was closed by its last bracket. -/
theorem Enclosed.eq_done {s : State} {v : Value} (hs : s.Enclosed) (h : s.finish = .ok v) :
    s = place (.done v) := by
  cases s with
  | place p =>
    cases p with
    | done w =>
      cases h
      rfl
    | row row turn slots =>
      cases turn with
      | opened | filled => cases h
      | comma =>
        simp only [State.finish, Place.finish] at h
        split at h <;> cases h
    | block block turn slots => cases turn <;> cases h
    | value | colon | repeated => cases h
  | number n shape slots =>
    exfalso
    simp only [State.finish, bind, Except.bind] at h
    split at h
    · cases h
    · split at h
      · cases h
      · next p haccept =>
        obtain ⟨_, haccept⟩ := exists_of_acceptNumber haccept
        obtain ⟨kept, hkept, rfl⟩ := exists_of_accept haccept
        rcases slots with _ | ⟨_ | _, slots⟩
        · cases shape with
          | record => cases hkept
          | any | passed | optionalText | list => cases hs _ rfl
        · cases h
        · cases h
  | word | string | name => cases h

/-- Behind a whole document, only blanks are read. -/
theorem isSpace_of_reads?_done {v w : Value} {text : List Char}
    (h : (place (.done v)).reads? text = some w) : ∀ c ∈ text, isSpace c = true := by
  induction text with
  | nil => exact fun c hc => absurd hc List.not_mem_nil
  | cons c cs ih =>
    by_cases hc : isSpace c = true
    · rw [reads?_blank _ hc] at h
      exact List.forall_mem_cons.2 ⟨hc, ih h⟩
    · rw [reads?_solid _ (by simpa using hc)] at h
      cases h

end State

/-- If a text can be read, and more of it too, then no more than blanks were added. -/
theorem isSpace_of_reads?_append {shape : Shape} (hshape : shape.isRecord = true)
    {text rest : List Char} {v w : Value}
    (htext : (State.place (.value shape [])).reads? text = some v)
    (hall : (State.place (.value shape [])).reads? (text ++ rest) = some w) :
    ∀ c ∈ rest, isSpace c = true := by
  have hbegin : (State.place (.value shape [])).Enclosed := by
    rintro _ ⟨⟩
    exact hshape
  obtain ⟨s, hafter, hfinish⟩ := Option.bind_eq_some_iff.1 htext
  have hdone := (hbegin.after? hafter).eq_done (toOption_eq_some.1 hfinish)
  rw [State.reads?_append, hafter, hdone] at hall
  exact State.isSpace_of_reads?_done hall

end InlineCheck.Json
