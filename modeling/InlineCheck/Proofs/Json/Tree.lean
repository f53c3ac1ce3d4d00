import InlineCheck.Proofs.Json.Lexeme

/-!
# The tree of a text

A `Tree` is a JSON text cut into its parts, with every character of it: the blanks, the words,
the lexemes, and the members of an object in their order, also those of one name.
`Tree.text` puts it together again.

`Tree.read` says what a shape makes of a tree.  It goes down the tree with the same rows and
blocks that the reader keeps in its slots, so that it differs from the reader in one thing
only: it needs no slots, as it does call itself.

The result is `Tree.reads?_text`: the reader makes of the text of a tree what `Tree.read` makes of
the tree, whatever follows it.  It is put together from the steps that the reader takes between
values.
-/

namespace InlineCheck.Json

/-- Blanks between the parts of a text. -/
structure Gap where
  chars : List Char
  blank : ∀ c ∈ chars, isSpace c = true

/-- A part of a text with the blanks around it. -/
structure Padded (α : Type) where
  before : Gap
  content : α
  after : Gap

/-- A value as it is written.  An array or object without any item or member holds one gap. -/
inductive Tree
  | null
  | bool (b : Bool)
  | number (x : Numeral.Lexeme)
  | string (x : Quote.Lexeme)
  | array (gap : Gap) (items : List (Padded Tree))
  | object (gap : Gap) (members : List (Padded Quote.Lexeme × Padded Tree))

/-- A member of an object as it is written. -/
abbrev Member := Padded Quote.Lexeme × Padded Tree

namespace Tree

mutual

/-- The characters of a value. -/
def text : Tree → List Char
  | null => 'n' :: ['u', 'l', 'l']
  | bool true => 't' :: ['r', 'u', 'e']
  | bool false => 'f' :: ['a', 'l', 's', 'e']
  | number x => x.first :: x.chars
  | string x => '"' :: x.chars
  | array gap items => '[' :: (gap.chars ++ (itemsText [] items ++ [']']))
  | object gap members => '\x7b' :: (gap.chars ++ (membersText [] members ++ ['\x7d']))

/-- The characters of items; `lead` is what stands in front of the first one. -/
def itemsText (lead : List Char) : List (Padded Tree) → List Char
  | [] => []
  | ⟨before, item, after⟩ :: rest =>
    lead ++ (before.chars ++ (item.text ++ (after.chars ++ itemsText [','] rest)))

/-- The characters of members; `lead` is what stands in front of the first one. -/
def membersText (lead : List Char) : List Member → List Char
  | [] => []
  | (⟨before, name, after⟩, ⟨before', value, after'⟩) :: rest =>
    lead ++ (before.chars ++ '"' :: (name.chars ++ (after.chars ++ ':' ::
      (before'.chars ++ (value.text ++ (after'.chars ++ membersText [','] rest))))))

end

mutual

/-- What is kept of a value where one of the shape is wanted inside so many containers. -/
def read (depth : Nat) (shape : Shape) : Tree → Option Value
  | null => (shape.scalar .null).toOption
  | bool b => (shape.scalar (.bool b)).toOption
  | number x => (x.read shape.keeps).bind fun v => (shape.scalar v).toOption
  | string x => (x.read shape.keeps).bind fun s => (shape.scalar (.string s)).toOption
  | array _ items =>
    if shape.fits depth then shape.row?.bind fun row => readItems (depth + 1) row items
    else none
  | object _ members =>
    if shape.fits depth then shape.block?.bind fun block => readMembers (depth + 1) block members
    else none

/-- What is kept of an array with these items to come. -/
def readItems (depth : Nat) (row : Row) : List (Padded Tree) → Option Value
  | [] => row.close.toOption
  | ⟨_, item, _⟩ :: rest =>
    row.next?.bind fun shape =>
      (item.read depth shape).bind fun v => readItems depth (row.add v) rest

/-- What is kept of an object with these members to come. -/
def readMembers (depth : Nat) (block : Block) : List Member → Option Value
  | [] => block.close.toOption
  | (⟨_, name, _⟩, ⟨_, value, _⟩) :: rest =>
    (name.read block.keeps).bind fun name =>
      if block.repeats name then none
      else (value.read depth (block.shape name)).bind fun v =>
        readMembers depth (block.add name v) rest

end

end Tree

/-! ## Steps between values -/

section Steps

variable (row : Row) (block : Block) (slots : List Slot) (gap : Gap) (text : List Char)

theorem reads?_gap (p : Place) :
    (State.place p).reads? (gap.chars ++ text) = (State.place p).reads? text :=
  reads?_blanks p gap.blank text

theorem reads?_closeWith (kept : Except Cause Value) :
    ((closeWith kept slots).toOption.bind fun s => s.reads? text) =
      kept.toOption.bind fun v => (State.place (deliver v slots)).reads? text := by
  cases kept <;> rfl

theorem reads?_bracket {turn : Turn} (hturn : turn ≠ .comma) :
    (State.place (.row row turn slots)).reads? (']' :: text) =
      row.close.toOption.bind fun v => (State.place (deliver v slots)).reads? text := by
  rw [reads?_solid _ rfl, ← reads?_closeWith]
  cases turn with
  | comma => exact absurd rfl hturn
  | opened | filled => cases hnext : row.next? <;> simp [Place.stepSolid, Row.step, hnext]

theorem reads?_row_comma :
    (State.place (.row row .filled slots)).reads? (',' :: text) =
      (State.place (.row row .comma slots)).reads? text := by
  refine State.reads?_cons_ok ?_
  cases hnext : row.next? <;>
    simp [State.step, Place.step, isSpace, Place.stepSolid, Row.step, hnext]

/-- Behind a comma that no item may follow, nothing is read any more. -/
theorem reads?_overfull (hnext : row.next? = none) :
    (State.place (.row row .comma slots)).reads? text = none := by
  induction text with
  | nil => simp [State.reads?_nil, State.finish, Place.finish, hnext, Except.toOption]
  | cons c cs ih =>
    cases hc : isSpace c with
    | true => rw [reads?_blank _ hc, ih]
    | false =>
      rw [reads?_solid _ hc]
      simp [Place.stepSolid, Row.step, hnext, Except.toOption]

/-- Where an item may begin, it is read as a value of the next shape. -/
theorem reads?_item {turn : Turn} (hturn : turn ≠ .filled) {c : Char} (hsolid : isSpace c = false)
    (hc : turn = .opened → c ≠ ']') :
    (State.place (.row row turn slots)).reads? (c :: text) =
      row.next?.bind fun shape =>
        (State.place (.value shape (.item row :: slots))).reads? (c :: text) := by
  simp only [reads?_solid _ hsolid, Place.stepSolid]
  cases hnext : row.next? with
  | none =>
    cases turn with
    | filled => exact absurd rfl hturn
    | comma => simp [Row.step, hnext, Except.toOption]
    | opened =>
      by_cases hcomma : c = ','
      · simp [Row.step, hnext, hcomma, Except.toOption, reads?_overfull row slots text hnext]
      · simp [Row.step, hnext, hc rfl, hcomma, Except.toOption]
  | some shape =>
    cases turn with
    | filled => exact absurd rfl hturn
    | opened => simp [Row.step, hnext, hc rfl]
    | comma =>
      by_cases hbracket : c = ']' ∧ shape.keeps = true
      · obtain ⟨rfl, hkeeps⟩ := hbracket
        simp [Row.step, hnext, hkeeps, Except.toOption, openValue, Numeral.start?, Numeral.digit?]
      · simp [Row.step, hnext, hbracket]

theorem reads?_brace {turn : Turn} (hturn : turn ≠ .comma) :
    (State.place (.block block turn slots)).reads? ('\x7d' :: text) =
      block.close.toOption.bind fun v => (State.place (deliver v slots)).reads? text := by
  rw [reads?_solid _ rfl, ← reads?_closeWith]
  cases turn with
  | comma => exact absurd rfl hturn
  | opened | filled => rfl

theorem reads?_block_comma :
    (State.place (.block block .filled slots)).reads? (',' :: text) =
      (State.place (.block block .comma slots)).reads? text :=
  State.reads?_cons_ok rfl

theorem reads?_quote {turn : Turn} (hturn : turn ≠ .filled) :
    (State.place (.block block turn slots)).reads? ('"' :: text) =
      (State.name (.start block.keeps) block slots).reads? text := by
  refine State.reads?_cons_ok ?_
  cases turn with
  | filled => exact absurd rfl hturn
  | opened | comma => rfl

theorem reads?_colon (name : String) :
    (State.place (.colon block name slots)).reads? (':' :: text) =
      (State.place (.value (block.shape name) (.member block name :: slots))).reads? text :=
  State.reads?_cons_ok rfl

/-- Behind a name that the record has already, nothing is read any more. -/
theorem reads?_repeated (name : String) : (State.place (.repeated name)).reads? text = none := by
  induction text with
  | nil => rfl
  | cons c cs ih =>
    cases hc : isSpace c with
    | true => rw [reads?_blank _ hc, ih]
    | false =>
      rw [reads?_solid _ hc]
      rfl

end Steps

/-! ## The text of a tree -/

/-- A character that a number can begin with begins nothing else. -/
theorem Numeral.Lexeme.openValue_first (x : Numeral.Lexeme) (shape : Shape) (slots : List Slot) :
    openValue shape slots x.first = .ok (.number x.begun shape slots) ∧
      isSpace x.first = false ∧ x.first ≠ ']' := by
  have hstart := x.start_eq
  have hne : ∀ c, Numeral.start? c = none → x.first ≠ c := by
    rintro c hc rfl
    rw [hc] at hstart
    cases hstart
  simp [openValue, isSpace, hstart, hne 'n' rfl, hne 't' rfl, hne 'f' rfl, hne '"' rfl,
    hne '[' rfl, hne '\x7b' rfl, hne ' ' rfl, hne '\t' rfl, hne '\n' rfl, hne '\r' rfl,
    hne ']' rfl]

namespace Tree

/-- A value begins with a character that cannot stand between values. -/
theorem exists_text_eq_cons (t : Tree) :
    ∃ c cs, t.text = c :: cs ∧ isSpace c = false ∧ c ≠ ']' := by
  cases t with
  | null => exact ⟨_, _, rfl, by decide⟩
  | bool b => cases b <;> exact ⟨_, _, rfl, by decide⟩
  | number x => exact ⟨_, _, rfl, (x.openValue_first .any []).2⟩
  | string x => exact ⟨_, _, rfl, by decide⟩
  | array gap items => exact ⟨_, _, rfl, by decide⟩
  | object gap members => exact ⟨_, _, rfl, by decide⟩

variable (depth : Nat) (shape : Shape) (slots : List Slot)

theorem reads?_null (rest : List Char) :
    (State.place (.value shape slots)).reads? (null.text ++ rest) =
      (null.read slots.length shape).bind fun v =>
        (State.place (deliver v slots)).reads? rest := by
  rw [text, List.cons_append, reads?_solid _ rfl]
  exact reads?_word 'u' ['l', 'l'] .null shape slots rest

theorem reads?_bool (b : Bool) (rest : List Char) :
    (State.place (.value shape slots)).reads? ((bool b).text ++ rest) =
      ((bool b).read slots.length shape).bind fun v =>
        (State.place (deliver v slots)).reads? rest := by
  cases b with
  | true =>
    rw [text, List.cons_append, reads?_solid _ rfl]
    exact reads?_word 'r' ['u', 'e'] (.bool true) shape slots rest
  | false =>
    rw [text, List.cons_append, reads?_solid _ rfl]
    exact reads?_word 'a' ['l', 's', 'e'] (.bool false) shape slots rest

theorem reads?_string (x : Quote.Lexeme) (rest : List Char) :
    (State.place (.value shape slots)).reads? ((string x).text ++ rest) =
      ((string x).read slots.length shape).bind fun v =>
        (State.place (deliver v slots)).reads? rest := by
  rw [text, List.cons_append, reads?_solid _ rfl]
  show (State.string (.start shape.keeps) shape slots).reads? (x.chars ++ rest) = _
  rw [Json.reads?_string, Quote.split?_lexeme, read]
  cases x.read shape.keeps <;> rfl

theorem reads?_number (x : Numeral.Lexeme) {rest : List Char} (hrest : Numeral.Delimited rest) :
    (State.place (.value shape slots)).reads? ((number x).text ++ rest) =
      ((number x).read slots.length shape).bind fun v =>
        (State.place (deliver v slots)).reads? rest := by
  obtain ⟨hopen, hsolid, _⟩ := x.openValue_first shape slots
  rw [text, List.cons_append, reads?_solid _ hsolid, Place.stepSolid, hopen]
  show (State.number x.begun shape slots).reads? (x.chars ++ rest) = _
  rw [Json.reads?_number, Numeral.split?_lexeme x shape.keeps hrest, read, Numeral.Lexeme.read]
  cases hkeeps : shape.keeps with
  | true =>
    cases x.begun.split? true x.chars with
    | none => rfl
    | some y =>
      simp only [Option.map_some, Option.bind_some, acceptNumber, hkeeps, if_true]
      cases y.1.value with
      | error cause => rfl
      | ok n => exact (settle_eq shape slots rest (.number n)).symm
  | false =>
    obtain ⟨m, hsplit⟩ := x.split?_passed
    simp only [hsplit, Option.map_some, Option.bind_some, acceptNumber, hkeeps,
      Bool.false_eq_true, if_false]
    exact (settle_eq shape slots rest .null).symm

/-- What is in front of the first item or member to come: nothing, or a comma. -/
def lead : Turn → List Char
  | .filled => [',']
  | _ => []

theorem delimited_after (gap : Gap) {c : Char} (hc : c = ',' ∨ c = ']' ∨ c = '\x7d')
    (text : List Char) : Numeral.Delimited (gap.chars ++ c :: text) := by
  intro d hd
  cases hchars : gap.chars with
  | nil =>
    obtain rfl : c = d := by simpa [hchars] using hd
    exact .inr hc
  | cons e es =>
    obtain rfl : e = d := by simpa [hchars] using hd
    exact .inl (gap.blank e (by simp [hchars]))

theorem delimited_items (gap : Gap) (items : List (Padded Tree)) (text : List Char) :
    Numeral.Delimited (gap.chars ++ (itemsText [','] items ++ ']' :: text)) := by
  cases items with
  | nil => exact delimited_after gap (.inr (.inl rfl)) text
  | cons item rest => exact delimited_after gap (.inl rfl) _

theorem delimited_members (gap : Gap) (members : List Member) (text : List Char) :
    Numeral.Delimited (gap.chars ++ (membersText [','] members ++ '\x7d' :: text)) := by
  cases members with
  | nil => exact delimited_after gap (.inr (.inr rfl)) text
  | cons member rest => exact delimited_after gap (.inl rfl) _

theorem reads?_array_text (gap : Gap) (items : List (Padded Tree)) (rest : List Char) :
    (State.place (.value shape slots)).reads? ((array gap items).text ++ rest) =
      if shape.fits slots.length then
        shape.row?.bind fun row =>
          (State.place (.row row .opened slots)).reads? (itemsText [] items ++ ']' :: rest)
      else none := by
  rw [text, List.cons_append, reads?_solid _ rfl, Place.stepSolid, openValue_bracket]
  split
  · cases shape.row? with
    | none => rfl
    | some row =>
      simp only [Option.map_some, Option.bind_some, List.append_assoc, List.singleton_append]
      exact reads?_gap gap _ _
  · rfl

theorem reads?_object_text (gap : Gap) (members : List Member) (rest : List Char) :
    (State.place (.value shape slots)).reads? ((object gap members).text ++ rest) =
      if shape.fits slots.length then
        shape.block?.bind fun block =>
          (State.place (.block block .opened slots)).reads?
            (membersText [] members ++ '\x7d' :: rest)
      else none := by
  rw [text, List.cons_append, reads?_solid _ rfl, Place.stepSolid, openValue_brace]
  split
  · cases shape.block? with
    | none => rfl
    | some block =>
      simp only [Option.map_some, Option.bind_some, List.append_assoc, List.singleton_append]
      exact reads?_gap gap _ _
  · rfl

/-- The first of the items to come is read as a value of the next shape. -/
theorem reads?_items_cons (row : Row) {turn : Turn} (hturn : turn ≠ .comma) (before after : Gap)
    (item : Tree) (items : List (Padded Tree)) (rest : List Char) :
    (State.place (.row row turn slots)).reads?
        (itemsText (lead turn) (⟨before, item, after⟩ :: items) ++ rest) =
      row.next?.bind fun shape =>
        (State.place (.value shape (.item row :: slots))).reads?
          (item.text ++ (after.chars ++ (itemsText [','] items ++ rest))) := by
  have hitem : ∀ turn ≠ Turn.filled, (State.place (.row row turn slots)).reads?
        (before.chars ++ (item.text ++ (after.chars ++ (itemsText [','] items ++ rest)))) =
      row.next?.bind fun shape =>
        (State.place (.value shape (.item row :: slots))).reads?
          (item.text ++ (after.chars ++ (itemsText [','] items ++ rest))) := by
    intro turn hturn
    obtain ⟨c, cs, htext, hsolid, hbracket⟩ := item.exists_text_eq_cons
    rw [reads?_gap, htext]
    exact reads?_item row slots _ hturn hsolid fun _ => hbracket
  simp only [itemsText, List.append_assoc]
  cases turn with
  | comma => exact absurd rfl hturn
  | opened => exact hitem .opened (by decide)
  | filled =>
    rw [lead, List.singleton_append, reads?_row_comma]
    exact hitem .comma (by decide)

/-- The first of the members to come is read as a name and a value of the shape that the block
has for it. -/
theorem reads?_members_cons (block : Block) {turn : Turn} (hturn : turn ≠ .comma)
    (before after before' after' : Gap) (name : Quote.Lexeme) (value : Tree)
    (members : List Member) (rest : List Char) :
    (State.place (.block block turn slots)).reads?
        (membersText (lead turn) ((⟨before, name, after⟩, ⟨before', value, after'⟩) :: members) ++
          rest) =
      (name.read block.keeps).bind fun name =>
        if block.repeats name then none
        else (State.place (.value (block.shape name) (.member block name :: slots))).reads?
          (value.text ++ (after'.chars ++ (membersText [','] members ++ rest))) := by
  have hmember : ∀ turn ≠ Turn.filled, (State.place (.block block turn slots)).reads?
        (before.chars ++ '"' :: (name.chars ++ (after.chars ++ ':' :: (before'.chars ++
          (value.text ++ (after'.chars ++ (membersText [','] members ++ rest))))))) =
      (name.read block.keeps).bind fun name =>
        if block.repeats name then none
        else (State.place (.value (block.shape name) (.member block name :: slots))).reads?
          (value.text ++ (after'.chars ++ (membersText [','] members ++ rest))) := by
    intro turn hturn
    rw [reads?_gap, reads?_quote block slots _ hturn, reads?_name, Quote.split?_lexeme]
    cases name.read block.keeps with
    | none => rfl
    | some s =>
      simp only [Option.map_some, Option.bind_some, acceptName]
      split
      · exact reads?_repeated _ s
      · rw [reads?_gap, reads?_colon, reads?_gap]
  simp only [membersText, List.append_assoc, List.cons_append]
  cases turn with
  | comma => exact absurd rfl hturn
  | opened => exact hmember .opened (by decide)
  | filled =>
    rw [lead, List.cons_append, reads?_block_comma]
    exact hmember .comma (by decide)

-- The induction is on the tree.  Where `read` goes one container deeper, the reader has one slot
-- more.
mutual

/-- The reader makes of the text of a tree what is made of the tree. -/
theorem reads?_text (t : Tree) (shape : Shape) (slots : List Slot) {rest : List Char}
    (hrest : Numeral.Delimited rest) :
    (State.place (.value shape slots)).reads? (t.text ++ rest) =
      (t.read slots.length shape).bind fun v =>
        (State.place (deliver v slots)).reads? rest := by
  cases t with
  | null => exact reads?_null shape slots rest
  | bool b => exact reads?_bool shape slots b rest
  | number x => exact reads?_number shape slots x hrest
  | string x => exact reads?_string shape slots x rest
  | array gap items =>
    rw [reads?_array_text, read]
    split
    · cases shape.row? with
      | none => rfl
      | some row =>
        exact reads?_itemsText items row (show Turn.opened ≠ .comma by decide) slots rest
    · rfl
  | object gap members =>
    rw [reads?_object_text, read]
    split
    · cases shape.block? with
      | none => rfl
      | some block =>
        exact reads?_membersText members block (show Turn.opened ≠ .comma by decide) slots rest
    · rfl

theorem reads?_itemsText (items : List (Padded Tree)) (row : Row) {turn : Turn}
    (hturn : turn ≠ .comma) (slots : List Slot) (rest : List Char) :
    (State.place (.row row turn slots)).reads? (itemsText (lead turn) items ++ ']' :: rest) =
      (readItems (slots.length + 1) row items).bind fun v =>
        (State.place (deliver v slots)).reads? rest := by
  match items with
  | [] => exact reads?_bracket row slots rest hturn
  | ⟨before, item, after⟩ :: items =>
    rw [reads?_items_cons slots row hturn, readItems]
    cases row.next? with
    | none => rfl
    | some shape =>
      rw [Option.bind_some, Option.bind_some, Option.bind_assoc,
        reads?_text item shape _ (delimited_items after items rest)]
      refine Option.bind_congr fun v _ => ?_
      rw [deliver, reads?_gap]
      exact reads?_itemsText items (row.add v) (show Turn.filled ≠ .comma by decide) slots rest

theorem reads?_membersText (members : List Member) (block : Block)
    {turn : Turn} (hturn : turn ≠ .comma) (slots : List Slot) (rest : List Char) :
    (State.place (.block block turn slots)).reads?
        (membersText (lead turn) members ++ '\x7d' :: rest) =
      (readMembers (slots.length + 1) block members).bind fun v =>
        (State.place (deliver v slots)).reads? rest := by
  match members with
  | [] => exact reads?_brace block slots rest hturn
  | (⟨before, name, after⟩, ⟨before', value, after'⟩) :: members =>
    rw [reads?_members_cons slots block hturn, readMembers, Option.bind_assoc]
    refine Option.bind_congr fun s _ => ?_
    split
    · rfl
    · rw [Option.bind_assoc, reads?_text value _ _ (delimited_members after' members rest)]
      refine Option.bind_congr fun v _ => ?_
      rw [deliver, reads?_gap]
      exact reads?_membersText members (block.add s v) (show Turn.filled ≠ .comma by decide) slots
        rest

end

end Tree

end InlineCheck.Json
