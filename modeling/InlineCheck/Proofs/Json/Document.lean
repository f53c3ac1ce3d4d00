import InlineCheck.Proofs.Json.Tree

/-!
# Documents

A text that is read is the text of a tree: whatever the shape, the reader accepts nothing that
is not put together from words, lexemes, brackets and gaps.

The cut is made from left to right.  `exists_tree` and its companions say of each place where a
reader can stand what the text must begin with; what follows a value is then read as
`Tree.reads?_text` says.
-/

namespace InlineCheck.Json

/-- A text begins with a gap, if only an empty one. -/
theorem exists_gap (text : List Char) :
    ∃ (gap : Gap) (rest : List Char), text = gap.chars ++ rest ∧
      ∀ c ∈ rest.head?, isSpace c = false := by
  refine ⟨⟨text.takeWhile isSpace, fun c hc => ?_⟩, text.dropWhile isSpace,
    List.takeWhile_append_dropWhile.symm, fun c hc => ?_⟩
  · exact List.all_eq_true.1 List.all_takeWhile c hc
  · have := List.head?_dropWhile_not isSpace text
    rw [Option.mem_def.1 hc] at this
    simpa using this

/-- What is read behind a value begins with what may stand there. -/
theorem delimited_of_reads? {v w : Value} {slots : List Slot} {rest : List Char}
    (h : (State.place (deliver v slots)).reads? rest = some w) : Numeral.Delimited rest := by
  intro c hc
  obtain ⟨cs, rfl⟩ := List.head?_eq_some_iff.1 hc
  refine Decidable.or_iff_not_imp_left.2 fun hblank => ?_
  rw [reads?_solid _ (by simpa using hblank)] at h
  refine Decidable.or_iff_not_imp_left.2 fun hcomma => ?_
  refine Decidable.or_iff_not_imp_left.2 fun hbracket => ?_
  refine Decidable.byContradiction fun hbrace => ?_
  rcases slots with _ | ⟨row | ⟨block, name⟩, slots⟩
  · cases h
  · cases hnext : (row.add v).next? <;>
      simp [deliver, Place.stepSolid, Row.step, hnext, hcomma, hbracket, Except.toOption] at h
  · simp [deliver, Place.stepSolid, Block.step, hcomma, hbrace, Except.toOption] at h

/-- Behind a comma, an item must begin. -/
theorem reads?_comma_item (row : Row) (slots : List Slot) (text : List Char) :
    (State.place (.row row .comma slots)).reads? text =
      row.next?.bind fun shape =>
        (State.place (.value shape (.item row :: slots))).reads? text := by
  obtain ⟨gap, rest, rfl, hrest⟩ := exists_gap text
  simp only [reads?_gap]
  rcases rest with _ | ⟨c, cs⟩
  · cases hnext : row.next? <;>
      simp [State.reads?_nil, State.finish, Place.finish, hnext, Except.toOption]
  · exact reads?_item row slots cs (by decide) (hrest c rfl) fun h => by cases h

theorem delimited_of_settle {v w : Value} {shape : Shape} {slots : List Slot} {rest : List Char}
    (h : settle shape slots rest v = some w) : Numeral.Delimited rest := by
  obtain ⟨kept, _, hrest⟩ := Option.bind_eq_some_iff.1 h
  exact delimited_of_reads? hrest

theorem exists_word {d : Char} {left : List Char} {v w : Value} {shape : Shape}
    {slots : List Slot} {text : List Char}
    (h : (State.word (d :: left) v shape slots).reads? text = some w) :
    ∃ rest, text = d :: left ++ rest ∧ Numeral.Delimited rest := by
  obtain ⟨rest, rfl⟩ := exists_of_reads?_word h
  rw [reads?_word] at h
  exact ⟨rest, rfl, delimited_of_settle h⟩

theorem exists_string {kept : Bool} {w : Value} {shape : Shape} {slots : List Slot}
    {text : List Char} (h : (State.string (.start kept) shape slots).reads? text = some w) :
    ∃ (x : Quote.Lexeme) (rest : List Char), text = x.chars ++ rest ∧
      Numeral.Delimited rest := by
  rw [reads?_string] at h
  obtain ⟨⟨s, rest⟩, hsplit, hsettle⟩ := Option.bind_eq_some_iff.1 h
  obtain ⟨x, rfl⟩ := Quote.exists_lexeme hsplit
  exact ⟨x, rest, rfl, delimited_of_settle hsettle⟩

theorem exists_number {c : Char} {n : Numeral} {w : Value} {shape : Shape} {slots : List Slot}
    {text : List Char} (hstart : Numeral.start? c = some n)
    (h : (State.number n shape slots).reads? text = some w) :
    ∃ (x : Numeral.Lexeme) (rest : List Char), x.first = c ∧ text = x.chars ++ rest ∧
      Numeral.Delimited rest := by
  rw [reads?_number] at h
  obtain ⟨⟨m, rest⟩, hsplit, haccept⟩ := Option.bind_eq_some_iff.1 h
  obtain ⟨x, hfirst, _, rfl⟩ := Numeral.exists_lexeme hstart hsplit
  obtain ⟨p, hp, hrest⟩ := Option.bind_eq_some_iff.1 haccept
  obtain ⟨v, hv⟩ := exists_of_acceptNumber (toOption_eq_some.1 hp)
  obtain ⟨kept, _, rfl⟩ := exists_of_accept hv
  exact ⟨x, rest, hfirst, rfl, delimited_of_reads? hrest⟩

/-- A number or word or string, once its first character was read. -/
theorem exists_scalar {c : Char} {cs : List Char} {w : Value} {shape : Shape} {slots : List Slot}
    (hbracket : c ≠ '[') (hbrace : c ≠ '\x7b')
    (h : ((openValue shape slots c).toOption.bind fun s => s.reads? cs) = some w) :
    ∃ (t : Tree) (rest : List Char), c :: cs = t.text ++ rest ∧ Numeral.Delimited rest := by
  obtain ⟨s, hs, hread⟩ := Option.bind_eq_some_iff.1 h
  rw [toOption_eq_some, openValue.eq_def, if_neg hbracket, if_neg hbrace] at hs
  split at hs
  · next hc =>
    cases hs
    obtain ⟨rest, rfl, hrest⟩ := exists_word hread
    exact ⟨.null, rest, by rw [hc]; rfl, hrest⟩
  split at hs
  · next hc =>
    cases hs
    obtain ⟨rest, rfl, hrest⟩ := exists_word hread
    exact ⟨.bool true, rest, by rw [hc]; rfl, hrest⟩
  split at hs
  · next hc =>
    cases hs
    obtain ⟨rest, rfl, hrest⟩ := exists_word hread
    exact ⟨.bool false, rest, by rw [hc]; rfl, hrest⟩
  split at hs
  · next hc =>
    cases hs
    obtain ⟨x, rest, rfl, hrest⟩ := exists_string hread
    exact ⟨.string x, rest, by rw [hc]; rfl, hrest⟩
  split at hs
  · next n hstart =>
    cases hs
    obtain ⟨x, rest, hfirst, rfl, hrest⟩ := exists_number hstart hread
    exact ⟨.number x, rest, by rw [Tree.text, hfirst]; rfl, hrest⟩
  · cases hs

theorem length_text_pos (t : Tree) : 0 < t.text.length := by
  obtain ⟨c, cs, htext, _⟩ := t.exists_text_eq_cons
  simp [htext]

-- The texts get shorter behind an opening bracket, an item and a name.
mutual

/-- A text begins with a value if it can be read where one must begin. -/
theorem exists_tree (text : List Char) (shape : Shape) (slots : List Slot) (w : Value)
    (h : (State.place (.value shape slots)).reads? text = some w) :
    ∃ (gap : Gap) (t : Tree) (rest : List Char), text = gap.chars ++ (t.text ++ rest) ∧
      Numeral.Delimited rest := by
  obtain ⟨gap, body, htext, hbody⟩ := exists_gap text
  rw [htext, reads?_gap] at h
  rcases body with _ | ⟨c, cs⟩
  · cases h
  have hshorter : cs.length < text.length := by simp [htext]; omega
  rw [reads?_solid _ (hbody c rfl)] at h
  by_cases hbracket : c = '['
  · rw [hbracket, Place.stepSolid, openValue_bracket] at h
    split at h
    · obtain ⟨s, hs, hread⟩ := Option.bind_eq_some_iff.1 h
      obtain ⟨row, _, rfl⟩ := Option.map_eq_some_iff.1 hs
      obtain ⟨gap', items, rest, hcs, hrest⟩ :=
        exists_items cs row .opened (by decide) slots w hread
      exact ⟨gap, .array gap' items, rest, by simp [htext, hbracket, hcs, Tree.text, Tree.lead],
        hrest⟩
    · cases h
  by_cases hbrace : c = '\x7b'
  · rw [hbrace, Place.stepSolid, openValue_brace] at h
    split at h
    · obtain ⟨s, hs, hread⟩ := Option.bind_eq_some_iff.1 h
      obtain ⟨block, _, rfl⟩ := Option.map_eq_some_iff.1 hs
      obtain ⟨gap', members, rest, hcs, hrest⟩ :=
        exists_members cs block .opened (by decide) slots w hread
      exact ⟨gap, .object gap' members, rest, by simp [htext, hbrace, hcs, Tree.text, Tree.lead],
        hrest⟩
    · cases h
  obtain ⟨t, rest, hcs, hrest⟩ := exists_scalar hbracket hbrace h
  exact ⟨gap, t, rest, by rw [htext, hcs], hrest⟩
termination_by 3 * text.length

/-- A text begins with an item and those behind it if it can be read where an item must
begin. -/
theorem exists_item (text : List Char) (row : Row) (slots : List Slot) (w : Value)
    (h : (row.next?.bind fun shape =>
      (State.place (.value shape (.item row :: slots))).reads? text) = some w) :
    ∃ (before : Gap) (item : Tree) (after : Gap) (items : List (Padded Tree)) (rest : List Char),
      text = before.chars ++ (item.text ++ (after.chars ++
        (Tree.itemsText [','] items ++ ']' :: rest))) ∧ Numeral.Delimited rest := by
  obtain ⟨shape, _, hread⟩ := Option.bind_eq_some_iff.1 h
  obtain ⟨before, item, behind, htext, hbehind⟩ := exists_tree text shape _ w hread
  rw [htext, reads?_gap, item.reads?_text shape _ hbehind] at hread
  obtain ⟨v, _, hread⟩ := Option.bind_eq_some_iff.1 hread
  have hshorter : behind.length < text.length := by
    have := length_text_pos item
    simp [htext]
    omega
  obtain ⟨after, items, rest, hcut, hrest⟩ :=
    exists_items behind (row.add v) .filled (by decide) slots w hread
  exact ⟨before, item, after, items, rest, by rw [htext, hcut]; rfl, hrest⟩
termination_by 3 * text.length + 1

/-- A text begins with the items of an array to its end, if it can be read inside the array. -/
theorem exists_items (text : List Char) (row : Row) (turn : Turn) (hturn : turn ≠ .comma)
    (slots : List Slot) (w : Value)
    (h : (State.place (.row row turn slots)).reads? text = some w) :
    ∃ (gap : Gap) (items : List (Padded Tree)) (rest : List Char),
      text = gap.chars ++ (Tree.itemsText (Tree.lead turn) items ++ ']' :: rest) ∧
      Numeral.Delimited rest := by
  obtain ⟨gap, body, htext, hbody⟩ := exists_gap text
  rw [htext, reads?_gap] at h
  rcases body with _ | ⟨c, cs⟩
  · cases turn with
    | comma => exact absurd rfl hturn
    | opened | filled => cases h
  have hshorter : cs.length < text.length := by simp [htext]; omega
  have hwhole : (c :: cs).length ≤ text.length := by simp [htext]
  by_cases hc : c = ']'
  · rw [hc, reads?_bracket row slots cs hturn] at h
    obtain ⟨v, _, hread⟩ := Option.bind_eq_some_iff.1 h
    exact ⟨gap, [], cs, by rw [htext, hc]; rfl, delimited_of_reads? hread⟩
  cases turn with
  | comma => exact absurd rfl hturn
  | opened =>
    rw [reads?_item row slots cs (show Turn.opened ≠ .filled by decide) (hbody c rfl) fun _ => hc]
      at h
    obtain ⟨before, item, after, items, rest, hcs, hrest⟩ := exists_item (c :: cs) row slots w h
    exact ⟨gap, ⟨before, item, after⟩ :: items, rest, by
      simp [htext, hcs, Tree.itemsText, Tree.lead], hrest⟩
  | filled =>
    obtain rfl : c = ',' := by
      refine Decidable.byContradiction fun hcomma => ?_
      rw [reads?_solid _ (hbody c rfl)] at h
      cases hnext : row.next? <;>
        simp [Place.stepSolid, Row.step, hnext, hc, hcomma, Except.toOption] at h
    rw [reads?_row_comma, reads?_comma_item] at h
    obtain ⟨before, item, after, items, rest, hcs, hrest⟩ := exists_item cs row slots w h
    exact ⟨gap, ⟨before, item, after⟩ :: items, rest, by
      simp [htext, hcs, Tree.itemsText, Tree.lead], hrest⟩
termination_by 3 * text.length + 2

/-- A text begins with the rest of a member and those behind it if it can be read behind the
quote of a name. -/
theorem exists_member (text : List Char) (block : Block) (slots : List Slot) (w : Value)
    (h : (State.name (.start block.keeps) block slots).reads? text = some w) :
    ∃ (name : Quote.Lexeme) (after before' : Gap) (value : Tree) (after' : Gap)
      (members : List Member) (rest : List Char),
      text = name.chars ++ (after.chars ++ ':' :: (before'.chars ++ (value.text ++
        (after'.chars ++ (Tree.membersText [','] members ++ '\x7d' :: rest))))) ∧
      Numeral.Delimited rest := by
  rw [reads?_name] at h
  obtain ⟨⟨s, behind⟩, hsplit, hread⟩ := Option.bind_eq_some_iff.1 h
  obtain ⟨name, htext⟩ := Quote.exists_lexeme hsplit
  obtain ⟨after, body, hbehind, hbody⟩ := exists_gap behind
  simp only [acceptName, hbehind] at hread
  split at hread
  · rw [reads?_repeated] at hread
    cases hread
  rw [reads?_gap] at hread
  rcases body with _ | ⟨c, cs⟩
  · cases hread
  obtain rfl : c = ':' := by
    refine Decidable.byContradiction fun hcolon => ?_
    rw [reads?_solid _ (hbody c rfl), Place.stepSolid, if_neg hcolon] at hread
    cases hread
  rw [reads?_colon] at hread
  have hshorter : cs.length < text.length := by simp [htext, hbehind]; omega
  obtain ⟨before', value, behind', hcs, hbehind'⟩ := exists_tree cs _ _ w hread
  rw [hcs, reads?_gap, value.reads?_text _ _ hbehind'] at hread
  obtain ⟨v, _, hread⟩ := Option.bind_eq_some_iff.1 hread
  have hshorter' : behind'.length < cs.length := by
    have := length_text_pos value
    simp [hcs]
    omega
  obtain ⟨after', members, rest, hcut, hrest⟩ :=
    exists_members behind' (block.add s v) .filled (by decide) slots w hread
  exact ⟨name, after, before', value, after', members, rest, by
    rw [htext, hbehind, hcs, hcut]; rfl, hrest⟩
termination_by 3 * text.length + 1

/-- A text begins with the members of an object to its end, if it can be read inside the
object. -/
theorem exists_members (text : List Char) (block : Block) (turn : Turn) (hturn : turn ≠ .comma)
    (slots : List Slot) (w : Value)
    (h : (State.place (.block block turn slots)).reads? text = some w) :
    ∃ (gap : Gap) (members : List Member) (rest : List Char),
      text = gap.chars ++ (Tree.membersText (Tree.lead turn) members ++ '\x7d' :: rest) ∧
      Numeral.Delimited rest := by
  obtain ⟨gap, body, htext, hbody⟩ := exists_gap text
  rw [htext, reads?_gap] at h
  rcases body with _ | ⟨c, cs⟩
  · cases turn with
    | comma => exact absurd rfl hturn
    | opened | filled => cases h
  have hshorter : cs.length < text.length := by simp [htext]; omega
  by_cases hc : c = '\x7d'
  · rw [hc, reads?_brace block slots cs hturn] at h
    obtain ⟨v, _, hread⟩ := Option.bind_eq_some_iff.1 h
    exact ⟨gap, [], cs, by rw [htext, hc]; rfl, delimited_of_reads? hread⟩
  cases turn with
  | comma => exact absurd rfl hturn
  | opened =>
    obtain rfl : c = '"' := by
      refine Decidable.byContradiction fun hquote => ?_
      rw [reads?_solid _ (hbody c rfl)] at h
      simp [Place.stepSolid, Block.step, hc, hquote, Except.toOption] at h
    rw [reads?_quote block slots cs (show Turn.opened ≠ .filled by decide)] at h
    obtain ⟨name, after, before', value, after', members, rest, hcs, hrest⟩ :=
      exists_member cs block slots w h
    exact ⟨gap, (⟨⟨[], by simp⟩, name, after⟩, ⟨before', value, after'⟩) :: members, rest, by
      simp [htext, hcs, Tree.membersText, Tree.lead], hrest⟩
  | filled =>
    obtain rfl : c = ',' := by
      refine Decidable.byContradiction fun hcomma => ?_
      rw [reads?_solid _ (hbody c rfl)] at h
      simp [Place.stepSolid, Block.step, hc, hcomma, Except.toOption] at h
    rw [reads?_block_comma] at h
    obtain ⟨before, body, hcs, hbody⟩ := exists_gap cs
    rw [hcs, reads?_gap] at h
    rcases body with _ | ⟨d, ds⟩
    · cases h
    obtain rfl : d = '"' := by
      refine Decidable.byContradiction fun hquote => ?_
      rw [reads?_solid _ (hbody d rfl), Place.stepSolid, Block.step, if_neg hquote] at h
      split at h <;> cases h
    rw [reads?_quote block slots ds (show Turn.comma ≠ .filled by decide)] at h
    have hshorter' : ds.length < cs.length := by simp [hcs]; omega
    obtain ⟨name, after, before', value, after', members, rest, hds, hrest⟩ :=
      exists_member ds block slots w h
    exact ⟨gap, (⟨before, name, after⟩, ⟨before', value, after'⟩) :: members, rest, by
      simp [htext, hcs, hds, Tree.membersText, Tree.lead], hrest⟩
termination_by 3 * text.length + 2

end

/-! ## Whole documents -/

/-- The characters of a document. -/
def Padded.text (doc : Padded Tree) : List Char :=
  doc.before.chars ++ (doc.content.text ++ doc.after.chars)

/-- What is kept of a document is what is kept of its tree. -/
theorem toOption_read_text (shape : Shape) (doc : Padded Tree) :
    (shape.read doc.text).toOption = doc.content.read 0 shape := by
  have hafter : Numeral.Delimited doc.after.chars := fun c hc =>
    .inl (doc.after.blank c (List.mem_of_mem_head? hc))
  have hend : ∀ v, (State.place (.done v)).reads? doc.after.chars = some v := by
    intro v
    have := reads?_gap doc.after [] (.done v)
    rw [List.append_nil] at this
    exact this
  rw [Shape.toOption_read, Padded.text, reads?_gap, doc.content.reads?_text shape [] hafter]
  simp [deliver, hend]

/-- A text that is read is the text of a tree. -/
theorem exists_document {shape : Shape} {text : List Char} {v : Value}
    (h : shape.read text = .ok v) : ∃ doc : Padded Tree, doc.text = text := by
  rw [← toOption_eq_some, Shape.toOption_read] at h
  obtain ⟨before, t, rest, rfl, hrest⟩ := exists_tree text shape [] v h
  rw [reads?_gap, t.reads?_text shape [] hrest] at h
  obtain ⟨w, _, hend⟩ := Option.bind_eq_some_iff.1 h
  exact ⟨⟨before, t, rest, State.isSpace_of_reads?_done hend⟩, rfl⟩

end InlineCheck.Json
