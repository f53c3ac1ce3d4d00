import InlineCheck.Path
import Mathlib.Data.List.DropRight

/-!
# Components of paths that are put together

A path is compared by its components, but it is taken apart and put together as a text.  This
module says what the operations on the text do to the components.  All of it is about absolute
paths, which are those that a search for a project goes along.

* `parts_append_slash` and `parts_joinParts` say what the parts of a text are that is put together.
* `below` are the components of what follows a slash, and `components_of_slash` says that an
  absolute path has these and the root.
* `components_join` and `parent?_cases` are the two results.
-/

namespace InlineCheck.Path

/-! ## Parts of a text -/

theorem slash_notMem_parts (cs : List Char) :
    '/' ∉ (parts cs).1 ∧ ∀ part ∈ (parts cs).2, '/' ∉ part := by
  induction cs with
  | nil => simp [parts]
  | cons c cs ih =>
    unfold parts
    by_cases hc : c = '/'
    · simpa [hc] using ih
    · simpa [hc, Ne.symm hc] using ih

theorem parts_of_notMem {cs : List Char} (h : '/' ∉ cs) : parts cs = (cs, []) := by
  induction cs with
  | nil => rfl
  | cons c cs ih =>
    simp only [List.mem_cons, not_or] at h
    simp [parts, ih h.2, Ne.symm h.1]

/-- A slash ends the last part of what comes before it. -/
theorem parts_append_slash (xs ys : List Char) :
    parts (xs ++ '/' :: ys) =
      ((parts xs).1, (parts xs).2 ++ (parts ys).1 :: (parts ys).2) := by
  induction xs with
  | nil => simp [parts]
  | cons x xs ih =>
    rw [List.cons_append, parts, ih, parts]
    by_cases hx : x = '/' <;> simp [hx]

theorem parts_joinParts {first : List Char} {rest : List (List Char)} (hfirst : '/' ∉ first)
    (hrest : ∀ part ∈ rest, '/' ∉ part) : parts (joinParts first rest) = (first, rest) := by
  induction rest generalizing first with
  | nil => simp [joinParts, parts_of_notMem hfirst]
  | cons part rest ih =>
    have hjoin : joinParts first (part :: rest) = first ++ '/' :: joinParts part rest := by
      simp [joinParts]
    rw [hjoin, parts_append_slash, parts_of_notMem hfirst, ih (hrest part (by simp))]
    · rfl
    · intro other hother
      exact hrest other (by simp [hother])

/-! ## Components below a slash -/

/-- The components of a text that follows a slash. -/
def below (cs : List Char) : List Component :=
  ((parts cs).1 :: (parts cs).2).filterMap Component.ofPart?

theorem below_append_slash (xs ys : List Char) :
    below (xs ++ '/' :: ys) = below xs ++ below ys := by
  simp only [below, parts_append_slash, ← List.cons_append, List.filterMap_append]

theorem below_nil : below [] = [] := rfl

/-- Below a slash there are names, and steps to the directory above. -/
theorem eq_of_mem_below {cs : List Char} {c : Component} (hc : c ∈ below cs) :
    c = .up ∨ ∃ text, c = .name text := by
  obtain ⟨part, _, hpart⟩ := List.mem_filterMap.1 hc
  unfold Component.ofPart? at hpart
  split at hpart
  · simp at hpart
  · simp at hpart
  · exact .inl (Option.some.inj hpart).symm
  · exact .inr ⟨_, (Option.some.inj hpart).symm⟩

theorem components_of_slash {p : Path} {cs : List Char} (htext : p.text.toList = '/' :: cs) :
    p.components = .root :: below cs := by
  rw [components, htext, componentsOf, parts]
  rfl

/-- An absolute path is a slash and what comes below it. -/
theorem exists_slash {p : Path} (habs : p.isAbsolute = true) :
    ∃ cs, p.text.toList = '/' :: cs := by
  rw [isAbsolute, beq_iff_eq] at habs
  exact List.head?_eq_some_iff.1 habs

theorem isAbsolute_of_slash {p : Path} {cs : List Char} (htext : p.text.toList = '/' :: cs) :
    p.isAbsolute = true := by
  simp [isAbsolute, htext]

/-- What an absolute path adds to another one are names, and steps to the directory above. -/
theorem eq_of_mem_added {p q : Path} (hp : p.isAbsolute = true) (hq : q.isAbsolute = true)
    {added : List Component} (hcomponents : p.components = q.components ++ added) {c : Component}
    (hc : c ∈ added) : c = .up ∨ ∃ text, c = .name text := by
  obtain ⟨cs, hcs⟩ := exists_slash hp
  obtain ⟨ds, hds⟩ := exists_slash hq
  rw [components_of_slash hcs, components_of_slash hds, List.cons_append] at hcomponents
  have hbelow : c ∈ below cs := by
    rw [(List.cons.inj hcomponents).2]
    exact List.mem_append_right _ hc
  exact eq_of_mem_below hbelow

/-! ## Putting together -/

/-- A relative path is put below an absolute one. -/
theorem components_join {p q : Path} (hp : p.isAbsolute = true) (hq : q.isAbsolute = false) :
    (p.join q).isAbsolute = true ∧
      (p.join q).components = p.components ++ below q.text.toList := by
  obtain ⟨cs, hcs⟩ := exists_slash hp
  have hbelow : ∃ ds, (p.join q).text.toList = '/' :: ds ∧
      below ds = below cs ++ below q.text.toList := by
    rcases cs.eq_nil_or_concat' with rfl | ⟨before, c, rfl⟩
    · exact ⟨q.text.toList, by simp [join, hq, hcs], rfl⟩
    have hlast : ('/' :: (before ++ [c])).getLast? = some c :=
      List.getLast?_concat (l := '/' :: before)
    by_cases hc : c = '/'
    · subst hc
      refine ⟨before ++ '/' :: q.text.toList, by simp [join, hq, hcs, hlast], ?_⟩
      rw [below_append_slash, below_append_slash, below_nil, List.append_nil]
    · refine ⟨before ++ [c] ++ '/' :: q.text.toList, by simp [join, hq, hcs, hlast, hc], ?_⟩
      rw [below_append_slash]
  obtain ⟨ds, hds, hbelow⟩ := hbelow
  refine ⟨isAbsolute_of_slash hds, ?_⟩
  rw [components_of_slash hds, components_of_slash hcs, hbelow, List.cons_append]

/-! ## Taking apart -/

theorem dropSilentEnd_concat (ps : List (List Char)) (last : List Char) :
    dropSilentEnd (ps ++ [last]) =
      if (Component.ofPart? last).isNone then dropSilentEnd ps else ps ++ [last] :=
  List.rdropWhile_concat isSilent ps last

/-- What is left of the parts ends with one that is a component, and nothing is lost. -/
theorem dropSilentEnd_cases (ps : List (List Char)) :
    dropSilentEnd ps = [] ∧ ps.filterMap Component.ofPart? = [] ∨
      ∃ kept last c, dropSilentEnd ps = kept ++ [last] ∧ kept ++ [last] <+: ps ∧
        Component.ofPart? last = some c ∧
        ps.filterMap Component.ofPart? = (kept ++ [last]).filterMap Component.ofPart? := by
  induction ps using List.reverseRecOn with
  | nil => exact .inl ⟨rfl, rfl⟩
  | append_singleton ps last ih =>
    rw [dropSilentEnd_concat]
    cases hlast : Component.ofPart? last with
    | none =>
      have hsame : (ps ++ [last]).filterMap Component.ofPart? =
          ps.filterMap Component.ofPart? := by
        simp [hlast]
      rw [if_pos Option.isNone_none, hsame]
      rcases ih with hnone | ⟨kept, part, c, hkept, hstart, hpart⟩
      · exact .inl hnone
      · exact .inr ⟨kept, part, c, hkept, hstart.trans (List.prefix_append ..), hpart⟩
    | some c =>
      rw [if_neg (by simp)]
      exact .inr ⟨ps, last, c, rfl, List.prefix_rfl, hlast, rfl⟩

/-- A path that is put together from parts has their components. -/
theorem components_joinParts {ps : List (List Char)} (hps : ps ≠ [])
    (hnoslash : ∀ part ∈ ps, '/' ∉ part) :
    let p : Path := ⟨String.ofList (joinParts [] ps)⟩
    p.isAbsolute = true ∧ p.components = .root :: ps.filterMap Component.ofPart? := by
  intro p
  obtain ⟨part, rest, rfl⟩ := List.exists_cons_of_ne_nil hps
  have htext : p.text.toList = '/' :: joinParts part rest := by
    simp [p, joinParts]
  obtain ⟨hpart, hrest⟩ := List.forall_mem_cons.1 hnoslash
  refine ⟨isAbsolute_of_slash htext, ?_⟩
  rw [components_of_slash htext, below, parts_joinParts hpart hrest]

/-- The parent is put together from all parts but the last one that is a component. -/
theorem parent?_of_dropSilentEnd {p : Path} {ps body : List (List Char)} {last : List Char}
    (hparts : parts p.text.toList = ([], ps)) (hdrop : dropSilentEnd ps = body ++ [last]) :
    p.parent? = match dropSilentEnd body with
      | [] => some ⟨"/"⟩
      | kept => some ⟨String.ofList (joinParts [] kept)⟩ := by
  simp only [parent?, hparts, hdrop]
  cases body with
  | nil => rfl
  | cons part rest =>
    have hinit : (part :: (rest ++ [last])).dropLast = part :: rest := by
      rw [← List.cons_append, List.dropLast_concat]
    rw [List.cons_append]
    simp only [hinit]
    cases dropSilentEnd (part :: rest) <;> rfl

/-- A path that is not the root lies in its parent, which is the path without its last
component. -/
theorem parent?_cases {p : Path} (hp : p.isAbsolute = true) :
    p.parent? = none ∧ p.components = [.root] ∨
      ∃ q c, p.parent? = some q ∧ q.isAbsolute = true ∧ p.components = q.components ++ [c] := by
  obtain ⟨cs, hcs⟩ := exists_slash hp
  have hparts : parts p.text.toList = ([], (parts cs).1 :: (parts cs).2) := by
    rw [hcs, parts]
    rfl
  have hnoslash : ∀ part ∈ (parts cs).1 :: (parts cs).2, '/' ∉ part := by
    simpa using slash_notMem_parts cs
  rw [components_of_slash hcs, below]
  rcases dropSilentEnd_cases ((parts cs).1 :: (parts cs).2) with ⟨hnone, hbelow⟩ |
    ⟨body, last, c, hdrop, hstart, hlast, hbelow⟩
  · exact .inl ⟨by simp [parent?, hparts, hnone], by rw [hbelow]⟩
  right
  have hc : Component.root :: (body ++ [last]).filterMap Component.ofPart? =
      .root :: body.filterMap Component.ofPart? ++ [c] := by
    simp [hlast]
  rw [parent?_of_dropSilentEnd hparts hdrop, hbelow, hc]
  rcases dropSilentEnd_cases body with ⟨hnone, hbody⟩ | ⟨kept, part, _, hkept, hsub, _, hbody⟩
  · refine ⟨⟨"/"⟩, c, by rw [hnone], rfl, ?_⟩
    rw [hbody]
    rfl
  · have hsame : ∀ other ∈ kept ++ [part], '/' ∉ other := by
      intro other hother
      have hbefore : other ∈ body ++ [last] :=
        List.mem_append_left _ (hsub.subset hother)
      exact hnoslash other (hstart.subset hbefore)
    obtain ⟨habs, hcomponents⟩ := components_joinParts (by simp) hsame
    refine ⟨⟨String.ofList (joinParts [] (kept ++ [part]))⟩, c, ?_, habs, ?_⟩
    · rw [hkept]
      cases kept <;> rfl
    · rw [hcomponents, hbody]

end InlineCheck.Path
