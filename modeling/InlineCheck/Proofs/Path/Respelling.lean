import InlineCheck.Proofs.Path.Components
import Mathlib.Logic.Relation

/-!
# Spellings of a path

A path has many spellings.  One comes from another by slashes that are repeated, dots that do
not come first, and a slash at the end, put in or taken away at any place and any number of
times (`Path.Respelled`).  Nothing else keeps the components: a dot that comes first, a step to
the directory above and the slash of the root are components themselves.

* `Padded.componentsOf_eq`: what is put in adds no component.
* `plain` is one spelling for each list of components, and `eqvGen_plain` leads from any text to
  the plain spelling of its components.
* `respelled_iff` puts the two together: the spellings of a path are the paths with its
  components.
-/

namespace InlineCheck

/-- The text of the component that a part stands for is the part. -/
theorem Component.text_of_ofPart? {part : List Char} {c : Component}
    (h : Component.ofPart? part = some c) : c.text.toList = part := by
  unfold ofPart? at h
  split at h
  · simp at h
  · simp at h
  · cases h
    rfl
  · cases h
    exact String.toList_ofList

/-- Nothing between two slashes, and a dot, are what adds no component. -/
theorem Component.ofPart?_eq_none_iff {part : List Char} :
    Component.ofPart? part = none ↔ part = [] ∨ part = ['.'] := by
  unfold ofPart?
  split <;> simp_all

/-- A first part that is not empty is a component whose text it is, whether or not a slash comes
after it. -/
theorem Component.exists_ofFirst? {first : List Char} (h : first ≠ []) :
    ∃ c, (∀ alone, Component.ofFirst? alone first = some c) ∧ c ≠ .root ∧
      c.text.toList = first := by
  by_cases hdot : first = ['.']
  · subst hdot
    exact ⟨.here, fun _ => rfl, by simp, rfl⟩
  · have hfirst : ∀ alone, Component.ofFirst? alone first = Component.ofPart? first := by
      intro alone
      unfold ofFirst?
      split <;> simp_all
    cases hpart : Component.ofPart? first with
    | none => exact absurd (Component.ofPart?_eq_none_iff.1 hpart) (not_or.2 ⟨h, hdot⟩)
    | some c =>
      refine ⟨c, fun alone => (hfirst alone).trans hpart, ?_, Component.text_of_ofPart? hpart⟩
      intro hroot
      subst hroot
      unfold ofPart? at hpart
      split at hpart <;> simp at hpart

namespace Path

/-! ## What adds no component -/

/-- The second text is the first one with something put in that adds no component. -/
inductive Padded : List Char → List Char → Prop
  /-- A slash is repeated. -/
  | slash (before after : List Char) :
      Padded (before ++ '/' :: after) (before ++ '/' :: '/' :: after)
  /-- A dot comes between two slashes. -/
  | dot (before after : List Char) :
      Padded (before ++ '/' :: after) (before ++ '/' :: '.' :: '/' :: after)
  /-- A slash comes at the end. -/
  | endSlash {text : List Char} (h : text ≠ []) : Padded text (text ++ ['/'])
  /-- A slash and a dot come at the end. -/
  | endDot {text : List Char} (h : text ≠ []) : Padded text (text ++ ['/', '.'])

/-- The two paths are spellings of one path. -/
def Respelled (p q : Path) : Prop :=
  Relation.EqvGen Padded p.text.toList q.text.toList

theorem joinParts_parts (cs : List Char) : joinParts (parts cs).1 (parts cs).2 = cs := by
  induction cs with
  | nil => rfl
  | cons c cs ih =>
    unfold parts
    by_cases hc : c = '/'
    · simpa [hc, joinParts] using ih
    · simpa [hc, joinParts] using ih

theorem componentsOf_append_slash (before after : List Char) :
    componentsOf (before ++ '/' :: after) =
      (Component.ofFirst? false (parts before).1).toList ++
        (parts before).2.filterMap Component.ofPart? ++ below after := by
  have hmore : ((parts before).2 ++ (parts after).1 :: (parts after).2).isEmpty = false := by
    simp
  simp only [componentsOf, parts_append_slash, hmore, below, List.filterMap_append,
    List.append_assoc]

/-- What stands behind a last slash may be no component; then the slash is none either. -/
theorem componentsOf_append_silent {text after : List Char} (htext : text ≠ [])
    (hafter : below after = []) : componentsOf (text ++ '/' :: after) = componentsOf text := by
  rw [componentsOf_append_slash, hafter, List.append_nil, componentsOf]
  by_cases hrest : (parts text).2 = []
  · have hfirst : (parts text).1 ≠ [] := by
      intro hnil
      have hjoin := joinParts_parts text
      rw [hnil, hrest] at hjoin
      exact htext hjoin.symm
    obtain ⟨c, hc, -⟩ := Component.exists_ofFirst? hfirst
    simp only [hc]
  · have halone : (parts text).2.isEmpty = false := by simpa using hrest
    simp only [halone]

theorem Padded.componentsOf_eq {xs ys : List Char} (h : Padded xs ys) :
    componentsOf xs = componentsOf ys := by
  cases h with
  | slash before after =>
    have hbelow : below ('/' :: after) = below after := below_append_slash [] after
    rw [componentsOf_append_slash, componentsOf_append_slash, hbelow]
  | dot before after =>
    have hbelow : below ('.' :: '/' :: after) = below after := below_append_slash ['.'] after
    rw [componentsOf_append_slash, componentsOf_append_slash, hbelow]
  | endSlash htext => exact (componentsOf_append_silent htext rfl).symm
  | endDot htext => exact (componentsOf_append_silent htext rfl).symm

/-! ## The plain spelling -/

/-- Components with a slash before each of them. -/
def slashed (cs : List Component) : List Char :=
  cs.flatMap fun c => '/' :: c.text.toList

/-- The spelling of components in which no slash and no dot is idle. -/
def plain : List Component → List Char
  | [] => []
  | [.root] => ['/']
  | .root :: c :: rest => slashed (c :: rest)
  | c :: rest => c.text.toList ++ slashed rest

theorem plain_of_ne_root {c : Component} (hc : c ≠ .root) (rest : List Component) :
    plain (c :: rest) = c.text.toList ++ slashed rest := by
  cases c with
  | root => exact absurd rfl hc
  | here | up | name text => rfl

/-- A part that is no component can be put in behind a slash, and at the end of a text that is
not empty. -/
theorem padded_part (before : List Char) {part : List Char} {rest : List (List Char)}
    (hpart : Component.ofPart? part = none) (hplace : before ≠ [] ∨ rest ≠ []) :
    Padded (before ++ rest.flatMap ('/' :: ·)) (before ++ (part :: rest).flatMap ('/' :: ·)) := by
  cases rest with
  | cons next rest =>
    rcases Component.ofPart?_eq_none_iff.1 hpart with rfl | rfl
    · exact .slash before _
    · exact .dot before _
  | nil =>
    have hbefore : before ≠ [] := by simpa using hplace
    rcases Component.ofPart?_eq_none_iff.1 hpart with rfl | rfl
    · simpa using Padded.endSlash hbefore
    · simpa using Padded.endDot hbefore

theorem eqvGen_part (before : List Char) {part : List Char} {rest : List (List Char)}
    (hpart : Component.ofPart? part = none) (hplace : before ≠ [] ∨ rest ≠ []) :
    Relation.EqvGen Padded (before ++ (part :: rest).flatMap ('/' :: ·))
      (before ++ rest.flatMap ('/' :: ·)) :=
  .symm _ _ (.rel _ _ (padded_part before hpart hplace))

/-- Behind something, all parts that are no components can be left out. -/
theorem eqvGen_slashed {before : List Char} (hbefore : before ≠ []) (rest : List (List Char)) :
    Relation.EqvGen Padded (before ++ rest.flatMap ('/' :: ·))
      (before ++ slashed (rest.filterMap Component.ofPart?)) := by
  induction rest generalizing before with
  | nil => exact .refl _
  | cons part rest ih =>
    cases hpart : Component.ofPart? part with
    | some c =>
      have htext := Component.text_of_ofPart? hpart
      have hmore : before ++ '/' :: part ≠ [] := by simp
      simpa [hpart, slashed, htext] using ih hmore
    | none =>
      rw [List.filterMap_cons_none hpart]
      exact (eqvGen_part before hpart (.inl hbefore)).trans _ _ _ (ih hbefore)

/-- Behind the root, too; the slash of the root stays. -/
theorem eqvGen_plain_root {rest : List (List Char)} (hrest : rest ≠ []) :
    Relation.EqvGen Padded (rest.flatMap ('/' :: ·))
      (plain (.root :: rest.filterMap Component.ofPart?)) := by
  induction rest with
  | nil => exact absurd rfl hrest
  | cons part rest ih =>
    cases hpart : Component.ofPart? part with
    | some c =>
      have htext := Component.text_of_ofPart? hpart
      have hfirst : '/' :: part ≠ [] := by simp
      simpa [hpart, slashed, htext, plain] using eqvGen_slashed hfirst rest
    | none =>
      rw [List.filterMap_cons_none hpart]
      by_cases hmore : rest = []
      · -- Only the root is left.  Its slash cannot go, so it is written twice first.
        subst hmore
        have hone : [part] ≠ [] := by simp
        have hroot : ['/'] ≠ [] := by simp
        have hdouble : Padded ([part].flatMap ('/' :: ·)) ([[], part].flatMap ('/' :: ·)) :=
          padded_part [] rfl (.inr hone)
        exact .trans _ _ _ (.rel _ _ hdouble) (eqvGen_part ['/'] hpart (.inl hroot))
      · exact (eqvGen_part [] hpart (.inr hmore)).trans _ _ _ (ih hmore)

/-- Every text is a spelling of what is plain for its components. -/
theorem eqvGen_plain (cs : List Char) : Relation.EqvGen Padded cs (plain (componentsOf cs)) := by
  have hjoin := joinParts_parts cs
  rcases hparts : parts cs with ⟨first, rest⟩
  have hcomponents : componentsOf cs =
      (Component.ofFirst? rest.isEmpty first).toList ++ rest.filterMap Component.ofPart? := by
    rw [componentsOf, hparts]
  rw [hcomponents]
  rw [hparts] at hjoin
  subst hjoin
  by_cases hfirst : first = []
  · subst hfirst
    by_cases hrest : rest = []
    · subst hrest
      exact .refl _
    · have halone : rest.isEmpty = false := by simpa using hrest
      rw [halone]
      exact eqvGen_plain_root hrest
  · obtain ⟨c, hc, hroot, htext⟩ := Component.exists_ofFirst? hfirst
    rw [hc, Option.toList_some, List.singleton_append, plain_of_ne_root hroot, htext]
    exact eqvGen_slashed hfirst rest

/-- The spellings of a path are the paths with its components. -/
theorem respelled_iff {p q : Path} : p.Respelled q ↔ p.components = q.components := by
  constructor
  · intro h
    have hequiv : Equivalence fun xs ys => componentsOf xs = componentsOf ys :=
      eq_equivalence.comap componentsOf
    exact hequiv.eqvGen_iff.1 (Relation.EqvGen.mono (fun _ _ => Padded.componentsOf_eq) _ _ h)
  · intro h
    have hq : Relation.EqvGen Padded q.text.toList (plain p.components) := by
      rw [h]
      exact eqvGen_plain q.text.toList
    exact (eqvGen_plain p.text.toList).trans _ _ _ (hq.symm _ _)

instance (p q : Path) : Decidable (p.Respelled q) :=
  decidable_of_iff (p.components = q.components) respelled_iff.symm

/-- Dots that come first and steps to the directory above are no matter of spelling. -/
example : (Path.mk "/p//./a.js/.").Respelled ⟨"/p/a.js"⟩ ∧
    ¬ (Path.mk "./a.js").Respelled ⟨"a.js"⟩ ∧ ¬ (Path.mk "b/../a.js").Respelled ⟨"a.js"⟩ := by
  decide

end Path

end InlineCheck
