import Mathlib.Data.List.Basic

/-!
# What came last

A state that is made by events one after the other often has a flag that one kind of event sets
and another kind takes back.  `Since` says in terms of the events alone that the flag is set, and
`since_concat` is the step of an induction over the events.

What an event does may depend on the state in which it came, so properties of an event see all
events in front of it.
-/

namespace InlineCheck

/-- One of the events has the first property, and none of the later ones has the second one. -/
def Since {α : Type} (p q : List α → α → Prop) (events : List α) : Prop :=
  ∃ before e rest, events = before ++ e :: rest ∧ p before e ∧
    ∀ between later more, rest = between ++ later :: more → ¬ q (before ++ e :: between) later

variable {α : Type} {p q : List α → α → Prop}

theorem not_since_nil : ¬ Since p q [] := by
  intro ⟨before, e, rest, h, _⟩
  simp at h

/-- With one more event, either that has the first property, or an earlier one has it and the
last one has not the second one. -/
theorem since_concat (events : List α) (e : α) :
    Since p q (events ++ [e]) ↔ p events e ∨ Since p q events ∧ ¬ q events e := by
  constructor
  · intro ⟨before, first, rest, hevents, hp, hq⟩
    rcases rest.eq_nil_or_concat' with rfl | ⟨rest, last, rfl⟩
    · obtain ⟨hbefore, hfirst⟩ := List.append_singleton_inj.1 hevents
      subst hbefore hfirst
      exact .inl hp
    · rw [← List.cons_append, ← List.append_assoc, List.append_singleton_inj] at hevents
      obtain ⟨hbefore, hlast⟩ := hevents
      subst hbefore hlast
      refine .inr ⟨⟨before, first, rest, rfl, hp, ?_⟩, hq rest e [] rfl⟩
      intro between later more hrest
      exact hq between later (more ++ [e]) (by simp [hrest])
  · intro h
    apply h.elim
    · intro hp
      refine ⟨events, e, [], rfl, hp, ?_⟩
      intro between later more hrest
      simp at hrest
    · intro ⟨⟨before, first, rest, hevents, hp, hq⟩, hlast⟩
      subst hevents
      refine ⟨before, first, rest ++ [e], by simp, hp, ?_⟩
      intro between later more hrest
      rcases more.eq_nil_or_concat' with rfl | ⟨more, last, rfl⟩
      · obtain ⟨hbetween, hlater⟩ := List.append_singleton_inj.1 hrest
        subst hbetween hlater
        exact hlast
      · rw [← List.cons_append, ← List.append_assoc, List.append_singleton_inj] at hrest
        exact hq between later more hrest.1

end InlineCheck
