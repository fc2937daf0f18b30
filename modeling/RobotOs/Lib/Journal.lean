import Mathlib.Data.List.Basic

/-!
# Journals

A journal is the list of the events of a run, the oldest first.  `why e pre`
says what the events `pre` must show for the event `e` to be in order, and
`Justified why` says that every event of the journal is in order.

The events that must have come before, in their order, are a sublist of the
journal, so that `why` only grows with it.
-/

namespace RobotOs.Lib.Journal

variable {E : Type} {why : E → List E → Prop} {log : List E} {e : E}

/-- Every event is in order, given the events before it. -/
def Justified (why : E → List E → Prop) (log : List E) : Prop :=
  ∀ pre e post, log = pre ++ e :: post → why e pre

theorem justified_nil : Justified why [] := by
  intro pre e post h
  simp at h

/-- A journal grows by an event that is in order. -/
theorem Justified.snoc (h : Justified why log) (he : why e log) : Justified why (log ++ [e]) := by
  intro pre f post hsplit
  rcases List.eq_nil_or_concat post with rfl | ⟨post, g, rfl⟩
  · obtain ⟨rfl, hlast⟩ := List.append_inj' hsplit rfl
    obtain rfl := List.singleton_inj.mp hlast
    exact he
  · rw [List.concat_eq_append, ← List.cons_append, ← List.append_assoc] at hsplit
    exact h pre f post (List.append_inj' hsplit rfl).1

/-- What the journal shows, it shows after another event. -/
theorem sublist_snoc {shown : List E} (h : List.Sublist shown log) :
    List.Sublist shown (log ++ [e]) :=
  h.trans (List.sublist_append_left log [e])

/-- A new event is shown after the ones that were. -/
theorem sublist_snoc_snoc {shown : List E} (h : List.Sublist shown log) :
    List.Sublist (shown ++ [e]) (log ++ [e]) :=
  h.append (List.Sublist.refl [e])

end RobotOs.Lib.Journal
