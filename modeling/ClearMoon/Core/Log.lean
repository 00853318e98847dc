import Mathlib

/-!
# Logs

A log is a list of events that grows at its end. Properties of the form "whatever holds of the log
before an event of this kind" are preserved by a new event when they hold of that event.
-/

namespace ClearMoon

variable {α : Type*} {log before after : List α} {x e : α}

/-- Where an event of a log stands that has grown by one: in the old log, or at the end. -/
theorem append_cons_eq_concat (h : before ++ x :: after = log ++ [e]) :
    (∃ after', after = after' ++ [e] ∧ log = before ++ x :: after') ∨
      (after = [] ∧ x = e ∧ log = before) := by
  rcases List.eq_nil_or_concat after with rfl | ⟨after', y, rfl⟩
  · obtain ⟨rfl, he⟩ := List.append_inj' h rfl
    exact .inr ⟨rfl, by simpa using he, rfl⟩
  · rw [List.concat_eq_append, ← List.cons_append, ← List.append_assoc] at h
    obtain ⟨rfl, he⟩ := List.append_inj' h rfl
    obtain rfl : y = e := by simpa using he
    exact .inl ⟨after', List.concat_eq_append, rfl⟩

/-- At every event of the log, `p` holds of the log before it. -/
def AtEvery (p : List α → α → Prop) (log : List α) : Prop :=
  ∀ before x after, log = before ++ x :: after → p before x

/-- There is nothing to check in an empty log. -/
theorem atEvery_nil {p : List α → α → Prop} : AtEvery p [] := by
  intro before x after h
  simp at h

/-- An event that is right about the events before it may be added. -/
theorem AtEvery.concat {p : List α → α → Prop} (h : AtEvery p log) (he : p log e) :
    AtEvery p (log ++ [e]) := by
  intro before x after hlog
  rcases append_cons_eq_concat hlog.symm with ⟨after', -, hbefore⟩ | ⟨-, rfl, rfl⟩
  · exact h before x after' hbefore
  · exact he

/-- The first part of a right log is right. -/
theorem AtEvery.of_append {p : List α → α → Prop} {es : List α} (h : AtEvery p (log ++ es)) :
    AtEvery p log := by
  rintro before x after rfl
  exact h before x (after ++ es) (by rw [List.append_assoc, List.cons_append])

/-- A log is right when it was right before its last event, and the event is. -/
theorem atEvery_concat {p : List α → α → Prop} :
    AtEvery p (log ++ [e]) ↔ AtEvery p log ∧ p log e :=
  ⟨fun h => ⟨h.of_append, h log e [] rfl⟩, fun h => h.1.concat h.2⟩

/-- Events that the property does not speak of may be appended. -/
theorem atEvery_append {p : List α → α → Prop} {es : List α} (hes : ∀ log, ∀ e ∈ es, p log e) :
    AtEvery p (log ++ es) ↔ AtEvery p log := by
  induction es using List.reverseRecOn with
  | nil => rw [List.append_nil]
  | append_singleton es e ih =>
    rw [← List.append_assoc, atEvery_concat,
      ih fun log x hx => hes log x (List.mem_append_left _ hx)]
    exact and_iff_left (hes _ e (List.mem_append_right _ (List.mem_singleton_self e)))

/-- A property of a log that does not see some events may be proved without them. -/
theorem AtEvery.of_filter {p : List α → α → Prop} {q : α → Bool} (h : AtEvery p (log.filter q))
    (hp : ∀ before x, (q x = true → p (before.filter q) x) → p before x) : AtEvery p log := by
  rintro before x after rfl
  refine hp before x fun hx => h (before.filter q) x (after.filter q) ?_
  rw [List.filter_append, List.filter_cons_of_pos hx]

end ClearMoon
