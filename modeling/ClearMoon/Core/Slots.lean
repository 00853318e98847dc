import Mathlib

/-!
# Slots of a list

A list of slots changes one slot at a time. What a sum over the slots gains by that, and what a
selection from them gains, is what the new content of the slot adds and the old one does not.
-/

namespace ClearMoon

variable {α β : Type*} {l : List α} {i : Nat} {x : α}

/-- A slot with its surroundings. -/
theorem exists_around (h : l[i]? = some x) :
    ∃ before behind, l = before ++ x :: behind ∧ ∀ y, l.set i y = before ++ y :: behind := by
  obtain ⟨hi, rfl⟩ := List.getElem?_eq_some_iff.mp h
  refine ⟨l.take i, l.drop (i + 1), ?_, fun y => ?_⟩
  · rw [List.getElem_cons_drop, List.take_append_drop]
  · rw [List.set_eq_take_append_cons_drop, if_pos hi]

/-- What is selected from the slots. -/
theorem perm_filterMap_set (f : α → Option β) (h : l[i]? = some x) (y : α) :
    ((f x).toList ++ (l.set i y).filterMap f).Perm ((f y).toList ++ l.filterMap f) := by
  obtain ⟨before, behind, hl, hset⟩ := exists_around h
  have hcons (z : α) : (z :: behind).filterMap f = (f z).toList ++ behind.filterMap f := by
    cases hz : f z <;> simp [hz]
  rw [hset, hl, List.filterMap_append, List.filterMap_append, hcons, hcons]
  rw [← Multiset.coe_eq_coe]
  simp only [← Multiset.coe_add]
  abel

/-- How many slots satisfy a predicate. -/
theorem countP_set_add (p : α → Bool) (h : l[i]? = some x) (y : α) :
    (l.set i y).countP p + (if p x then 1 else 0) = l.countP p + (if p y then 1 else 0) := by
  obtain ⟨before, behind, hl, hset⟩ := exists_around h
  rw [hset, hl, List.countP_append, List.countP_append, List.countP_cons, List.countP_cons]
  omega

end ClearMoon
