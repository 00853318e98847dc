import Mathlib

/-!
# First and last occurrences in a list

`search` is the first occurrence of a pattern, `rfind` the last occurrence of an element; the
first occurrence of an element is the library's `List.idxOf?`. An occurrence that has been found
stays the first one when the list grows behind it, and a delimiter that does not start inside a
word is found right after the word.
-/

namespace ClearMoon

variable {α : Type*} [DecidableEq α]

/-- The position of the first occurrence of a pattern. -/
def search (pat : List α) : List α → Option Nat
  | [] => if pat = [] then some 0 else none
  | a :: l => if pat <+: a :: l then some 0 else (search pat l).map (· + 1)

/-- The position of the last occurrence of an element. -/
def rfind (c : α) : List α → Option Nat
  | [] => none
  | a :: l =>
    match rfind c l with
    | some i => some (i + 1)
    | none => if a = c then some 0 else none

/-- An occurrence lies inside the list. -/
theorem search_le {pat l : List α} {i : Nat} (h : search pat l = some i) :
    i + pat.length ≤ l.length := by
  induction l generalizing i with
  | nil =>
    rw [search] at h
    split at h <;> simp_all
  | cons a l ih =>
    rw [search] at h
    split at h
    · rename_i hp
      obtain rfl := Option.some.inj h
      simpa using hp.length_le
    · obtain ⟨j, hj, rfl⟩ := Option.map_eq_some_iff.mp h
      have := ih hj
      simp only [List.length_cons]
      omega

/-- The first occurrence does not move when the list grows behind it. -/
theorem search_append {pat l : List α} {i : Nat} (h : search pat l = some i) (b : List α) :
    search pat (l ++ b) = some i := by
  induction l generalizing i with
  | nil =>
    rw [search] at h
    split at h
    · rename_i hp
      obtain rfl := Option.some.inj h
      subst hp
      cases b <;> simp [search]
    · contradiction
  | cons a l ih =>
    rw [search] at h
    rw [List.cons_append, search]
    split at h
    · rename_i hp
      rw [if_pos (by simpa using hp.trans (List.prefix_append (a :: l) b))]
      exact h
    · rename_i hp
      obtain ⟨j, hj, rfl⟩ := Option.map_eq_some_iff.mp h
      have hle := search_le hj
      rw [if_neg, ih hj]
      · rfl
      · rintro ⟨c, hc⟩
        refine hp (List.prefix_of_prefix_length_le ⟨c, hc⟩ (List.prefix_append (a :: l) b) ?_)
        simp only [List.length_cons]
        omega

/-- A pattern whose head does not occur before it is found where it stands. -/
theorem search_of_notMem {x : α} {pat before : List α} (hx : x ∉ before) (after : List α) :
    search (x :: pat) (before ++ (x :: pat) ++ after) = some before.length := by
  induction before with
  | nil => simp [search]
  | cons a before ih =>
    obtain ⟨hne, hx⟩ : ¬x = a ∧ x ∉ before := by simpa using hx
    rw [List.cons_append, List.cons_append, search, if_neg, ih hx]
    · rfl
    · rintro ⟨c, hc⟩
      exact hne (List.cons.inj hc).1

/-- A list that ends before the pattern does holds no occurrence of it. -/
theorem search_none_of_prefix {x : α} {pat before after l : List α} (hx : x ∉ before)
    (hl : l <+: before ++ (x :: pat) ++ after)
    (hlen : l.length < before.length + (x :: pat).length) : search (x :: pat) l = none := by
  cases hs : search (x :: pat) l with
  | none => rfl
  | some i =>
    obtain ⟨b, hb⟩ := hl
    have happ := search_append hs b
    rw [hb, search_of_notMem hx] at happ
    obtain rfl := Option.some.inj happ
    have := search_le hs
    omega

/-- An element that does not occur before is found where it stands. -/
theorem idxOf?_of_notMem {c : α} {before : List α} (hc : c ∉ before) (after : List α) :
    (before ++ c :: after).idxOf? c = some before.length := by
  induction before with
  | nil => simp [List.idxOf?_cons]
  | cons a before ih =>
    obtain ⟨hne, hc⟩ : ¬c = a ∧ c ∉ before := by simpa using hc
    rw [List.cons_append, List.idxOf?_cons, if_neg (by simpa using Ne.symm hne), ih hc]
    rfl

/-- A character is not found just where it is not there. -/
theorem rfind_eq_none_iff {c : α} {l : List α} : rfind c l = none ↔ c ∉ l := by
  induction l with
  | nil => simp [rfind]
  | cons a l ih =>
    rw [rfind, List.mem_cons, not_or]
    cases hr : rfind c l with
    | none =>
      have hc := ih.mp hr
      by_cases ha : a = c
      · simp [ha]
      · simp [ha, Ne.symm ha, hc]
    | some i =>
      have hc : c ∈ l := by
        by_contra hc
        rw [ih.mpr hc] at hr
        contradiction
      simp [hc]

/-- An element that does not occur behind is found last where it stands. -/
theorem rfind_of_notMem {c : α} {after : List α} (hc : c ∉ after) (before : List α) :
    rfind c (before ++ c :: after) = some before.length := by
  induction before with
  | nil => simp [rfind, rfind_eq_none_iff.mpr hc]
  | cons a before ih => rw [List.cons_append, rfind, ih]; rfl

end ClearMoon
