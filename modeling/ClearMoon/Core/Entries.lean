import Mathlib

/-!
# The entries of an ordered map around a key

Listed in order, the entries of a map fall into those before a key, the one that has it, if there is
one, and those behind it.
-/

namespace ClearMoon

variable {α β : Type*} {cmp : α → α → Ordering} [Std.TransCmp cmp]

/-- A list in strict order falls into what comes before a key, what has the key and what comes
behind it. -/
theorem split_of_sorted {l : List (α × β)} (h : l.Pairwise fun a b => cmp a.1 b.1 = .lt) (k : α) :
    l = l.filter (cmp ·.1 k = .lt) ++ (l.filter (cmp ·.1 k = .eq) ++
      l.filter (cmp ·.1 k = .gt)) := by
  induction l with
  | nil => rfl
  | cons a l ih =>
    obtain ⟨hhead, htail⟩ := List.pairwise_cons.mp h
    have hrest (hle : cmp a.1 k ≠ .lt) :
        l.filter (cmp ·.1 k = .lt) = [] ∧ l.filter (cmp ·.1 k = .eq) = [] := by
      have hgt (b : α × β) (hb : b ∈ l) : cmp b.1 k = .gt := by
        have hka : cmp k a.1 ≠ .gt := fun hc => hle (Std.OrientedCmp.gt_iff_lt.mp hc)
        have hkb : cmp k b.1 = .lt :=
          Std.TransCmp.lt_of_isLE_of_lt (Ordering.isLE_iff_ne_gt.mpr hka) (hhead b hb)
        exact Std.OrientedCmp.gt_iff_lt.mpr hkb
      constructor
      · exact List.filter_eq_nil_iff.mpr fun b hb => by simp [hgt b hb]
      · exact List.filter_eq_nil_iff.mpr fun b hb => by simp [hgt b hb]
    have ih := ih htail
    cases hcmp : cmp a.1 k with
    | lt =>
      simp only [List.filter_cons, hcmp]
      simpa using ih
    | eq | gt =>
      obtain ⟨hlt, heq⟩ := hrest (by simp [hcmp])
      rw [hlt, heq] at ih
      simp only [List.filter_cons, hcmp, hlt, heq]
      simpa using ih

omit [Std.TransCmp cmp] in
/-- Lists in strict order are the same when they have the same members. -/
theorem eq_of_sorted [Std.OrientedCmp cmp] {l l' : List (α × β)}
    (h : l.Pairwise fun a b => cmp a.1 b.1 = .lt) (h' : l'.Pairwise fun a b => cmp a.1 b.1 = .lt)
    (hmem : ∀ a, a ∈ l ↔ a ∈ l') : l = l' := by
  have hirrefl : Std.Irrefl fun a b : α × β => cmp a.1 b.1 = .lt :=
    ⟨fun a ha => absurd (Std.ReflCmp.compare_self.symm.trans ha) (by simp)⟩
  have hasymm : Std.Antisymm fun a b : α × β => cmp a.1 b.1 = .lt :=
    ⟨fun a b hab hba => absurd (Std.OrientedCmp.gt_of_lt hab) (by simp [hba])⟩
  exact h.eq_of_mem_iff h' hmem

/-- The entries of a map on one side of a key are in order. -/
theorem sorted_filter (m : Std.ExtTreeMap α β cmp) (k : α) (side : Ordering) :
    (m.toList.filter (cmp ·.1 k = side)).Pairwise fun a b => cmp a.1 b.1 = .lt :=
  Std.ExtTreeMap.ordered_keys_toList.filter _

/-- A map has one entry for a key that it has, and none for another one. -/
theorem filter_eq_key [Std.LawfulEqCmp cmp] (m : Std.ExtTreeMap α β cmp) (k : α) :
    m.toList.filter (cmp ·.1 k = .eq) = (m[k]?.map (k, ·)).toList := by
  refine eq_of_sorted (sorted_filter m k .eq) ?_ fun a => ?_
  · cases m[k]? with
    | none => exact .nil
    | some v => exact List.pairwise_singleton _ _
  · rw [List.mem_filter, Std.ExtTreeMap.mem_toList_iff_getElem?_eq_some, decide_eq_true_eq,
      Option.mem_toList, Option.map_eq_some_iff]
    constructor
    · rintro ⟨hget, heq⟩
      obtain rfl := Std.LawfulEqCmp.eq_of_compare heq
      exact ⟨a.2, hget, rfl⟩
    · rintro ⟨v, hget, rfl⟩
      exact ⟨hget, Std.ReflCmp.compare_self⟩

/-- The entries of a map around a key, in order. -/
theorem toList_split [Std.LawfulEqCmp cmp] (m : Std.ExtTreeMap α β cmp) (k : α) :
    m.toList = m.toList.filter (cmp ·.1 k = .lt) ++ ((m[k]?.map (k, ·)).toList ++
      m.toList.filter (cmp ·.1 k = .gt)) := by
  rw [← filter_eq_key]
  exact split_of_sorted Std.ExtTreeMap.ordered_keys_toList k

/-- The entries on either side of a key do not depend on what is stored under it. -/
theorem filter_insert [Std.LawfulEqCmp cmp] (m : Std.ExtTreeMap α β cmp) (k : α) (v : β)
    {side : Ordering} (hside : side ≠ .eq) :
    (m.insert k v).toList.filter (cmp ·.1 k = side) = m.toList.filter (cmp ·.1 k = side) := by
  refine eq_of_sorted (sorted_filter _ k side) (sorted_filter m k side) fun a => ?_
  simp only [List.mem_filter, decide_eq_true_eq]
  refine and_congr_left fun ha => ?_
  rw [Std.ExtTreeMap.mem_toList_iff_getElem?_eq_some,
    Std.ExtTreeMap.mem_toList_iff_getElem?_eq_some, Std.ExtTreeMap.getElem?_insert, if_neg]
  intro heq
  obtain rfl := Std.LawfulEqCmp.eq_of_compare heq
  exact hside (ha.symm.trans Std.ReflCmp.compare_self)

end ClearMoon
