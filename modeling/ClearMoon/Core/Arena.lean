import Mathlib

/-!
# Arenas

An arena holds objects at addresses, each with a serial number of its own. Serials are given out
in order and never twice, an address is reused only after its object has been freed, and every
serial ever given out belongs to exactly one live object or has been freed exactly once. These
facts are part of the type. Touching an address that holds no object is recorded as a fault.
-/

namespace ClearMoon

/-- Addresses of objects. -/
abbrev Addr := Nat

/-- Live objects by address, and the books kept about all objects ever allocated. -/
structure Arena (α : Type*) (serial : α → Nat) where
  /-- The live objects. -/
  cells : Std.ExtTreeMap Addr α
  /-- The next serial. -/
  born : Nat
  /-- The serials of the freed objects, in the order in which they were freed. -/
  freed : List Nat
  /-- Addresses that were touched while they held no object. -/
  faults : List Addr
  serial_lt : ∀ {a : Addr} {x}, cells[a]? = some x → serial x < born
  serial_inj : ∀ {a b : Addr} {x y}, cells[a]? = some x → cells[b]? = some y →
    serial x = serial y → a = b
  live_notMem : ∀ {a : Addr} {x}, cells[a]? = some x → serial x ∉ freed
  freed_lt : ∀ {n}, n ∈ freed → n < born
  freed_nodup : freed.Nodup
  settled : ∀ n < born, n ∈ freed ∨ ∃ (a : Addr) (x : α), cells[a]? = some x ∧ serial x = n

namespace Arena

variable {α : Type*} {serial : α → Nat}

/-- Nothing has been allocated yet. -/
def empty : Arena α serial where
  cells := ∅
  born := 0
  freed := []
  faults := []
  serial_lt := by simp
  serial_inj := by simp
  live_notMem := by simp
  freed_lt := by simp
  freed_nodup := by simp
  settled := by simp

/-- The object at an address. -/
def get? (h : Arena α serial) (a : Addr) : Option α := h.cells[a]?

/-- Record the use of an address that holds no object. -/
def fault (h : Arena α serial) (a : Addr) : Arena α serial :=
  { h with faults := h.faults ++ [a] }

/-- Put a new object, with the next serial, at a free address. -/
def alloc (h : Arena α serial) (a : Addr) (x : α) (ha : h.get? a = none)
    (hx : serial x = h.born) : Arena α serial :=
  { h with
    cells := h.cells.insert a x
    born := h.born + 1
    serial_lt := by
      intro b y hb
      rw [Std.ExtTreeMap.getElem?_insert] at hb
      split at hb
      · obtain rfl := Option.some.inj hb
        omega
      · have := h.serial_lt hb
        omega
    serial_inj := by
      intro b c y z hb hc he
      have hy := @h.serial_lt b y
      have hz := @h.serial_lt c z
      have hinj := @h.serial_inj b c y z
      rw [Std.ExtTreeMap.getElem?_insert] at hb hc
      split at hb <;> split at hc
      · simp_all
      · obtain rfl := Option.some.inj hb
        have := hz hc
        omega
      · obtain rfl := Option.some.inj hc
        have := hy hb
        omega
      · exact hinj hb hc he
    live_notMem := by
      intro b y hb hf
      have := h.freed_lt hf
      rw [Std.ExtTreeMap.getElem?_insert] at hb
      split at hb
      · obtain rfl := Option.some.inj hb
        omega
      · exact h.live_notMem hb hf
    freed_lt := by
      intro n hn
      have := h.freed_lt hn
      omega
    settled := by
      intro n hn
      by_cases hlast : n = h.born
      · exact .inr ⟨a, x, Std.ExtTreeMap.getElem?_insert_self, by omega⟩
      · refine (h.settled n (by omega)).imp id ?_
        rintro ⟨b, y, hb, hy⟩
        refine ⟨b, y, ?_, hy⟩
        rw [Std.ExtTreeMap.getElem?_insert, if_neg, hb]
        rw [Std.LawfulEqOrd.compare_eq_iff_eq]
        rintro rfl
        rw [get?, hb] at ha
        contradiction }

/-- Free the object at an address. -/
def free (h : Arena α serial) (a : Addr) : Arena α serial :=
  match hx : h.get? a with
  | none => h.fault a
  | some x =>
    { h with
      cells := h.cells.erase a
      freed := h.freed ++ [serial x]
      serial_lt := by
        intro b y hb
        rw [Std.ExtTreeMap.getElem?_erase] at hb
        split at hb
        · contradiction
        · exact h.serial_lt hb
      serial_inj := by
        intro b c y z hb hc he
        rw [Std.ExtTreeMap.getElem?_erase] at hb hc
        split at hb <;> split at hc
        · contradiction
        · contradiction
        · contradiction
        · exact h.serial_inj hb hc he
      live_notMem := by
        intro b y hb hf
        rw [Std.ExtTreeMap.getElem?_erase] at hb
        split at hb
        · contradiction
        · rename_i hne
          rcases List.mem_append.mp hf with hf | hf
          · exact h.live_notMem hb hf
          · rw [List.mem_singleton] at hf
            rw [Std.LawfulEqOrd.compare_eq_iff_eq] at hne
            exact hne (h.serial_inj hx hb hf.symm)
      freed_lt := by
        intro n hn
        rcases List.mem_append.mp hn with hn | hn
        · exact h.freed_lt hn
        · rw [List.mem_singleton] at hn
          exact hn ▸ h.serial_lt hx
      freed_nodup := by
        rw [List.nodup_append]
        refine ⟨h.freed_nodup, by simp, ?_⟩
        intro n hn m hm he
        rw [List.mem_singleton] at hm
        exact h.live_notMem hx (by rwa [← hm, ← he])
      settled := by
        intro n hn
        by_cases hself : n = serial x
        · exact .inl (by simp [hself])
        · refine (h.settled n hn).imp (fun hf => by simp [hf]) ?_
          rintro ⟨b, y, hb, hy⟩
          refine ⟨b, y, ?_, hy⟩
          rw [Std.ExtTreeMap.getElem?_erase, if_neg, hb]
          rw [Std.LawfulEqOrd.compare_eq_iff_eq]
          rintro rfl
          rw [get?, hb] at hx
          exact hself (by rw [← hy, Option.some.inj hx]) }

/-- Replace the object at an address by one with the same serial. -/
def set (h : Arena α serial) (a : Addr) (x y : α) (hx : h.get? a = some x)
    (hy : serial y = serial x) : Arena α serial :=
  { h with
    cells := h.cells.insert a y
    serial_lt := by
      intro b z hb
      rw [Std.ExtTreeMap.getElem?_insert] at hb
      split at hb
      · obtain rfl := Option.some.inj hb
        exact hy ▸ h.serial_lt hx
      · exact h.serial_lt hb
    serial_inj := by
      intro b c z w hb hc he
      rw [Std.ExtTreeMap.getElem?_insert] at hb hc
      split at hb <;> split at hc
      · simp_all
      · rename_i hab _
        obtain rfl := Option.some.inj hb
        rw [Std.LawfulEqOrd.compare_eq_iff_eq] at hab
        exact hab ▸ h.serial_inj hx hc (hy.symm.trans he)
      · rename_i hac
        obtain rfl := Option.some.inj hc
        rw [Std.LawfulEqOrd.compare_eq_iff_eq] at hac
        exact hac ▸ h.serial_inj hb hx (he.trans hy)
      · exact h.serial_inj hb hc he
    live_notMem := by
      intro b z hb hf
      rw [Std.ExtTreeMap.getElem?_insert] at hb
      split at hb
      · obtain rfl := Option.some.inj hb
        exact h.live_notMem hx (hy ▸ hf)
      · exact h.live_notMem hb hf
    settled := by
      intro n hn
      refine (h.settled n hn).imp id ?_
      rintro ⟨b, z, hb, hz⟩
      by_cases hab : a = b
      · subst hab
        rw [get?, hb] at hx
        exact ⟨a, y, Std.ExtTreeMap.getElem?_insert_self, by rw [hy, ← Option.some.inj hx, hz]⟩
      · refine ⟨b, z, ?_, hz⟩
        rw [Std.ExtTreeMap.getElem?_insert, if_neg, hb]
        rwa [Std.LawfulEqOrd.compare_eq_iff_eq] }

/-! ## What the operations do -/

variable {h : Arena α serial} {a b : Addr} {x y : α}

/-- Behind an allocation the cell holds the new object. -/
@[simp] theorem get?_alloc (ha : h.get? a = none) (hx : serial x = h.born) :
    (h.alloc a x ha hx).get? b = if a = b then some x else h.get? b := by
  simp only [alloc, get?, Std.ExtTreeMap.getElem?_insert, Std.LawfulEqOrd.compare_eq_iff_eq]

/-- Behind a release the cell is empty. -/
@[simp] theorem get?_free : (h.free a).get? b = if a = b then none else h.get? b := by
  rw [free]
  split
  · rename_i hx
    by_cases hab : a = b
    · subst hab
      simpa [fault, get?] using hx
    · simp [hab, fault, get?]
  · simp only [get?, Std.ExtTreeMap.getElem?_erase, Std.LawfulEqOrd.compare_eq_iff_eq]

/-- A store changes its own cell. -/
@[simp] theorem get?_set (hx : h.get? a = some x) (hy : serial y = serial x) :
    (h.set a x y hx hy).get? b = if a = b then some y else h.get? b := by
  simp only [set, get?, Std.ExtTreeMap.getElem?_insert, Std.LawfulEqOrd.compare_eq_iff_eq]

/-- An access out of bounds is noted, and stores nothing. -/
@[simp] theorem get?_fault : (h.fault a).get? b = h.get? b := rfl

/-- Freeing a live object is no fault. -/
theorem faults_free (hx : h.get? a = some x) : (h.free a).faults = h.faults := by
  rw [free]
  split
  · rename_i hnone
    rw [hx] at hnone
    contradiction
  · rfl

@[simp] theorem faults_alloc (ha : h.get? a = none) (hx : serial x = h.born) :
    (h.alloc a x ha hx).faults = h.faults := rfl

@[simp] theorem faults_set (hx : h.get? a = some x) (hy : serial y = serial x) :
    (h.set a x y hx hy).faults = h.faults := rfl

@[simp] theorem born_alloc (ha : h.get? a = none) (hx : serial x = h.born) :
    (h.alloc a x ha hx).born = h.born + 1 := rfl

@[simp] theorem freed_alloc (ha : h.get? a = none) (hx : serial x = h.born) :
    (h.alloc a x ha hx).freed = h.freed := rfl

@[simp] theorem born_set (hx : h.get? a = some x) (hy : serial y = serial x) :
    (h.set a x y hx hy).born = h.born := rfl

/-- A release takes no number back. -/
@[simp] theorem born_free : (h.free a).born = h.born := by
  rw [free]
  split <;> rfl

/-- What has been freed stays freed. -/
theorem freed_subset_free : h.freed ⊆ (h.free a).freed := by
  rw [free]
  split
  · exact List.Subset.refl _
  · exact List.subset_append_left _ _

/-- Freeing a live object puts its serial on record. -/
theorem mem_freed_free (hx : h.get? a = some x) : serial x ∈ (h.free a).freed := by
  rw [free]
  split
  · rename_i hnone
    rw [hx] at hnone
    contradiction
  · rename_i y hy
    obtain rfl := Option.some.inj (hx.symm.trans hy)
    exact List.mem_append_right _ (List.mem_singleton_self _)

/-- The books on one serial: it belongs to a live object and was never freed, or it was freed
exactly once and belongs to no live object. -/
theorem count_freed (h : Arena α serial) {n : Nat} (hn : n < h.born) :
    (h.freed.count n = 0 ∧ ∃ a x, h.get? a = some x ∧ serial x = n) ∨
      (h.freed.count n = 1 ∧ ∀ a x, h.get? a = some x → serial x ≠ n) := by
  by_cases hf : n ∈ h.freed
  · refine .inr ⟨List.count_eq_one_of_mem h.freed_nodup hf, ?_⟩
    rintro a x hx rfl
    exact h.live_notMem hx hf
  · exact .inl ⟨List.count_eq_zero_of_not_mem hf, (h.settled n hn).resolve_left hf⟩

end Arena

end ClearMoon
