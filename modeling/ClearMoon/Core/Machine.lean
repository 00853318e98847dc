import Mathlib

/-!
# Runs of a guarded transition function

A transition function `step : σ → α → Option σ` rejects a disabled label with `none`. A run
records its labels in order, and every label is admitted by a guard that may read the state in
which the label is taken. An invariant is proved once, by the step lemma, and then holds after
every run. Executing a list of labels is decidable, so a concrete trace is replayed by `decide`.
-/

namespace ClearMoon

variable {σ α : Type*}

/-- Runs from `s` along `step` whose every label satisfies `guard` where it is taken. -/
inductive Run (step : σ → α → Option σ) (guard : σ → α → Prop) (s : σ) : List α → σ → Prop
  | nil : Run step guard s [] s
  | snoc {as t a u} : Run step guard s as t → guard t a → step t a = some u →
      Run step guard s (as ++ [a]) u

/-- The guard that admits every label: the unrestricted runs. -/
def anyStep (_ : σ) (_ : α) : Prop := True

namespace Run

variable {step : σ → α → Option σ} {guard guard' : σ → α → Prop} {s t u : σ} {as bs : List α}

/-- An invariant of every admitted step holds after every run from a state that has it. -/
theorem invariant {I : σ → Prop} (hrun : Run step guard s as t) (hinit : I s)
    (hstep : ∀ t a u, I t → guard t a → step t a = some u → I u) : I t := by
  induction hrun with
  | nil => exact hinit
  | snoc _ hg hs ih => exact hstep _ _ _ ih hg hs

/-- Consecutive runs concatenate, and so do their labels. -/
theorem append (hrun : Run step guard s as t) (hnext : Run step guard t bs u) :
    Run step guard s (as ++ bs) u := by
  induction hnext with
  | nil => simpa using hrun
  | snoc _ hg hs ih => simpa only [List.append_assoc] using ih.snoc hg hs

/-- A run admitted by a guard is admitted by every weaker guard. -/
theorem mono (hrun : Run step guard s as t) (hg : ∀ t a, guard t a → guard' t a) :
    Run step guard' s as t := by
  induction hrun with
  | nil => exact .nil
  | snoc _ h hs ih => exact ih.snoc (hg _ _ h) hs

/-- A guarded run is in particular an unrestricted one. -/
theorem toAny (hrun : Run step guard s as t) : Run step anyStep s as t :=
  hrun.mono fun _ _ _ => trivial

/-- A run in which every label satisfies a predicate is a run that admits no other label. -/
theorem restrict {P : α → Prop} (hrun : Run step guard s as t) (h : ∀ a ∈ as, P a) :
    Run step (fun _ a => P a) s as t := by
  induction hrun with
  | nil => exact .nil
  | snoc _ _ hs ih =>
    refine (ih fun a ha => h a (List.mem_append_left _ ha)).snoc ?_ hs
    exact h _ (List.mem_append_right _ (List.mem_singleton_self _))

/-- The labels of a run that admits no other label satisfy the predicate. -/
theorem labels {P : α → Prop} (hrun : Run step (fun _ a => P a) s as t) : ∀ a ∈ as, P a := by
  induction hrun with
  | nil => nofun
  | snoc _ hg _ ih =>
    intro a ha
    rcases List.mem_append.mp ha with ha | ha
    · exact ih a ha
    · obtain rfl := List.mem_singleton.mp ha
      exact hg

/-- The labels determine the state that a run ends in. -/
theorem foldlM_eq (hrun : Run step guard s as t) : as.foldlM step s = some t := by
  induction hrun with
  | nil => rfl
  | snoc _ _ hs ih =>
    rw [List.foldlM_append, ih]
    simpa using hs

/-- A run is admitted step by step, and by a guard that admits the same labels no other way. -/
theorem snoc_iff {a : α} (hrun : Run step guard s as t) (hs : step t a = some u) :
    Run step guard' s (as ++ [a]) u ↔ Run step guard' s as t ∧ guard' t a := by
  refine ⟨fun h => ?_, fun ⟨h, hg⟩ => h.snoc hg hs⟩
  generalize hlabels : as ++ [a] = labels at h
  cases h with
  | nil => simp at hlabels
  | snoc hbefore hg hs' =>
    obtain ⟨rfl, ha⟩ := List.append_inj' hlabels rfl
    obtain rfl := List.singleton_inj.mp ha
    obtain rfl := Option.some.inj (hrun.foldlM_eq.symm.trans hbefore.foldlM_eq)
    exact ⟨hbefore, hg⟩

/-- A run that two guards admit is admitted by both at once. -/
theorem and (hrun : Run step guard s as t) (h : Run step guard' s as t) :
    Run step (fun s a => guard s a ∧ guard' s a) s as t := by
  induction hrun with
  | nil => exact .nil
  | snoc hbefore hg hs ih =>
    obtain ⟨h, hg'⟩ := (hbefore.snoc_iff hs).mp h
    exact (ih h).snoc ⟨hg, hg'⟩ hs

end Run

/-- In every state that a run along these labels goes through, `p` holds. -/
def Always (step : σ → α → Option σ) (s : σ) (as : List α) (p : σ → Prop) : Prop :=
  ∀ bs t, bs <+: as → Run step anyStep s bs t → p t

/-- A property that a step keeps exactly under a guard holds all along a run exactly if every label
is admitted by the guard. -/
theorem Run.always_iff {step : σ → α → Option σ} {guard : σ → α → Prop} {s t : σ} {as : List α}
    {p : σ → Prop} (hrun : Run step anyStep s as t) (hinit : p s)
    (hstep : ∀ bs t a u, Run step anyStep s bs t → p t → step t a = some u → (p u ↔ guard t a)) :
    Always step s as p ↔ Run step guard s as t := by
  induction hrun with
  | nil =>
    refine iff_of_true (fun bs u hbs hu => ?_) .nil
    obtain rfl := List.prefix_nil.mp hbs
    obtain rfl := Option.some.inj (show some s = some u from hu.foldlM_eq)
    exact hinit
  | @snoc as v a u hv hg hs ih =>
    rw [hv.snoc_iff hs, ← ih]
    have hlast : Always step s as p → p v := fun h => h as v List.prefix_rfl hv
    constructor
    · intro h
      have hbefore : Always step s as p := fun bs w hbs =>
        h bs w (hbs.trans (List.prefix_append as [a]))
      refine ⟨hbefore, (hstep as v a u hv (hlast hbefore) hs).mp ?_⟩
      exact h _ u List.prefix_rfl (hv.snoc hg hs)
    · rintro ⟨h, ha⟩ bs w hbs hw
      rcases List.prefix_concat_iff.mp hbs with rfl | hbs
      · obtain rfl := Option.some.inj ((hv.snoc hg hs).foldlM_eq.symm.trans hw.foldlM_eq)
        exact (hstep as v a u hv (hlast h) hs).mpr ha
      · exact h bs w hbs hw

/-- A property that follows from an invariant of the admitted steps, and that no other step from a
state with the invariant keeps, holds all along a run exactly if every label is admitted. -/
theorem Run.always_iff_of_invariant {step : σ → α → Option σ} {guard : σ → α → Prop} {s t : σ}
    {as : List α} {I p : σ → Prop} (hrun : Run step anyStep s as t) (hinit : I s)
    (hp : ∀ t, I t → p t) (hkeep : ∀ t a u, I t → guard t a → step t a = some u → I u)
    (hguard : ∀ t a u, I t → step t a = some u → p u → guard t a) :
    Always step s as p ↔ Run step guard s as t := by
  have hinv : Always step s as I ↔ Run step guard s as t :=
    hrun.always_iff hinit fun _ t a u _ ht hs =>
      ⟨fun hu => hguard t a u ht hs (hp u hu), fun hg => hkeep t a u ht hg hs⟩
  refine ⟨fun h => ?_, fun h bs u hbs hu => hp u (hinv.mpr h bs u hbs hu)⟩
  clear hinv
  induction hrun with
  | nil => exact .nil
  | @snoc as v a u hv hg hs ih =>
    have hbefore : Run step guard s as v :=
      ih fun bs w hbs => h bs w (hbs.trans (List.prefix_append as [a]))
    have hlast : p u := h _ u List.prefix_rfl (hv.snoc hg hs)
    exact hbefore.snoc (hguard v a u (hbefore.invariant hinit hkeep) hs hlast) hs

/-- Take the labels in order, checking the guard before each of them. -/
def replay (step : σ → α → Option σ) (guard : σ → α → Prop) [∀ s a, Decidable (guard s a)]
    (s : σ) : List α → Option σ
  | [] => some s
  | a :: as => if guard s a then (step s a).bind fun t => replay step guard t as else none

/-- A successful replay is a run, so concrete traces are checked by evaluation. -/
theorem Run.of_replay {step : σ → α → Option σ} {guard : σ → α → Prop}
    [∀ s a, Decidable (guard s a)] {s t : σ} {as : List α}
    (h : replay step guard s as = some t) : Run step guard s as t := by
  induction as generalizing s with
  | nil =>
    obtain rfl := Option.some.inj h
    exact .nil
  | cons a as ih =>
    rw [replay] at h
    split at h
    · rename_i hg
      obtain ⟨u, hs, hu⟩ := Option.bind_eq_some_iff.mp h
      exact (Run.nil.snoc hg hs).append (ih hu)
    · contradiction

instance (s : σ) (a : α) : Decidable (anyStep s a) := isTrue trivial

end ClearMoon
