import ClearMoon.Core.Machine

/-!
# Runs seen through a map, and runs that are bounded

A machine may contain another one as a part. If every step of the whole is, seen through the map
that picks the part, a run of the part, then so is every run of the whole, and what has been proved
of the part holds there. A measure that some labels lower and none raises bounds how often these
labels occur, whatever else happens in between.
-/

namespace ClearMoon

variable {σ τ α β : Type*}

/-- Seen through `f`, a run of one machine is a run of the other one, if each of its steps is. -/
theorem Run.simulate {step : σ → α → Option σ} {guard : σ → α → Prop} {step' : τ → β → Option τ}
    {guard' : τ → β → Prop} {f : σ → τ} {l : α → List β} {I : σ → Prop} {s t : σ}
    {as : List α} (hrun : Run step guard s as t) (hinit : I s)
    (hstep : ∀ s a t, I s → guard s a → step s a = some t →
      I t ∧ Run step' guard' (f s) (l a) (f t)) :
    Run step' guard' (f s) (as.flatMap l) (f t) ∧ I t := by
  induction hrun with
  | nil => exact ⟨.nil, hinit⟩
  | snoc _ hg hs ih =>
    obtain ⟨hbefore, hI⟩ := ih
    obtain ⟨hI', hnext⟩ := hstep _ _ _ hI hg hs
    refine ⟨?_, hI'⟩
    rw [List.flatMap_append, List.flatMap_singleton]
    exact hbefore.append hnext

/-- A single step is a run. -/
theorem Run.single {step : σ → α → Option σ} {guard : σ → α → Prop} {s t : σ} {a : α}
    (hg : guard s a) (hs : step s a = some t) : Run step guard s [a] t := Run.nil.snoc hg hs

/-- A measure that the labels in `p` lower, and that no label raises, bounds their number. -/
theorem Run.countP_add_le {step : σ → α → Option σ} {guard : σ → α → Prop} {μ : σ → Nat}
    {p : α → Bool} {I : σ → Prop} {s t : σ} {as : List α} (hrun : Run step guard s as t)
    (hinit : I s)
    (hstep : ∀ s a t, I s → guard s a → step s a = some t →
      I t ∧ μ t + (if p a then 1 else 0) ≤ μ s) :
    as.countP p + μ t ≤ μ s ∧ I t := by
  induction hrun with
  | nil => simpa using hinit
  | snoc _ hg hs ih =>
    obtain ⟨hbefore, hI⟩ := ih
    obtain ⟨hI', hnext⟩ := hstep _ _ _ hI hg hs
    refine ⟨?_, hI'⟩
    rw [List.countP_append, List.countP_singleton]
    omega

end ClearMoon
